import Keyhold.Host.Answers
import Keyhold.Main
import Keyhold.Proofs.Tracker.Timer
import Keyhold.Proofs.Tracker.Latch
import Keyhold.Proofs.Tracker.Burst
import Keyhold.Proofs.Panel.Batch
import Keyhold.Proofs.Panel.Product
import Keyhold.Proofs.Panel.Timeout
import Keyhold.Proofs.Commands.Ledger
import Keyhold.Proofs.Daemon.Release
import Keyhold.Proofs.Bindings.Choice
import Keyhold.Proofs.Bindings.Refusal
import Keyhold.Proofs.Application.Options
import Keyhold.Proofs.Input.Watch
import Keyhold.Proofs.Input.Service
import Keyhold.Proofs.Daemon.Loss
import Keyhold.Proofs.Daemon.Children
import Keyhold.Proofs.Daemon.Shutdown
import Keyhold.Proofs.Panel.Retirement
import Keyhold.Proofs.Panel.Sleep
import Keyhold.Proofs.Panel.Shift
import Keyhold.Proofs.Panel.Range
import Keyhold.Proofs.Panel.Repeats
import Keyhold.Proofs.Tracker.Origin
import Keyhold.Proofs.Tracker.Longest
import Keyhold.Proofs.Panel.Execution
import Keyhold.Proofs.Key.Grammar
import Keyhold.Proofs.Config.Acceptance
import Keyhold.Proofs.Input.Delivery
import Keyhold.Proofs.CommandLine.Order
import Keyhold.Proofs.Input.Retries
