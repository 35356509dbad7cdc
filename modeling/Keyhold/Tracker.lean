import Keyhold.Bindings
import Keyhold.Log
import Keyhold.Time.Text

/-!
# Press tracking of one key

A tracker follows one bound key. A press starts when the key goes down; a release opens the
debounce window, and a press inside the window continues the earlier one. While a key is held
its deadline is the trigger time of its last action after the start of the press, if that
action is a long one; during debouncing it is the end of the window. When a deadline has
passed, `expire` decides on the action for the time the key was held and either ends the press
or, for a key still down, waits for the release.

A deadline that the clock cannot represent has no tracker as result.
-/

namespace Keyhold

/-- What a key is doing. -/
inductive Phase where
  /-- Up, with no press under way. -/
  | released
  /-- Down. -/
  | pressed
  /-- Up for less than the debounce window, as far as is known. -/
  | debounce
  /-- Down, and the press has been decided. -/
  | handled
  deriving DecidableEq, Repr, Inhabited

namespace Phase

/-- The name of a phase. -/
def text : Phase → String
  | .released => "released"
  | .pressed => "pressed"
  | .debounce => "debounce"
  | .handled => "handled"

end Phase

/-- The decision to run an action. The elapsed time is in milliseconds. -/
structure Firing where
  code : UInt16
  name : Option String
  command : String
  exits : Bool
  elapsed : UInt64
  deriving DecidableEq, Repr, Inhabited

/-- Follows the presses of one bound key. -/
structure Tracker where
  binding : Binding
  window : Span
  phase : Phase
  pressedAt : Option Instant
  releasedAt : Option Instant
  deadline : Option Instant
  deriving DecidableEq, Repr, Inhabited

namespace Tracker

/-- The debounce window in milliseconds when none is configured. -/
def defaultWindow : UInt64 := 10

/-- The tracker of a key that is up. -/
def start (binding : Binding) (window : Span) : Tracker :=
  ⟨binding, window, .released, none, none, none⟩

/-- The code of the tracked key. -/
def code (tracker : Tracker) : UInt16 := tracker.binding.code

/-- The label of the tracked key in messages. -/
def label (tracker : Tracker) : String := tracker.binding.label

/-- The key goes down in a press that started at the given time. -/
def goDown (tracker : Tracker) (origin : Instant) : Option Tracker :=
  let down := { tracker with phase := .pressed, pressedAt := some origin }
  match tracker.binding.held? with
  | none => some { down with deadline := none }
  | some action =>
    (origin.add? (Span.ofMillis action.trigger)).map fun deadline =>
      { down with deadline := some deadline }

/-- The key comes up after a press that is still to be decided. -/
def goUp (tracker : Tracker) (stamp : Instant) : Option Tracker :=
  (stamp.add? tracker.window).map fun deadline =>
    { tracker with phase := .debounce, releasedAt := some stamp, deadline := some deadline }

/-- The tracker after a record of its key; `down` tells a press or repeat from a release. -/
def handle (tracker : Tracker) (stamp : Instant) (down : Bool) : Option Tracker :=
  match tracker.phase, down with
  | .released, true => tracker.goDown stamp
  | .debounce, true => tracker.goDown (tracker.pressedAt.getD stamp)
  | .pressed, false => tracker.goUp stamp
  | .handled, false => some { tracker with phase := .released }
  | .pressed, true => some tracker
  | .handled, true => some tracker
  | .released, false => some tracker
  | .debounce, false => some tracker

/-- Whether the deadline has come by the given time. -/
def isDue (tracker : Tracker) (now : Instant) : Bool :=
  tracker.deadline.any fun deadline => deadline ≤ now

/-- The end of the press as counted when the deadline is noticed: the last release, or the
present for a key still down. -/
def endOfPress (tracker : Tracker) (now : Instant) : Option Instant :=
  if tracker.phase = .debounce then tracker.releasedAt else some now

/-- How long the key was held, in milliseconds; zero if the times are unknown. -/
def heldMillis (tracker : Tracker) (now : Instant) : UInt64 :=
  match tracker.pressedAt, tracker.endOfPress now with
  | some pressed, some released => (released.since pressed).wholeMillis
  | _, _ => 0

/-- The action decided on when the deadline is noticed. -/
def decide? (tracker : Tracker) (now : Instant) : Option Action :=
  Action.choose? tracker.binding.actions (tracker.heldMillis now)

/-- The firing of an action of the tracked key. -/
def firing (tracker : Tracker) (action : Action) (elapsed : UInt64) : Firing :=
  ⟨tracker.binding.code, tracker.binding.name, action.command, action.exits, elapsed⟩

/-- The tracker once its press has been decided. -/
def decided (tracker : Tracker) (now : Instant) : Tracker :=
  { tracker with
    phase := if tracker.phase = .debounce then .released else .handled
    releasedAt := tracker.endOfPress now
    deadline := none }

/-- Decides the press if the deadline has come; otherwise nothing happens. -/
def expire (tracker : Tracker) (now : Instant) : Tracker × Option Firing :=
  if tracker.isDue now then
    (tracker.decided now,
      (tracker.decide? now).map fun action => tracker.firing action (tracker.heldMillis now))
  else (tracker, none)

/-- What `expire` reports. -/
def expireMessages (tracker : Tracker) (now : Instant) : List Message :=
  match tracker.deadline with
  | none => []
  | some deadline =>
    if deadline ≤ now then
      let held := toString (tracker.heldMillis now).toNat ++ " ms"
      [.trace ("key " ++ tracker.label ++ ": timer " ++ (now.since deadline).text ++
          " past deadline"),
        match tracker.decide? now with
        | some action => .info ("running " ++ action.command ++ " after " ++ held)
        | none => .info ("ignoring key " ++ tracker.label ++ " released after " ++ held)]
    else []

end Tracker

end Keyhold
