/-!
# System errors

What the operating system answers when it refuses a request, and the text shown for it. Most
refusals carry an error number; a few are noticed before the system is asked at all.
-/

namespace Keyhold.System

/-- Why a request to the operating system failed. -/
inductive OsError where
  /-- Refused by the system with an error number. -/
  | number (code : Nat)
  /-- A file name with a NUL character. -/
  | nulInName
  /-- Other data with a NUL character where none may be. -/
  | nulInData
  /-- Text that is not valid UTF-8. -/
  | notUnicode
  deriving DecidableEq, Repr, Inhabited

namespace OsError

/-- No such file or directory. -/
def noEntry : OsError := .number 2
/-- Interrupted system call. -/
def interrupted : OsError := .number 4
/-- Argument list too long. -/
def tooManyArguments : OsError := .number 7
/-- No child processes. -/
def noChild : OsError := .number 10
/-- Nothing to read at the moment. -/
def wouldBlock : OsError := .number 11
/-- No such device. -/
def noDevice : OsError := .number 19
/-- Not a directory. -/
def notDirectory : OsError := .number 20
/-- Is a directory. -/
def isDirectory : OsError := .number 21
/-- Too many open files. -/
def tooManyFiles : OsError := .number 24
/-- The file is not a device that answers the request. -/
def notDevice : OsError := .number 25
/-- File name too long. -/
def nameTooLong : OsError := .number 36
/-- Function not implemented. -/
def notImplemented : OsError := .number 38

/-- Descriptions of the first error numbers, from number one. -/
def descriptions : List String :=
  ["Operation not permitted", "No such file or directory", "No such process",
    "Interrupted system call", "Input/output error", "No such device or address",
    "Argument list too long", "Exec format error", "Bad file descriptor",
    "No child processes", "Resource temporarily unavailable", "Cannot allocate memory",
    "Permission denied", "Bad address", "Block device required", "Device or resource busy",
    "File exists", "Invalid cross-device link", "No such device", "Not a directory",
    "Is a directory", "Invalid argument", "Too many open files in system",
    "Too many open files", "Inappropriate ioctl for device", "Text file busy",
    "File too large", "No space left on device", "Illegal seek", "Read-only file system",
    "Too many links", "Broken pipe", "Numerical argument out of domain",
    "Numerical result out of range", "Resource deadlock avoided", "File name too long",
    "No locks available", "Function not implemented", "Directory not empty",
    "Too many levels of symbolic links"]

/-- The description of an error number. -/
def describe (code : Nat) : String :=
  match code with
  | 0 => "Success"
  | position + 1 => (descriptions[position]?).getD ("Unknown error " ++ toString code)

/-- The error as shown to the user. -/
def message : OsError → String
  | .number code => describe code ++ " (os error " ++ toString code ++ ")"
  | .nulInName => "file name contained an unexpected NUL byte"
  | .nulInData => "nul byte found in provided data"
  | .notUnicode => "stream did not contain valid UTF-8"

end OsError

/-- Why a pipe for signals could not be opened. -/
inductive SignalPipeError where
  /-- The pipe could not be created. -/
  | uncreated (cause : OsError)
  /-- An end of the pipe could not be set up. -/
  | unprepared (cause : OsError)
  /-- A signal could not be led into the pipe. -/
  | unregistered (signal : Nat) (cause : OsError)
  deriving DecidableEq, Repr, Inhabited

namespace SignalPipeError

/-- The error and what caused it, outermost first. -/
def chain : SignalPipeError → List String
  | .uncreated cause => ["creating signal pipe", cause.message]
  | .unprepared cause => [cause.message]
  | .unregistered signal cause =>
    ["registering handler for signal " ++ toString signal, cause.message]

end SignalPipeError

end Keyhold.System
