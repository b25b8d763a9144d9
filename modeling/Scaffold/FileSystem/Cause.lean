import Scaffold.Text.Utf8

set_option autoImplicit false

/-! # Why an access fails

An access to the file system fails for one cause. Most causes are faults that the system reports by
number; the others arise before the system is asked or after it has answered. A cause can be shown
whether or not it can arise: lack of permission and lack of space are known here by number and name,
but in the closed world of `FileSystem` nothing fails by them. -/

namespace Scaffold

/-- The faults that the system reports. -/
inductive SystemFault
  | notFound
  | permissionDenied
  | alreadyExists
  | notDirectory
  | isDirectory
  | noSpace
  | nameTooLong
  deriving DecidableEq, Repr

namespace SystemFault

/-- All faults. -/
def all : List SystemFault :=
  [.notFound, .permissionDenied, .alreadyExists, .notDirectory, .isDirectory, .noSpace,
    .nameTooLong]

/-- The number by which the system reports the fault. -/
def number : SystemFault → Nat
  | .notFound => 2
  | .permissionDenied => 13
  | .alreadyExists => 17
  | .notDirectory => 20
  | .isDirectory => 21
  | .noSpace => 28
  | .nameTooLong => 36

/-- The fault that the system reports by the number. -/
def ofNumber? (n : Nat) : Option SystemFault :=
  all.find? fun fault => fault.number == n

/-- What the system calls the fault. -/
def description : SystemFault → String
  | .notFound => "No such file or directory"
  | .permissionDenied => "Permission denied"
  | .alreadyExists => "File exists"
  | .notDirectory => "Not a directory"
  | .isDirectory => "Is a directory"
  | .noSpace => "No space left on device"
  | .nameTooLong => "File name too long"

end SystemFault

/-- Why an access to the file system fails. -/
inductive Cause
  /-- The system refuses the access. -/
  | system (fault : SystemFault)
  /-- The path holds a null character, so the system cannot be asked. -/
  | nullInPath
  /-- A file that is read as a whole text is none. -/
  | notText
  /-- A file that is read as text is none; the fault says where. -/
  | undecodable (fault : Utf8.Fault)
  /-- The directory at `path` cannot be listed. -/
  | listing (path : String) (cause : Cause)
  /-- Any other cause, in words. -/
  | other (text : String)
  deriving DecidableEq, Repr

/-- How a cause is shown. -/
def Cause.message : Cause → String
  | .system fault =>
    fault.description ++ " (os error " ++ toString fault.number ++ ")"
  | .nullInPath => "file name contained an unexpected NUL byte"
  | .notText => "stream did not contain valid UTF-8"
  | .undecodable fault => fault.message
  | .listing path cause => "IO error for operation on " ++ path ++ ": " ++ cause.message
  | .other text => text

end Scaffold
