import HomeProvision.Text.Quoted

/-!
# Errors of the operating system

A call that the system refuses comes back with a number that says why, and with the file names that
the call was given. An error without a number carries a text instead.
-/

namespace HomeProvision

/-- Why the system refuses a call. -/
inductive Errno where
  | notPermitted
  | noEntry
  | inputOutput
  | noDevice
  | badDescriptor
  | accessDenied
  | alreadyExists
  | notDirectory
  | isDirectory
  | invalidArgument
  | noSpace
  | readOnly
  | nameTooLong
  | tooManyLinks
  deriving Repr, DecidableEq

namespace Errno

/-- The number of an error. -/
def number : Errno → Nat
  | notPermitted => 1
  | noEntry => 2
  | inputOutput => 5
  | noDevice => 6
  | badDescriptor => 9
  | accessDenied => 13
  | alreadyExists => 17
  | notDirectory => 20
  | isDirectory => 21
  | invalidArgument => 22
  | noSpace => 28
  | readOnly => 30
  | nameTooLong => 36
  | tooManyLinks => 40

/-- The symbol of an error. -/
def symbol : Errno → String
  | notPermitted => "EPERM"
  | noEntry => "ENOENT"
  | inputOutput => "EIO"
  | noDevice => "ENXIO"
  | badDescriptor => "EBADF"
  | accessDenied => "EACCES"
  | alreadyExists => "EEXIST"
  | notDirectory => "ENOTDIR"
  | isDirectory => "EISDIR"
  | invalidArgument => "EINVAL"
  | noSpace => "ENOSPC"
  | readOnly => "EROFS"
  | nameTooLong => "ENAMETOOLONG"
  | tooManyLinks => "ELOOP"

/-- The wording of an error. -/
def text : Errno → String
  | notPermitted => "Operation not permitted"
  | noEntry => "No such file or directory"
  | inputOutput => "Input/output error"
  | noDevice => "No such device or address"
  | badDescriptor => "Bad file descriptor"
  | accessDenied => "Permission denied"
  | alreadyExists => "File exists"
  | notDirectory => "Not a directory"
  | isDirectory => "Is a directory"
  | invalidArgument => "Invalid argument"
  | noSpace => "No space left on device"
  | readOnly => "Read-only file system"
  | nameTooLong => "File name too long"
  | tooManyLinks => "Too many levels of symbolic links"

/-- Every error. -/
def all : List Errno :=
  [notPermitted, noEntry, inputOutput, noDevice, badDescriptor, accessDenied, alreadyExists,
    notDirectory, isDirectory, invalidArgument, noSpace, readOnly, nameTooLong, tooManyLinks]

/-- The error with a symbol. -/
def ofSymbol? (s : String) : Option Errno :=
  all.find? fun e => e.symbol = s

end Errno

/-- The file names of a refused call. -/
inductive FileNames where
  | none
  | one (path : String)
  | two (target path : String)
  deriving Repr, DecidableEq

/-- An error of the operating system. -/
inductive SystemError where
  | numbered (code : Errno) (names : FileNames)
  | bare (text : String)
  deriving Repr, DecidableEq

namespace SystemError

/-- The number of an error, if it has one. -/
def code? : SystemError → Option Errno
  | numbered code _ => some code
  | bare _ => none

/-- The wording of an error: number, text and quoted file names. -/
def message : SystemError → String
  | numbered code names =>
      let base := "[Errno " ++ toString code.number ++ "] " ++ code.text
      match names with
      | .none => base
      | .one path => base ++ ": " ++ Text.quoted path
      | .two target path => base ++ ": " ++ Text.quoted target ++ " -> " ++ Text.quoted path
  | bare text => text

end SystemError

end HomeProvision
