/-!
# File errors

What can go wrong in a call on files: the operating system refuses it for one of the reasons in
`Errno`, or the call is impossible before the system is asked or after it has answered.  `Errno` has
the reasons that follow from the names, links and kinds of entries; there are none for permissions,
quotas or a disk that does not work.
-/

namespace StubInsertion

/-- A reason for which the operating system refuses a call. -/
inductive Errno
  | notFound
  | outOfMemory
  | busy
  | taken
  | notADirectory
  | isADirectory
  | invalidArgument
  | noSpace
  | nameTooLong
  | notEmpty
  | tooManyLinks
  deriving DecidableEq, Repr

namespace Errno

/-- The number of a reason. -/
def code : Errno → Nat
  | .notFound => 2
  | .outOfMemory => 12
  | .busy => 16
  | .taken => 17
  | .notADirectory => 20
  | .isADirectory => 21
  | .invalidArgument => 22
  | .noSpace => 28
  | .nameTooLong => 36
  | .notEmpty => 39
  | .tooManyLinks => 40

/-- The wording of a reason. -/
def text : Errno → String
  | .notFound => "No such file or directory"
  | .outOfMemory => "Cannot allocate memory"
  | .busy => "Device or resource busy"
  | .taken => "File exists"
  | .notADirectory => "Not a directory"
  | .isADirectory => "Is a directory"
  | .invalidArgument => "Invalid argument"
  | .noSpace => "No space left on device"
  | .nameTooLong => "File name too long"
  | .notEmpty => "Directory not empty"
  | .tooManyLinks => "Too many levels of symbolic links"

end Errno

/-- Why a call on files fails. -/
inductive FileError
  /-- the operating system refuses it -/
  | refused (reason : Errno)
  /-- the operating system refuses it for a reason that is known by number and wording only -/
  | refusedWith (code : Nat) (text : String)
  /-- a path holds the byte 0, which no name can hold -/
  | nulInPath
  /-- a text file is not UTF-8 -/
  | notUtf8
  /-- a writer takes no more bytes -/
  | shortWrite
  deriving DecidableEq, Repr

/-- The wording of a file error. -/
def FileError.message : FileError → String
  | .refused reason => s!"{reason.text} (os error {reason.code})"
  | .refusedWith code text => s!"{text} (os error {code})"
  | .nulInPath => "file name contained an unexpected NUL byte"
  | .notUtf8 => "stream did not contain valid UTF-8"
  | .shortWrite => "failed to write whole buffer"

end StubInsertion
