import OpsContent.Path

/-!
# Why an operation on files fails

Failures that the system numbers, and those that arise before or after a system call.
-/

namespace OpsContent

/-- Why the system refuses an operation. -/
inductive Errno where
  | notFound
  | busy
  | alreadyExists
  | notDirectory
  | isDirectory
  | invalidArgument
  | nameTooLong
  | notEmpty
  deriving DecidableEq, Repr

namespace Errno

def number : Errno → Nat
  | .notFound => 2
  | .busy => 16
  | .alreadyExists => 17
  | .notDirectory => 20
  | .isDirectory => 21
  | .invalidArgument => 22
  | .nameTooLong => 36
  | .notEmpty => 39

/-- The system's words for a failure. -/
def description : Errno → String
  | .notFound => "No such file or directory"
  | .busy => "Device or resource busy"
  | .alreadyExists => "File exists"
  | .notDirectory => "Not a directory"
  | .isDirectory => "Is a directory"
  | .invalidArgument => "Invalid argument"
  | .nameTooLong => "File name too long"
  | .notEmpty => "Directory not empty"

def message (errno : Errno) : String :=
  errno.description ++ " (os error " ++ toString errno.number ++ ")"

end Errno

/-- Failures of operations on files and streams. -/
inductive IoError where
  | system (errno : Errno)
  | nulInName
  | nulInWord
  | notText
  | notRegularFile
  | noCommonRoot
  | walk (path : Path) (cause : IoError)
  | badChecksum
  | corruptStream
  | endOfStream
  | other (text : String)
  deriving DecidableEq

def IoError.message : IoError → String
  | .system errno => errno.message
  | .nulInName => "file name contained an unexpected NUL byte"
  | .nulInWord => "nul byte found in provided data"
  | .notText => "stream did not contain valid UTF-8"
  | .notRegularFile => "the source path is neither a regular file nor a symlink to a regular file"
  | .noCommonRoot => "failed to create whole tree"
  | .walk path cause => "IO error for operation on " ++ path.text ++ ": " ++ cause.message
  | .badChecksum => "Invalid checksum"
  | .corruptStream => "corrupt deflate stream"
  | .endOfStream => "failed to fill whole buffer"
  | .other text => text

end OpsContent
