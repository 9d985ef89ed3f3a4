/-!
# What can go wrong with a file

`Fault` is the reason that the file system gives, `FileError` the error that a reader or a writer
of a whole file reports.
-/

namespace Anchored

/-- Why a file could not be read or written. -/
inductive Fault where
  | missing
  | notDirectory
  | directory
  | tooLarge
  | nameTooLong
  | nulInPath
  /-- The bytes are not the UTF-8 form of a text. -/
  | notText
  deriving DecidableEq, Repr

/-- The system's words for a fault. -/
def Fault.message : Fault → String
  | .missing => "No such file or directory (os error 2)"
  | .notDirectory => "Not a directory (os error 20)"
  | .directory => "Is a directory (os error 21)"
  | .tooLarge => "File too large (os error 27)"
  | .nameTooLong => "File name too long (os error 36)"
  | .nulInPath => "file name contained an unexpected NUL byte"
  | .notText => "stream did not contain valid UTF-8"

/-- A file that could not be read or written in full. -/
inductive FileError where
  /-- There is no regular file at the path. -/
  | notFound (path : String)
  | fault (path : String) (reason : Fault)
  /-- The file does not hold a text. -/
  | notText (path : String)
  deriving DecidableEq, Repr

/-- The text of a file error. -/
def FileError.message : FileError → String
  | .notFound path => "File not found: " ++ path
  | .fault path reason => "I/O error on " ++ path ++ ": " ++ reason.message
  | .notText path => "Invalid UTF-8 in file: " ++ path

end Anchored
