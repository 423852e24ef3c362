/-!
# What can go wrong on a disk

Each cause has the text shown to the user and the name of its class.
-/

namespace DrawingDiary

/-- Why an operation on the disk failed. -/
inductive DiskError where
  | notFound
  | alreadyExists
  | notADirectory
  | isADirectory
  | invalidArgument
  | directoryNotEmpty
  | tooManyLinks
  /-- a name or a whole path has more bytes than the disk takes -/
  | nameTooLong
  /-- the content is no text -/
  | invalidText
  /-- an empty path names no place -/
  | emptyPath
  /-- a path with a zero byte names no place -/
  | zeroInPath
deriving DecidableEq, Repr

namespace DiskError

def message : DiskError → String
  | .notFound => "No such file or directory (os error 2)"
  | .alreadyExists => "File exists (os error 17)"
  | .notADirectory => "Not a directory (os error 20)"
  | .isADirectory => "Is a directory (os error 21)"
  | .invalidArgument => "Invalid argument (os error 22)"
  | .nameTooLong => "File name too long (os error 36)"
  | .directoryNotEmpty => "Directory not empty (os error 39)"
  | .tooManyLinks => "Too many levels of symbolic links (os error 40)"
  | .invalidText => "stream did not contain valid UTF-8"
  | .emptyPath => "cannot make an empty path absolute"
  | .zeroInPath => "file name contained an unexpected NUL byte"

end DiskError

end DrawingDiary
