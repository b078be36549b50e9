import LedgerGateway.Bytes

/-!
# Disks

What the client asks of a disk is little: which names a directory holds, whether a path leads to a
regular file, and what a file contains (`Disk`). Each question may fail, and the disk says why
(`IoError`). A path is a text; `join` puts one behind another.
-/

namespace LedgerGateway

/-- Why a disk does not answer. -/
inductive IoError where
  | notFound
  | notDirectory
  | isDirectory
  | nameTooLong
  | tooManyLinks
  /-- The path holds a zero character. -/
  | zeroInPath
  /-- What else there may be, in the words of the system. -/
  | other (text : String)
deriving DecidableEq, Repr

def IoError.message : IoError → String
  | notFound => "No such file or directory (os error 2)"
  | notDirectory => "Not a directory (os error 20)"
  | isDirectory => "Is a directory (os error 21)"
  | nameTooLong => "File name too long (os error 36)"
  | tooManyLinks => "Too many levels of symbolic links (os error 40)"
  | zeroInPath => "file name contained an unexpected NUL byte"
  | other text => text

/-- What a disk answers. All three questions follow links. Names are texts, and a directory is listed
in full or not at all. -/
structure Disk where
  /-- The names in a directory, in any order. -/
  list : (path : String) → Except IoError (List String)
  /-- Whether a path leads to a regular file. -/
  isFile : (path : String) → Except IoError Bool
  /-- The content of a file. -/
  read : (path : String) → Except IoError Bytes

namespace Disk

/-- The path that leads from `base` along `path`. A path that begins at the root leads nowhere else,
and only one slash is set between the two. -/
def join (base path : String) : String :=
  if path.startsWith "/" then path
  else if base = "" ∨ base.endsWith "/" then base ++ path
  else base ++ "/" ++ path

end Disk

end LedgerGateway
