/-!
What is asked of a file system.

The library reads files through a `Files` record over any monad, so the same definitions run on the
disk and on a tree of files held in memory.
-/
namespace ZoomConfig

/-- Why a file cannot be read. -/
inductive FileError where
  | notFound
  | notDirectory
  | isDirectory
  | tooManyLinks
  | nameTooLong
  | denied
  | nulInPath
  | notText
  | other (message : String)
  deriving DecidableEq, Repr

/-- What is wrong, in the words of the system. -/
def FileError.message : FileError → String
  | .notFound => "No such file or directory (os error 2)"
  | .notDirectory => "Not a directory (os error 20)"
  | .isDirectory => "Is a directory (os error 21)"
  | .tooManyLinks => "Too many levels of symbolic links (os error 40)"
  | .nameTooLong => "File name too long (os error 36)"
  | .denied => "Permission denied (os error 13)"
  | .nulInPath => "file name contained an unexpected NUL byte"
  | .notText => "stream did not contain valid UTF-8"
  | .other message => message

/-- Access to files. -/
structure Files (m : Type → Type) where
  /-- Does a path lead to a file, and not to a directory or nowhere? -/
  isFile : String → m Bool
  /-- The text of a file. -/
  readText : String → m (Except FileError String)
  /-- The absolute path of what a path leads to, without links. -/
  realPath : String → m (Except FileError String)

end ZoomConfig
