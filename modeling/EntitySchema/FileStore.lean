import EntitySchema.Memory
import EntitySchema.Path

/-!
# File stores

What this library asks of a file system: to say what stands at a path, to read and list, to make
one directory, and to write one file. A file is written in steps, each of which can be refused, so a
file that was emptied may be left without its content. Every function that touches files is written
against `FileStore`, so that it runs on real files and on the model in `EntitySchema.Disk` alike.
-/

namespace EntitySchema

/-- Why a file system refuses a request. -/
inductive FileFault
  | notFound
  | alreadyExists
  | notDirectory
  | isDirectory
  | nameTooLong
  | nulInName
  | notUtf8
  /-- Any other refusal, in the words of the system. -/
  | other (text : String)
  deriving DecidableEq, Repr

namespace FileFault

/-- The fault in the usual words of the system. -/
def message : FileFault → String
  | notFound => "No such file or directory (os error 2)"
  | alreadyExists => "File exists (os error 17)"
  | notDirectory => "Not a directory (os error 20)"
  | isDirectory => "Is a directory (os error 21)"
  | nameTooLong => "File name too long (os error 36)"
  | nulInName => "file name contained an unexpected NUL byte"
  | notUtf8 => "stream did not contain valid UTF-8"
  | other text => text

end FileFault

/-- What can stand at a path. -/
inductive FileKind
  | file
  | directory
  deriving DecidableEq, Repr

/-- A file system with actions in `m`. -/
class FileStore (m : Type → Type) extends Memory m where
  /-- What stands at the path, if anything does. -/
  kind? : Path → m (Option FileKind)
  /-- The content of the file at the path. -/
  read : Path → m (Except FileFault ByteArray)
  /-- The names in the directory at the path. -/
  list : Path → m (Except FileFault (List String))
  /-- Makes the directory at the path, in a directory that exists. -/
  makeDir : Path → m (Except FileFault Unit)
  /-- Opens the file at the path for writing. It holds nothing then, and is made if it is not
  there. -/
  create : Path → m (Except FileFault Unit)
  /-- Adds the content to the file that was opened at the path. If this is refused, a part of the
  content may have been added. -/
  append : Path → ByteArray → m (Except FileFault Unit)
  /-- Hands on what has been added to the file that was opened at the path. -/
  flush : Path → m (Except FileFault Unit)

namespace FileStore

variable {m : Type → Type} [Monad m] [FileStore m]

/-- Whether anything stands at the path. -/
def exists? (p : Path) : m Bool := do return (← kind? p).isSome

/-- Whether a directory stands at the path. -/
def isDir (p : Path) : m Bool := do return (← kind? p) = some .directory

/-- The text of the file at the path, which has to be UTF-8. -/
def readText (p : Path) : m (Except FileFault String) := do
  match ← read p with
  | .error fault => return .error fault
  | .ok content =>
    match String.fromUTF8? content with
    | some text => return .ok text
    | none => return .error .notUtf8

/-- Writes the file at the path, in place of what it held before. -/
def write (p : Path) (content : ByteArray) : m (Except FileFault Unit) := do
  match ← create p with
  | .error fault => return .error fault
  | .ok () => append p content

/-- Writes the file at the path, and hands it on. -/
def save (p : Path) (content : ByteArray) : m (Except FileFault Unit) := do
  match ← write p content with
  | .error fault => return .error fault
  | .ok () => flush p

/-- Writes a text as the file at the path. -/
def writeText (p : Path) (text : String) : m (Except FileFault Unit) := write p text.toUTF8

/-- Writes a text as the file at the path, and hands it on. -/
def saveText (p : Path) (text : String) : m (Except FileFault Unit) := save p text.toUTF8

/-- Makes the first directory of the list, and those after it before it where they are missing.
A directory that is there already is as good as one just made. -/
def makeDirsFrom : List Path → m (Except FileFault Unit)
  | [] => return .ok ()
  | p :: above => do
    match ← makeDir p with
    | .ok () => return .ok ()
    | .error .notFound =>
      match ← makeDirsFrom above with
      | .error fault => return .error fault
      | .ok () => settle p (← makeDir p)
    | .error fault => settle p (.error fault)
where
  /-- What an attempt to make the directory comes to. -/
  settle (p : Path) : Except FileFault Unit → m (Except FileFault Unit)
    | .ok () => return .ok ()
    | .error fault => do if ← isDir p then return .ok () else return .error fault

/-- Makes the directory at the path and every missing one above it. The empty path asks for
nothing. -/
def makeDirs (p : Path) : m (Except FileFault Unit) := makeDirsFrom p.ancestors

end FileStore

end EntitySchema
