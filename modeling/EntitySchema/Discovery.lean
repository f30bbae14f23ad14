import EntitySchema.Failure
import EntitySchema.Glob.Search

/-!
# Finding schema files

A command is given files and directories. A file is taken as it is, and a directory stands for all
files below it whose names end in `.dsl`. The files come in the order of their paths, each path
once.
-/

namespace EntitySchema

namespace Discovery

/-- The pattern for the schema files below a directory. The directory's own name counts as a
pattern too. -/
def patternBelow (dir : Path) : Path := (dir.join "**").join "*.dsl"

/-- The paths without those that pass through the same components as the one before them. -/
def dropRepeats (last : Option Path) : List Path → List Path
  | [] => []
  | p :: ps =>
    if last.any p.sameComponents then dropRepeats last ps else p :: dropRepeats (some p) ps

/-- The paths in order, each once; of several spellings of one path the first is kept. -/
def inOrder (paths : List Path) : List Path := dropRepeats none (paths.mergeSort Path.le)

variable {m : Type → Type} [Monad m] [FileStore m]

/-- The schema files that one path stands for. -/
def filesAt (path : Path) : m (Except Failure (List Path)) := do
  match ← FileStore.kind? path with
  | some .file => return .ok [path]
  | some .directory =>
    match ← Glob.search (patternBelow path) with
    | .ok files => return .ok files
    | .error fault => return .error (.other fault.message)
  | none => return .error (.noSchemaFiles path)

/-- The schema files that the paths stand for, one path after another. -/
def filesAtAll : List Path → m (Except Failure (List Path))
  | [] => return .ok []
  | path :: paths => do
    match ← filesAt path with
    | .error failure => return .error failure
    | .ok files =>
      match ← filesAtAll paths with
      | .error failure => return .error failure
      | .ok more => return .ok (files ++ more)

end Discovery

/-- The schema files that the paths stand for, in order and each once. -/
def discover {m : Type → Type} [Monad m] [FileStore m] (paths : List Path) :
    m (Except Failure (List Path)) := do
  match ← Discovery.filesAtAll paths with
  | .error failure => return .error failure
  | .ok [] => return .error (.noSchemaFiles (paths.head?.getD ⟨"schemas/"⟩))
  | .ok files => return .ok (Discovery.inOrder files)

end EntitySchema
