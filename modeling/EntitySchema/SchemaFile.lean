import EntitySchema.Discovery
import EntitySchema.Json.Codec
import EntitySchema.Reading

/-!
# Schema files

A schema file that has been read, and when a strict command takes a list of them.
-/

namespace EntitySchema

/-- A schema file, read. -/
structure SchemaFile where
  path : Path
  schema : Schema
  deriving DecidableEq, Repr

namespace SchemaFile

/-- The entities of the file. -/
def entities (f : SchemaFile) : List Entity := f.schema.entities

/-- What the reader tolerated in the file. -/
def findings (f : SchemaFile) : List Finding := f.schema.findings

/-- The findings as an array. -/
def findingsJson (f : SchemaFile) : Json :=
  .arr (f.findings.map fun g =>
    .obj [("end", .nat g.span.stop), ("message", .str g.message), ("start", .nat g.span.start)])

variable {m : Type → Type} [Monad m] [FileStore m]

/-- Reads the file at the path. -/
def load (path : Path) : m (Except Failure SchemaFile) := do
  match ← FileStore.readText path with
  | .ok text => return .ok ⟨path, read text⟩
  | .error fault => return .error (.file path fault)

/-- Reads the files at the paths, up to the first that can not be read. -/
def loadAll : List Path → m (Except Failure (List SchemaFile))
  | [] => return .ok []
  | path :: paths => do
    match ← load path with
    | .error failure => return .error failure
    | .ok file =>
      match ← loadAll paths with
      | .error failure => return .error failure
      | .ok files => return .ok (file :: files)

/-- Reads all schema files that the paths stand for. -/
def loadFrom (paths : List Path) : m (Except Failure (List SchemaFile)) := do
  match ← discover paths with
  | .error failure => return .error failure
  | .ok files => loadAll files

end SchemaFile

/-- All entities of the files, file by file. -/
def allEntities (files : List SchemaFile) : List Entity := files.flatMap SchemaFile.entities

/-- How many findings the files have together. -/
def countFindings (files : List SchemaFile) : Nat :=
  files.foldr (fun f n => f.findings.length + n) 0

/-- Whether a strict command takes the files: none may have findings, and the entities of all of
them have to go side by side. -/
def enforceStrict (files : List SchemaFile) : Except Failure Unit :=
  match files.filter fun f => !f.findings.isEmpty with
  | [] => (checkSchema (allEntities files)).mapError .invalidSchema
  | [file] => .error (.findings file.path file.findings)
  | _ => .error (.strictFindings (countFindings files))

end EntitySchema
