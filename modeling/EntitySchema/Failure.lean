import EntitySchema.Finding
import EntitySchema.Generator
import EntitySchema.Json.Basic

/-!
# Failures of a command

Why a command fails, what it then says in one line or as JSON, and with which exit code it ends.
-/

namespace EntitySchema

/-- Why a command fails. -/
inductive Failure
  /-- The one file of a strict run that has findings. -/
  | findings (path : Path) (findings : List Finding)
  /-- A strict run with findings in several files. -/
  | strictFindings (count : Nat)
  /-- The entities of a strict run can not be generated side by side. -/
  | invalidSchema (fault : SchemaFault)
  | generation (fault : GenerationFault)
  /-- Some entities of a run that tries all of them failed. -/
  | partialGeneration (failed total : Nat)
  /-- A file or directory can not be read or written. -/
  | file (path : Path) (fault : FileFault)
  /-- A settings file holds no settings. -/
  | settings (path : Path)
  | cancelled
  | noSchemaFiles (path : Path)
  | directoryExists (path : Path)
  | other (text : String)
  deriving DecidableEq, Repr

namespace Failure

/-- A schema that could not be read, as the failure of a command. -/
def ofReadFault (f : ReadFault) : Failure :=
  match f.path with
  | some path => .file path f.fault
  | none => .other f.message

/-- What is wrong with a settings file. -/
def settingsText (path : Path) : String := "failed to parse " ++ path.text

/-- The failure in one line. -/
def message : Failure → String
  | findings path _ => "parse errors in " ++ path.text
  | strictFindings count => s!"{count} schema findings in strict mode"
  | invalidSchema fault => "invalid schema: " ++ fault.message
  | generation fault => fault.message
  | partialGeneration failed total => s!"{failed} of {total} entities failed to generate"
  | file path fault => "IO error for " ++ path.text ++ ": " ++ fault.message
  | settings path => "configuration error: " ++ settingsText path
  | cancelled => "operation cancelled"
  | noSchemaFiles path => "no schema files found in " ++ path.text
  | directoryExists path =>
    "directory '" ++ path.text ++ "' already exists (use --force to overwrite)"
  | other text => text

/-- The exit code of a command that fails: 2 when it was asked for the wrong thing, 3 when a
strict run finds fault with the schema, 4 when generation fails, and 1 for all else. -/
def exitCode : Failure → Nat
  | findings _ _ | strictFindings _ | invalidSchema _ => 3
  | generation _ | partialGeneration _ _ => 4
  | settings _ | noSchemaFiles _ => 2
  | file _ _ | cancelled | directoryExists _ | other _ => 1

/-- The failure as an object, its keys in order. -/
def toJson : Failure → Json
  | findings path fs =>
    .obj [("error", .str "parse_error"),
      ("errors", .arr (fs.map fun f => .obj [("message", .str f.message)])),
      ("file", .str path.text)]
  | invalidSchema fault =>
    .obj [("error", .str "schema_error"), ("message", .str fault.message)]
  | generation fault =>
    let path := fault.path?.map fun path => ("path", Json.str path.text)
    .obj ([("error", .str "codegen_error"), ("message", .str fault.message)] ++ path.toList)
  | partialGeneration failed total =>
    .obj [("error", .str "codegen_error"), ("failed", .nat failed),
      ("message", .str (partialGeneration failed total).message), ("total", .nat total)]
  | file path fault =>
    .obj [("error", .str "io_error"), ("message", .str fault.message), ("path", .str path.text)]
  | settings path => .obj [("error", .str "config_error"), ("message", .str (settingsText path))]
  | failure => .obj [("error", .str "error"), ("message", .str failure.message)]

/-- No failure ends with the exit code of success. -/
theorem exitCode_ne_zero (f : Failure) : f.exitCode ≠ 0 := by
  cases f <;> simp [exitCode]

end Failure

end EntitySchema
