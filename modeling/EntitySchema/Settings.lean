import EntitySchema.Environment
import EntitySchema.Failure
import EntitySchema.Toml.Parser

/-!
# Settings

What a project sets once for all runs: where schemas are, where generated files go, and the
options of the generated classes. Settings come from the first of several files that is there;
what the file leaves out has its default.
-/

namespace EntitySchema

/-- The settings of a project. -/
structure Settings where
  /-- The directory for generated files. -/
  outputDir : String := "generated/"
  /-- The options of the generated classes. -/
  options : Java.Options := {}
  /-- The directory that is searched when a command names no schemas. -/
  schemaDir : String := "schemas/"
  deriving DecidableEq, Repr

namespace Settings

/-! ## Settings in a TOML document -/

/-- The members that a value has as a table. A date or time is a table of its own kind, without
any member that has a meaning here. -/
def members? : Toml → Option (List (String × Toml))
  | .table members => some members
  | .moment _ => some []
  | _ => none

/-- The text under a key, or the default where there is none. -/
def textAt? (key default : String) (members : List (String × Toml)) : Option String :=
  match members.lookup key with
  | none => some default
  | some (.str s) => some s
  | some _ => none

/-- The number under a key, or the default where there is none. It has to fit 64 bits without a
sign. -/
def numberAt? (key : String) (default : UInt64) (members : List (String × Toml)) : Option UInt64 :=
  match members.lookup key with
  | none => some default
  | some (.int (.ofNat n)) => if n < UInt64.size then some (.ofNat n) else none
  | some _ => none

/-- These settings with those of a `generator` table. -/
def withGenerator? (s : Settings) (table : Toml) : Option Settings := do
  let members ← members? table
  let outputDir ← textAt? "output_dir" s.outputDir members
  let package ← textAt? "package" s.options.package members
  let extension ← textAt? "extension" s.options.extension members
  let indent ← numberAt? "indent" s.options.indent members
  some { s with outputDir := outputDir, options := ⟨package, extension, indent⟩ }

/-- These settings with those of a `cli` table, which may also be given as an array that starts
with the one setting. -/
def withSchemaDir? (s : Settings) : Toml → Option Settings
  | .arr [] => some s
  | .arr (.str dir :: _) => some { s with schemaDir := dir }
  | table => do
    let schemaDir ← textAt? "default_schema_dir" s.schemaDir (← members? table)
    some { s with schemaDir := schemaDir }

/-- The settings in the root table of a document. -/
def ofToml? (members : List (String × Toml)) : Option Settings := do
  let s : Settings := {}
  let s ←
    match members.lookup "generator" with
    | some table => s.withGenerator? table
    | none => some s
  match members.lookup "cli" with
  | some table => s.withSchemaDir? table
  | none => some s

/-- The settings in a TOML text. -/
def parse? (text : String) : Option Settings := do ofToml? (← Toml.parse? text)

/-! ## What a command adds -/

/-- The paths that a command works on: those that it names, or else the schema directory. -/
def schemaPaths (s : Settings) (paths : List Path) : List Path :=
  if paths.isEmpty then [⟨s.schemaDir⟩] else paths

/-- The generator for a command that may name another directory and another package. -/
def generator (s : Settings) (output : Option Path) (package : Option String) : Generator where
  outputDir := output.getD ⟨s.outputDir⟩
  options := { s.options with package := package.getD s.options.package }

end Settings

/-! ## Finding the file -/

namespace Settings

variable {m : Type → Type} [Monad m] [FileStore m]

/-- The settings in the file at the path. -/
def loadFile (path : Path) : m (Except Failure Settings) := do
  match ← FileStore.readText path with
  | .error fault => return .error (.file path fault)
  | .ok text =>
    match parse? text with
    | some settings => return .ok settings
    | none => return .error (.settings path)

/-- The settings in the first of the files that is there; the defaults if none is. -/
def loadFirst : List Path → m (Except Failure Settings)
  | [] => return .ok {}
  | path :: paths => do if ← FileStore.exists? path then loadFile path else loadFirst paths

/-- The settings of a command: from the file that it names, or else from the first file that is
there. -/
def load (env : Environment) : Option Path → m (Except Failure Settings)
  | some path => loadFile path
  | none => loadFirst env.settingsFiles

end Settings

end EntitySchema
