import EntitySchema.Console
import EntitySchema.FileStore

/-!
# New projects

A new project is a directory with a settings file, which states the defaults, and an example
schema.
-/

namespace EntitySchema

namespace Project

/-- The example schema. -/
def exampleSchema : String :=
  "# Example schema. Each entity becomes one Java class.\n"
    ++ "# Types: long, string, integer, datetime, boolean (anything else maps to Object).\n"
    ++ "\n"
    ++ "entity User \x7b\n"
    ++ "    id: long @Id\n"
    ++ "    username: string @NotNull\n"
    ++ "    email: string @Email\n"
    ++ "    age: integer\n"
    ++ "    active: boolean\n"
    ++ "    createdAt: datetime\n"
    ++ "\x7d\n"

/-- The settings file. -/
def settingsText : String :=
  "[generator]\n"
    ++ "package = \"com.example.generated\"\n"
    ++ "extension = \"java\"\n"
    ++ "indent = 4\n"
    ++ "output_dir = \"generated/\"\n"
    ++ "\n"
    ++ "[cli]\n"
    ++ "default_schema_dir = \"schemas/\"\n"

variable {m : Type → Type} [Monad m] [FileStore m]

/-- Writes one file of the project. -/
def writeFile (path : Path) (text : String) : m (Except Failure Unit) := do
  match ← FileStore.writeText path text with
  | .ok () => return .ok ()
  | .error fault => return .error (.file path fault)

/-- Makes the directories and files of a project. -/
def make (dir : Path) : m (Except Failure Unit) := do
  match ← FileStore.makeDirs (dir.join "schemas") with
  | .error fault => return .error (.file (dir.join "schemas") fault)
  | .ok () =>
    match ← writeFile (dir.join "schemas/example.dsl") exampleSchema with
    | .error failure => return .error failure
    | .ok () => writeFile (dir.join "config.toml") settingsText

/-- What a person may do next with a new project. -/
def welcome (name : String) : String :=
  "\n"
    ++ "  " ++ name ++ "/\n"
    ++ "    config.toml\n"
    ++ "    schemas/\n"
    ++ "      example.dsl\n"
    ++ "\n"
    ++ "Next steps:\n"
    ++ "  cd " ++ name ++ "\n"
    ++ "  entity-forge parse            Check schemas\n"
    ++ "  entity-forge generate         Write Java classes to generated/\n"

/-- Tells of a new project. -/
def report (c : Console) (name : String) : Output :=
  match c.format with
  | .human =>
    c.success ("Created project '" ++ name ++ "'.")
      ++ (if c.quiet then .none else .out (welcome name))
  | .json =>
    Console.json (.obj [("files", .arr [.str "config.toml", .str "schemas/example.dsl"]),
      ("path", .str name), ("project", .str name)])
  | .plain => .out (Console.fields [name, name])

/-- Makes a new project. What is there already is written over only by force. -/
def init (c : Console) (name : String) (force : Bool) : m (Output × Except Failure Unit) := do
  let dir : Path := ⟨name⟩
  if (← FileStore.exists? dir) && !force then return (.none, .error (.directoryExists dir))
  else
    match ← make dir with
    | .error failure => return (.none, .error failure)
    | .ok () => return (report c name, .ok ())

end Project

end EntitySchema
