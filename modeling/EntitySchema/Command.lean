import EntitySchema.Path

/-!
# Commands

What a run of the program is asked to do, and how it is to speak.
-/

namespace EntitySchema

/-- The form of all output. -/
inductive Format
  /-- Prose for people. -/
  | human
  | json
  /-- Fields between tabs. -/
  | plain
  deriving DecidableEq, Repr

namespace Format

/-- The format with this name. -/
def ofName? : String → Option Format
  | "human" => some human
  | "json" => some json
  | "plain" => some plain
  | _ => none

end Format

/-- Which files a command reads, and how strict it is about them. -/
structure SchemaArgs where
  /-- Files and directories; none stand for the schema directory of the settings. -/
  paths : List Path := []
  /-- Whether findings are errors. -/
  strict : Bool := false
  deriving DecidableEq, Repr

/-- A command with its own arguments. -/
inductive Command
  /-- Makes a project directory, over an existing one only by force. -/
  | init (name : String) (force : Bool)
  /-- Checks schema files, and perhaps prints their entities. -/
  | parse (schemas : SchemaArgs) (print : Bool)
  /-- Generates a class for each entity. -/
  | generate (schemas : SchemaArgs) (output : Option Path) (package : Option String)
      (keepGoing : Bool)
  /-- Writes the completions for a shell. -/
  | completions (shell : String)
  deriving DecidableEq, Repr

/-- A whole command line: the command, and what holds for every command. -/
structure Invocation where
  command : Command
  /-- The settings file, if one is named. -/
  settingsFile : Option Path := none
  format : Format := .human
  /-- Whether only errors are worth a word. -/
  quiet : Bool := false
  deriving DecidableEq, Repr

end EntitySchema
