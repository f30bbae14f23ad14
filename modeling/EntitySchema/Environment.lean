import EntitySchema.Path

/-!
# The environment of a command

What the program takes from the variables of its environment. A path may be one that is no Unicode
text, and then the variable that holds it can be taken as a path only. Just the variable for the
settings file is taken in both ways; the others are told of here as texts.
-/

namespace EntitySchema

/-- The value of a variable. -/
inductive Variable
  | text (value : String)
  /-- A value that is no Unicode text, by the path that it is. -/
  | raw (path : Path)
  deriving DecidableEq, Repr

namespace Variable

/-- The value as a text, if it is one. -/
def text? : Variable → Option String
  | text value => some value
  | raw _ => none

/-- The value as a path. -/
def path : Variable → Path
  | text value => ⟨value⟩
  | raw path => path

end Variable

/-- What the library takes from the environment of a command. -/
structure Environment where
  /-- The settings file, from `ENTITY_FORGE_CONFIG`. -/
  settingsFile : Option Variable := none
  /-- The directory of the user's configuration files, from `XDG_CONFIG_HOME`. -/
  configHome : Option String := none
  /-- The home directory of the user, from `HOME`. -/
  home : Option String := none
  /-- Whether output has no colors, from `NO_COLOR`. -/
  noColor : Option String := none
  deriving DecidableEq, Repr

namespace Environment

/-- The files that may hold the settings, the first one first. A variable that is no text counts as
one that is not set. -/
def settingsFiles (env : Environment) : List Path :=
  ((env.settingsFile.bind Variable.text?).map Path.mk).toList
    ++ [⟨"config.toml"⟩]
    ++ (env.configHome.map fun dir => (Path.mk dir).join "entity-forge/config.toml").toList
    ++ (env.home.map fun dir => (Path.mk dir).join ".config/entity-forge/config.toml").toList

end Environment

end EntitySchema
