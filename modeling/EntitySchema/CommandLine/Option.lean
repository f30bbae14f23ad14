import EntitySchema.Command

/-!
# Options of the command line

The arguments that a command line may hold: options with and without a value, and positional
arguments. The options that hold for every command are known in front of the command and after it,
all others only after their command.
-/

namespace EntitySchema.CommandLine

/-- The names of the commands. -/
inductive Verb
  | init
  | parse
  | generate
  | completions
  deriving DecidableEq, Repr

/-- The command with this name. -/
def Verb.ofName? : String → Option Verb
  | "init" => some init
  | "parse" => some parse
  | "generate" => some generate
  | "completions" => some completions
  | _ => none

/-- What a command line may hold besides the name of the command. -/
inductive Arg
  | config
  | format
  | verbose
  | quiet
  | noColor
  | help
  | version
  | force
  | yes
  | print
  | strict
  | output
  | package
  | keepGoing
  /-- The name of a project, without an option in front. -/
  | name
  /-- Files and directories, without an option in front. -/
  | paths
  /-- The name of a shell, without an option in front. -/
  | shell
  deriving DecidableEq, Repr

namespace Arg

/-- Whether the argument has a value. -/
def takesValue : Arg → Bool
  | config | format | output | package | name | paths | shell => true
  | _ => false

/-- Whether the argument may be given several times. -/
def mayRepeat : Arg → Bool
  | verbose | paths => true
  | _ => false

/-- The shells for which there are completions. -/
def shells : List String := ["bash", "zsh", "fish", "powershell", "elvish"]

/-- Whether the text is a value of the argument. -/
def accepts (a : Arg) (value : String) : Bool :=
  match a with
  | config | output | paths => !value.isEmpty
  | format => (Format.ofName? value).isSome
  | shell => shells.contains value
  | _ => true

end Arg

/-- Where an argument stands: in front of the command, or after it. -/
inductive Level
  | front
  | after (verb : Verb)
  deriving DecidableEq, Repr

namespace Level

/-- The long names of the options that are known everywhere. -/
def sharedLong : List (String × Arg) :=
  [("config", .config), ("format", .format), ("verbose", .verbose), ("quiet", .quiet),
    ("no-color", .noColor), ("help", .help), ("version", .version)]

/-- The letters of the options that are known everywhere. -/
def sharedShort : List (Char × Arg) :=
  [('c', .config), ('v', .verbose), ('q', .quiet), ('h', .help), ('V', .version)]

/-- The long names of the options that are known at this level alone. -/
def ownLong : Level → List (String × Arg)
  | front => []
  | after .init => [("force", .force), ("yes", .yes)]
  | after .parse => [("print", .print), ("strict", .strict)]
  | after .generate =>
    [("output", .output), ("package", .package), ("strict", .strict), ("keep-going", .keepGoing)]
  | after .completions => []

/-- The letters of the options that are known at this level alone. -/
def ownShort : Level → List (Char × Arg)
  | after .init => [('f', .force), ('y', .yes)]
  | after .generate => [('o', .output), ('k', .keepGoing)]
  | _ => []

/-- The option with this long name. -/
def long? (l : Level) (name : String) : Option Arg := (sharedLong ++ l.ownLong).lookup name

/-- The option with this letter. -/
def short? (l : Level) (letter : Char) : Option Arg := (sharedShort ++ l.ownShort).lookup letter

/-- The argument without an option in front. -/
def positional? : Level → Option Arg
  | front => none
  | after .init => some .name
  | after .parse => some .paths
  | after .generate => some .paths
  | after .completions => some .shell

/-- The argument that has to be there. -/
def required? : Level → Option Arg
  | after .init => some .name
  | after .completions => some .shell
  | _ => none

end Level

/-! ## Usage -/

/-- Why a command line ends a run before there is a command. -/
inductive Usage
  | helpWanted
  | versionWanted
  | nothingAsked
  | noCommand
  | unknownCommand
  | unknownArgument
  | conflict
  | badValue
  | surplusValue
  | missingArgument
  deriving DecidableEq, Repr

/-- The exit code of a run that ends for this reason: to show help or the version is no failure. -/
def Usage.exitCode : Usage → Nat
  | helpWanted | versionWanted => 0
  | _ => 2

end EntitySchema.CommandLine
