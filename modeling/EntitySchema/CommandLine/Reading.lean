import EntitySchema.CommandLine.Option
import EntitySchema.Environment

/-!
# Reading a command line

The words of a command line are read from left to right, first those in front of the command and
then those after it. A value that stands apart from its option, or without an option, is set aside
and looked at only when the next argument begins: so of two faults in a line, the one that is
reported need not be the one further left. `CommandLine.read` reads a whole line.
-/

namespace EntitySchema.CommandLine

/-! ## One level -/

/-- What has been read at one level: the arguments with their values, and the one that may still
get values, with those that it has. -/
structure Intake where
  given : List (Arg × List String)
  pending : Option (Arg × List String)
  deriving DecidableEq, Repr

namespace Intake

/-- Nothing has been read. -/
def start : Intake := ⟨[], none⟩

/-- Whether the argument is there. -/
def has (s : Intake) (a : Arg) : Bool := s.given.any (·.1 == a)

/-- All values of the argument. -/
def values (s : Intake) (a : Arg) : List String :=
  (s.given.filter (·.1 == a)).flatMap Prod.snd

/-- The value of an argument that has one at most. -/
def value? (s : Intake) (a : Arg) : Option String := (s.values a).head?

/-- Takes an argument with its values. What is wrong with it is looked for in this order: it has no
value, it is a wish for help, it is there already, a value is none. -/
def accept (s : Intake) (a : Arg) (values : List String) : Except Usage Intake :=
  if a.takesValue && values.isEmpty then .error .badValue
  else if a = .help then .error .helpWanted
  else if a = .version then .error .versionWanted
  else if s.has a && !a.mayRepeat then .error .conflict
  else if values.all a.accepts then .ok { s with given := s.given ++ [(a, values)] }
  else .error .badValue

/-- Takes the argument that was set aside. -/
def settle (s : Intake) : Except Usage Intake :=
  match s.pending with
  | none => .ok s
  | some (a, values) => accept { s with pending := none } a values

/-- Takes an argument right away, after the one that was set aside. -/
def take (s : Intake) (a : Arg) (values : List String) : Except Usage Intake := do
  (← s.settle).accept a values

/-- Sets an argument aside that may get values, after taking the one that was set aside before. -/
def await (s : Intake) (a : Arg) : Except Usage Intake := do
  return { ← s.settle with pending := some (a, []) }

/-- The option that was set aside and has no value yet. -/
def awaiting? (s : Intake) : Option Arg :=
  match s.pending with
  | some (a, []) => some a
  | _ => none

/-- Whether a positional argument is there that takes only one value. -/
def isFull (s : Intake) (a : Arg) : Bool :=
  !a.mayRepeat && (s.has a || s.pending.any (·.1 == a))

end Intake

/-! ## Words -/

/-- What a word looks like. -/
inductive Word
  /-- Two hyphens, after which no word is an option. -/
  | rest
  /-- An option by its name, and the value that is written with it. -/
  | long (name : String) (value : Option String)
  /-- Options by their letters. -/
  | short (letters : List Char)
  /-- Any other word; a single hyphen is one. -/
  | other
  deriving DecidableEq, Repr

/-- What the word looks like. -/
def Word.ofString (w : String) : Word :=
  match w.toList with
  | ['-', '-'] => rest
  | '-' :: '-' :: cs =>
    let name := String.ofList (cs.takeWhile (· != '='))
    match cs.dropWhile (· != '=') with
    | _ :: value => long name (some (String.ofList value))
    | [] => long name none
  | '-' :: c :: cs => short (c :: cs)
  | _ => other

/-- Takes an option that was named in full. -/
def readLong (l : Level) (s : Intake) (name : String) (value : Option String) :
    Except Usage Intake :=
  match l.long? name, value with
  | none, _ => .error .unknownArgument
  | some a, some value => if a.takesValue then s.take a [value] else .error .surplusValue
  | some a, none => if a.takesValue then s.await a else s.take a []

/-- Takes options that were given by their letters. All that follows the letter of an option with a
value is its value, without an equals sign in front. -/
def readShort (l : Level) (s : Intake) : List Char → Except Usage Intake
  | [] => .ok s
  | c :: cs =>
    match l.short? c with
    | none => .error .unknownArgument
    | some a =>
      if a.takesValue then
        match cs with
        | [] => s.await a
        | '=' :: value => s.take a [String.ofList value]
        | value => s.take a [String.ofList value]
      else do readShort l (← s.take a []) cs

/-- Takes a word that is no option. In front of the command there is no place for one, and after it
only as long as its argument is not full. -/
def readValue (l : Level) (afterRest : Bool) (s : Intake) (w : String) : Except Usage Intake :=
  match l.positional? with
  | none =>
    if afterRest && (w == "help" || (Verb.ofName? w).isSome) then .error .unknownArgument
    else .error .unknownCommand
  | some a =>
    if s.isFull a then .error .unknownArgument
    else
      match s.pending with
      | some (b, values) =>
        if b = a then .ok { s with pending := some (a, values ++ [w]) }
        else do return { ← s.settle with pending := some (a, [w]) }
      | none => .ok { s with pending := some (a, [w]) }

/-- Takes one word that is not the name of a command. -/
def readWord (l : Level) (s : Intake) (w : String) : Except Usage Intake :=
  match Word.ofString w with
  | .long name value => readLong l s name value
  | .short letters => readShort l s letters
  | _ =>
    match s.awaiting? with
    | some a => .ok { s with pending := some (a, [w]) }
    | none => readValue l false s w

/-- Takes words of which none is an option. -/
def readRest (l : Level) (s : Intake) : List String → Except Usage Intake
  | [] => .ok s
  | w :: ws => do readRest l (← readValue l true s w) ws

/-! ## A level after its last word -/

/-- Whether a variable can stand for an option that takes these texts. A path that is no text can
not be empty, and that is all an option asks of a path. -/
def acceptsVariable (accepts : String → Bool) : Variable → Bool
  | .text value => accepts value
  | .raw _ => true

/-- Looks at what the environment gives for an option, which counts only if the option is not
there. -/
def checkEnvironment {α : Type} (s : Intake) (a : Arg) (value : Option α) (accepts : α → Bool) :
    Except Usage Unit :=
  match value with
  | some value => if s.has a || accepts value then .ok () else .error .badValue
  | none => .ok ()

/-- Takes what was set aside, and looks at what the environment gives. -/
def complete (env : Environment) (s : Intake) : Except Usage Intake := do
  let s ← s.settle
  checkEnvironment s .config env.settingsFile (acceptsVariable Arg.config.accepts)
  checkEnvironment s .noColor env.noColor fun value => value == "true" || value == "false"
  return s

/-- Checks what was read as a whole: quiet and verbose exclude each other, and an argument may
have to be there. -/
def check (l : Level) (s : Intake) : Except Usage Unit :=
  if s.has .quiet && s.has .verbose then .error .conflict
  else if l.required?.any fun a => !s.has a then .error .missingArgument
  else .ok ()

/-- What is wrong with a line that names no command. -/
def withoutCommand (env : Environment) (s : Intake) : Usage :=
  if s.given.isEmpty && env.settingsFile.isNone && env.noColor.isNone then .nothingAsked
  else .noCommand

/-- What is wrong with a line that asks for help on a command: at best, that help is all it asks
for. -/
def helpOn : List String → Usage
  | [] => .helpWanted
  | [w] => if w == "help" || (Verb.ofName? w).isSome then .helpWanted else .unknownCommand
  | _ => .unknownCommand

/-! ## The whole line -/

/-- Reads the words after a command. -/
def readAfter (verb : Verb) (s : Intake) : List String → Except Usage Intake
  | [] => .ok s
  | w :: ws =>
    if Word.ofString w = .rest then readRest (.after verb) s ws
    else do readAfter verb (← readWord (.after verb) s w) ws

/-- The arguments after a command, read and checked. -/
def readCommand (env : Environment) (verb : Verb) (ws : List String) : Except Usage Intake := do
  let s ← complete env (← readAfter verb .start ws)
  check (.after verb) s
  return s

/-- Reads the words in front of a command, and then the command. Its words are read and checked
before anything that was set aside in front of it. -/
def readFront (env : Environment) (s : Intake) :
    List String → Except Usage (Intake × Verb × Intake)
  | [] => do
    let s ← complete env s
    .error (withoutCommand env s)
  | w :: ws =>
    match if s.awaiting?.isSome then none else Verb.ofName? w with
    | some verb => do
      let own ← readCommand env verb ws
      let s ← complete env s
      check .front s
      return (s, verb, own)
    | none =>
      if w == "help" && s.awaiting?.isNone then .error (helpOn ws)
      else if Word.ofString w = .rest then do
        let s ← complete env (← readRest .front s ws)
        .error (withoutCommand env s)
      else do readFront env (← readWord .front s w) ws

/-- The command with the arguments that were read after it. -/
def commandOf (verb : Verb) (own : Intake) : Command :=
  let schemas : SchemaArgs := ⟨(own.values .paths).map Path.mk, own.has .strict⟩
  match verb with
  | .init => .init ((own.value? .name).getD "") (own.has .force)
  | .parse => .parse schemas (own.has .print)
  | .generate =>
    .generate schemas ((own.value? .output).map Path.mk) (own.value? .package)
      (own.has .keepGoing)
  | .completions => .completions ((own.value? .shell).getD "")

/-- Reads a command line without the name of the program. What stands after the command goes
before what stands in front of it, and both before the environment. -/
def read (env : Environment) (ws : List String) : Except Usage Invocation := do
  let (front, verb, own) ← readFront env .start ws
  let config := own.value? .config <|> front.value? .config
  let format := own.value? .format <|> front.value? .format
  return {
    command := commandOf verb own
    settingsFile := config.map Path.mk <|> env.settingsFile.map Variable.path
    format := (format.bind Format.ofName?).getD .human
    quiet := own.has .quiet || front.has .quiet
  }

end EntitySchema.CommandLine
