import EntitySchema.Command
import EntitySchema.Failure
import EntitySchema.Json.Printer

/-!
# Output of a command

What a command writes to its two streams. Messages for people go to the error stream, so that the
output stream holds results only; a quiet command leaves out all messages but errors. The lines of
the log, which the program writes to the error stream as well, are left out here: a command warns
there of each entity that it fails to generate, and says more the more verbose it is asked to be.
-/

namespace EntitySchema

/-- What is written to the two streams. -/
structure Output where
  stdout : String := ""
  stderr : String := ""
  deriving DecidableEq, Repr

namespace Output

instance : Append Output := ⟨fun a b => ⟨a.stdout ++ b.stdout, a.stderr ++ b.stderr⟩⟩

@[simp] theorem stdout_append (a b : Output) : (a ++ b).stdout = a.stdout ++ b.stdout := rfl

@[simp] theorem stderr_append (a b : Output) : (a ++ b).stderr = a.stderr ++ b.stderr := rfl

/-- Nothing is written. -/
def none : Output := {}

/-- A text on the output stream. -/
def out (text : String) : Output := { stdout := text }

/-- A text on the error stream. -/
def err (text : String) : Output := { stderr := text }

/-- One output after another. -/
def concat (outputs : List Output) : Output := outputs.foldr (· ++ ·) none

@[simp] theorem concat_nil : concat [] = none := rfl

@[simp] theorem concat_cons (o : Output) (os : List Output) :
    concat (o :: os) = o ++ concat os := rfl

end Output

/-- How a command speaks. -/
structure Console where
  format : Format
  quiet : Bool
  deriving DecidableEq, Repr

namespace Console

/-- A line for people, unless the command is quiet. -/
def say (c : Console) (line : String) : Output :=
  if c.quiet || c.format ≠ .human then .none else .err (line ++ "\n")

/-- Tells of a success. -/
def success (c : Console) (message : String) : Output := c.say ("ok " ++ message)

/-- Tells of something that may be wrong. -/
def warning (c : Console) (message : String) : Output := c.say ("warning: " ++ message)

/-- A JSON value on the output stream. -/
def json (j : Json) : Output := .out (j.pretty ++ "\n")

/-- A line of fields on the output stream. -/
def fields (texts : List String) : String := "\t".intercalate texts ++ "\n"

/-- Tells why a command fails. -/
def failure (c : Console) (f : Failure) : Output :=
  match c.format with
  | .human => .err ("error: " ++ f.message ++ "\n")
  | .json => .err (f.toJson.compact ++ "\n")
  | .plain => .err (fields ["error", f.message])

/-- Tells of the findings in a file. In JSON they are part of the results. A quiet command speaks
of them only if it is strict. -/
def findings (c : Console) (strict : Bool) (file : Path) (fs : List Finding) : Output :=
  if c.quiet && !strict then .none
  else
    match c.format with
    | .human => .err (String.join (fs.map fun f => (Diagnostic.ofFinding file.text strict f).text))
    | .json => .none
    | .plain =>
      let level := (Severity.ofStrict strict).word
      .err (String.join (fs.map fun f => fields [file.text, level, f.message]))

end Console

end EntitySchema
