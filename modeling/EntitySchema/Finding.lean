import EntitySchema.Span

/-!
# Findings

Reading a schema never fails. Each liberty that the reader takes with a line is a finding: what
is wrong with the line, and where the line stands. `Finding.message` is its one-line wording,
`Finding.label` and `Finding.help` are what a diagnostic adds.
-/

namespace EntitySchema

/-- What is wrong with a line. -/
inductive Issue
  /-- A field line before the first entity header; it is dropped. -/
  | fieldOutsideEntity (text : String)
  /-- A line inside an entity without a colon; it is dropped. -/
  | missingSeparator (entity text : String)
  /-- A line before the first entity header that is neither a header nor a comment. -/
  | unrecognizedLine (text : String)
  /-- An entity header without its opening brace. -/
  | missingOpenBrace (name : String)
  /-- An entity header without a name. -/
  | emptyEntityName
  /-- A field without a name. -/
  | emptyFieldName (entity : String)
  /-- A field without a type. -/
  | emptyFieldType (entity field : String)
  /-- An annotation sign with nothing after it. -/
  | bareAnnotationSign (field : String)
  /-- The name of an earlier entity. -/
  | duplicateEntityName (name : String)
  /-- The name of an earlier field of the same entity. -/
  | duplicateFieldName (entity name : String)
  /-- A field after the closing brace of the entity that it is added to. -/
  | fieldAfterClose (entity field : String)
  deriving DecidableEq, Repr

/-- One issue and the span of the line that has it. -/
structure Finding where
  issue : Issue
  span : Span
  deriving DecidableEq, Repr

namespace Finding

/-- The finding in one line. -/
def message (f : Finding) : String :=
  let at_ := f.span.text
  match f.issue with
  | .fieldOutsideEntity text => s!"field '{text}' at {at_} is not inside an entity"
  | .missingSeparator entity text =>
    s!"line '{text}' at {at_} in entity '{entity}' has no ':' separator"
  | .unrecognizedLine text =>
    s!"unrecognized line '{text}' at {at_}: expected an entity header or a comment"
  | .missingOpenBrace name => s!"entity header '{name}' at {at_} is missing '\x7b'"
  | .emptyEntityName => s!"entity header at {at_} has no name"
  | .emptyFieldName entity => s!"field at {at_} in entity '{entity}' has no name"
  | .emptyFieldType entity field => s!"field '{entity}.{field}' at {at_} has no type"
  | .bareAnnotationSign field => s!"empty annotation on field '{field}' at {at_}"
  | .duplicateEntityName name => s!"duplicate entity name '{name}' at {at_}"
  | .duplicateFieldName entity name => s!"duplicate field name '{entity}.{name}' at {at_}"
  | .fieldAfterClose entity field =>
    s!"field '{field}' at {at_} follows the closing '\x7d' of entity '{entity}'"

/-- The few words that a diagnostic writes under the line. -/
def label (f : Finding) : String :=
  match f.issue with
  | .fieldOutsideEntity _ => "ignored"
  | .missingSeparator _ _ => "ignored: no ':'"
  | .unrecognizedLine _ => "ignored"
  | .missingOpenBrace _ => "missing '\x7b'"
  | .emptyEntityName => "no name"
  | .emptyFieldName _ => "no name before ':'"
  | .emptyFieldType _ _ => "no type after ':'"
  | .bareAnnotationSign _ => "bare '@'"
  | .duplicateEntityName _ => "already defined above"
  | .duplicateFieldName _ _ => "already defined above"
  | .fieldAfterClose _ _ => "after closing '\x7d'"

/-- What the author can do about the finding, where there is something to say. -/
def help (f : Finding) : Option String :=
  match f.issue with
  | .fieldOutsideEntity _ => some "Move the field inside an `entity Name \x7b` block."
  | .missingSeparator _ _ => some "Write fields as `name: type`."
  | .unrecognizedLine _ => some "Outside an entity only headers and `#` comments are allowed."
  | .missingOpenBrace name => some s!"Write `entity {name} \x7b`."
  | .emptyEntityName => none
  | .emptyFieldName _ => some "Generation fails for unnamed fields."
  | .emptyFieldType _ _ => some "An empty type is generated as `Object`."
  | .bareAnnotationSign _ => none
  | .duplicateEntityName _ =>
    some "Both entities write the same output file; the later one wins."
  | .duplicateFieldName _ _ => some "Remove the duplicate or rename one of the fields."
  | .fieldAfterClose entity _ => some s!"This field is still added to '{entity}'."

end Finding

/-! ## Diagnostics -/

/-- How grave a finding is: strict runs take findings for errors. -/
inductive Severity
  | warning
  | error
  deriving DecidableEq, Repr

namespace Severity

/-- The severity of a finding in a run that is strict or not. -/
def ofStrict (strict : Bool) : Severity := if strict then .error else .warning

/-- The word that opens a diagnostic. -/
def title : Severity → String
  | warning => "Warning"
  | error => "Error"

/-- The word in tab-separated output. -/
def word : Severity → String
  | warning => "warning"
  | error => "error"

end Severity

/-- A finding as it is shown to the author of a file. -/
structure Diagnostic where
  severity : Severity
  message : String
  label : String
  help : Option String
  offset : Nat
  length : Nat
  file : String
  deriving DecidableEq, Repr

namespace Diagnostic

/-- The diagnostic of a finding in a file. -/
def ofFinding (file : String) (strict : Bool) (f : Finding) : Diagnostic where
  severity := .ofStrict strict
  message := f.message
  label := f.label
  help := f.help
  offset := f.span.start
  length := f.span.length
  file := file

/-- The diagnostic in two or three lines: the message, the place with its label, and the help. -/
def text (d : Diagnostic) : String :=
  d.severity.title ++ ": " ++ d.message ++ "\n"
    ++ "  " ++ d.file ++ "@" ++ toString d.offset ++ "+" ++ toString d.length ++ ": "
    ++ d.label ++ "\n"
    ++ (match d.help with
        | some help => "  help: " ++ help ++ "\n"
        | none => "")

end Diagnostic

end EntitySchema
