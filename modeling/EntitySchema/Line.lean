import EntitySchema.Span
import EntitySchema.Text.Blank
import EntitySchema.Text.Size

/-!
# Lines of a schema text

A schema is read line by line. `rawLines` cuts a text at its line ends, `lines` trims each line
and notes where it stands, and `classify` says what a trimmed line is: nothing, a comment, the
header of an entity, a closing brace, a field, or something else.
-/

namespace EntitySchema

/-! ## Cutting a text into lines -/

/-- What ends a line: a line feed, a carriage return, the two together, or the end of the text. -/
inductive LineEnd
  | lf
  | cr
  | crlf
  | none
  deriving DecidableEq, Repr

namespace LineEnd

/-- How many bytes the line end takes. -/
def byteSize : LineEnd → Nat
  | lf => 1
  | cr => 1
  | crlf => 2
  | none => 0

/-- The characters of the line end. -/
def chars : LineEnd → List Char
  | lf => ['\n']
  | cr => ['\r']
  | crlf => ['\r', '\n']
  | none => []

theorem byteSize_chars (e : LineEnd) : Text.byteSize e.chars = e.byteSize := by
  cases e <;> decide

end LineEnd

/-- A line as it stands in the text, and what ends it. -/
structure RawLine where
  body : List Char
  ending : LineEnd
  deriving DecidableEq, Repr

namespace RawLine

/-- How many bytes the line takes with its end. -/
def byteSize (l : RawLine) : Nat := Text.byteSize l.body + l.ending.byteSize

/-- The characters of the line with its end. -/
def chars (l : RawLine) : List Char := l.body ++ l.ending.chars

/-- The lines of a text that starts with `c`, from those of the rest. A carriage return takes a
line feed that follows it into its own line end. -/
def prepend (c : Char) (ls : List RawLine) : List RawLine :=
  if c = '\n' then ⟨[], .lf⟩ :: ls
  else if c = '\r' then
    match ls with
    | ⟨[], .lf⟩ :: rest => ⟨[], .crlf⟩ :: rest
    | _ => ⟨[], .cr⟩ :: ls
  else
    match ls with
    | [] => [⟨[c], .none⟩]
    | l :: rest => ⟨c :: l.body, l.ending⟩ :: rest

end RawLine

/-- The lines of a text. Nothing follows a final line end, so no text has an empty last line
without a line end. -/
def rawLines (text : List Char) : List RawLine := text.foldr RawLine.prepend []

@[simp] theorem rawLines_nil : rawLines [] = [] := rfl

@[simp] theorem rawLines_cons (c : Char) (text : List Char) :
    rawLines (c :: text) = RawLine.prepend c (rawLines text) := rfl

/-- A character put in front of some lines is put in front of their text. -/
theorem RawLine.flatMap_chars_prepend (c : Char) (ls : List RawLine) :
    (RawLine.prepend c ls).flatMap RawLine.chars = c :: ls.flatMap RawLine.chars := by
  unfold RawLine.prepend
  split
  · next h => simp [RawLine.chars, LineEnd.chars, h]
  · split
    · next h =>
      split
      · simp [RawLine.chars, LineEnd.chars, h]
      · simp [RawLine.chars, LineEnd.chars, h]
    · split
      · simp [RawLine.chars, LineEnd.chars]
      · simp [RawLine.chars]

/-- Cutting a text into lines loses nothing. -/
theorem flatMap_chars_rawLines (text : List Char) :
    (rawLines text).flatMap RawLine.chars = text := by
  induction text with
  | nil => rfl
  | cons c text ih => rw [rawLines_cons, RawLine.flatMap_chars_prepend, ih]

/-- A trimmed line and where it stands in the source. -/
structure SourceLine where
  text : List Char
  span : Span
  deriving DecidableEq, Repr

namespace SourceLine

/-- The trimmed form of a line whose first byte is at `offset`. -/
def ofRaw (offset : Nat) (body : List Char) : SourceLine :=
  let start := offset + (Text.byteSize body - Text.byteSize (Text.trimStart body))
  let text := Text.trim body
  ⟨text, ⟨start, start + Text.byteSize text⟩⟩

end SourceLine

/-- The trimmed lines of consecutive raw lines, the first of which starts at `offset`. -/
def placeLines (offset : Nat) : List RawLine → List SourceLine
  | [] => []
  | l :: ls => SourceLine.ofRaw offset l.body :: placeLines (offset + l.byteSize) ls

/-- The trimmed lines of a piece of source text that starts at byte `offset`. -/
def linesAt (offset : Nat) (text : List Char) : List SourceLine :=
  placeLines offset (rawLines text)

/-- The trimmed lines of a source text. -/
def lines (text : List Char) : List SourceLine := linesAt 0 text

/-! ## What a line is -/

/-- The pieces of a field line. The annotation names come without their `@`. -/
structure FieldLine where
  name : List Char
  typeName : List Char
  annotations : List (List Char)
  deriving DecidableEq, Repr

/-- What a trimmed line is. -/
inductive Line
  | blank
  | comment
  | header (name : List Char) (hasBrace : Bool)
  | close
  | field (field : FieldLine)
  | other
  deriving DecidableEq, Repr

namespace Line

/-- The word that opens an entity header, with the space that must follow it. -/
def keyword : List Char := "entity ".toList

/-- The text after `lead`, if it starts with it. -/
def after? (lead cs : List Char) : Option (List Char) :=
  if lead.isPrefixOf cs then some (cs.drop lead.length) else none

/-- The text without one `c` at its end, if it ends in one. -/
def withoutLast? (c : Char) (cs : List Char) : Option (List Char) :=
  if cs.getLast? = some c then some cs.dropLast else none

/-- The texts before and after the first `c`, if there is one. -/
def cutAt? (c : Char) : List Char → Option (List Char × List Char)
  | [] => none
  | x :: xs => if x = c then some ([], xs) else (cutAt? c xs).map fun (a, b) => (x :: a, b)

/-- The list without the empty texts at its end. -/
def dropTrailingEmpty (ts : List (List Char)) : List (List Char) :=
  (ts.reverse.dropWhile List.isEmpty).reverse

/-- The name that one segment after an `@` gives: the trimmed segment up to its first space. -/
def annotationName (segment : List Char) : List Char :=
  (Text.trim segment).takeWhile (· ≠ ' ')

/-- The type and the annotation names in what follows the colon of a field line. One closing
semicolon is left out. The segments between the `@` signs are the type and the annotations; empty
segments at the very end are none. -/
def splitType (rest : List Char) : List Char × List (List Char) :=
  let rest := (withoutLast? ';' rest).getD rest
  match rest.splitOn '@' with
  | [] => ([], [])
  | type :: segments => (Text.trim type, (dropTrailingEmpty segments).map annotationName)

/-- The field line with this text on the two sides of its colon. -/
def splitField (name rest : List Char) : FieldLine :=
  let (typeName, annotations) := splitType (Text.trim rest)
  ⟨Text.trim name, typeName, annotations⟩

/-- The header with this text after its keyword. -/
def splitHeader (rest : List Char) : Line :=
  match withoutLast? '{' rest with
  | some name => .header (Text.trim name) true
  | none => .header (Text.trim rest) false

/-- What a trimmed line is. The tests run in this order, so a header may contain a colon and a
line that starts with a closing brace is never a field. -/
def classify (text : List Char) : Line :=
  if text.isEmpty then .blank
  else if text.head? = some '#' then .comment
  else
    match after? keyword text with
    | some rest => splitHeader rest
    | none =>
      if text.head? = some '\x7d' then .close
      else
        match cutAt? ':' text with
        | some (name, rest) => .field (splitField name rest)
        | none => .other

end Line

end EntitySchema
