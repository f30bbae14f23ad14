import EntitySchema.Toml.Moment
import EntitySchema.Toml.Number
import EntitySchema.Toml.Quoted
import EntitySchema.Toml.Section

/-!
# Reading TOML

`Toml.parse?` reads a whole document as the members of its root table. Line ends may be line feeds
or carriage returns with line feeds, and a byte order mark may stand in front.
-/

namespace EntitySchema.Toml

open Text (Reader)

/-! ## Between the parts -/

/-- Skips blanks within a line. -/
def skipSpace : Reader Unit := do
  let _ ← Reader.span Quoted.isSpace

/-- A comment up to the end of its line. -/
def comment : Reader Unit := do
  Reader.literal ['#']
  let _ ← Reader.span Quoted.isText

/-- Skips blanks, line ends and comments. -/
def skipLines : Reader Unit := do
  let _ ← Reader.many do
    (do let _ ← Reader.span1 fun c => Quoted.isSpace c || c == '\n') <|> comment

/-- Skips the mark and the blanks around it. -/
def spaced (mark : List Char) : Reader Unit := do
  skipSpace
  Reader.literal mark
  skipSpace

/-! ## Keys -/

/-- How deep values may be nested, and one more than the parts that a key may have. -/
def nestingBound : Nat := 80

/-- Whether the character may stand in a key without quotes. -/
def isKeyChar (c : Char) : Bool := c.isAlphanum || c == '_' || c == '-'

/-- One part of a key. -/
def keyPart : Reader String := do
  return String.ofList (← Quoted.shortString <|> Reader.span1 isKeyChar)

/-- A key: its parts, between dots. -/
def keys : Reader (List String) := do
  let first ← keyPart
  let more ← Reader.many do
    spaced ['.']
    keyPart
  Reader.ensure (more.length + 1 < nestingBound)
  return first :: more

/-- A key and a value. -/
def pair (value : Reader Toml) : Reader (List String × Toml) := do
  let ks ← keys
  spaced ['=']
  return (ks, ← value)

/-! ## Values -/

/-- A value that holds no others. -/
def scalar : Reader Toml :=
  (do return .str (String.ofList (← Quoted.string)))
    <|> (do Reader.literal ['t', 'r', 'u', 'e']; return .bool true)
    <|> (do Reader.literal ['f', 'a', 'l', 's', 'e']; return .bool false)
    <|> Moment.value <|> Number.real <|> Number.integer

/-- What stands between two brackets: parts with a comma between them, and what is skipped around
each. Only an array, in which `skip` also skips line ends, may have a comma after the last part. -/
def commaSeparated {α : Type} (skip : Reader Unit) (lastComma : Bool) (part : Reader α) :
    Reader (List α) := do
  skip
  let parts ← Reader.many do
    let a ← part
    skip
    let comma ← Reader.optional do
      Reader.literal [',']
      skip
    return (a, comma.isSome)
  let commas := parts.map Prod.snd
  Reader.ensure (commas.dropLast.all id && (lastComma || commas.getLast? != some true))
  return parts.map Prod.fst

/-- An array of such values. -/
def array (value : Reader Toml) : Reader Toml := do
  Reader.literal ['[']
  let items ← commaSeparated skipLines true value
  Reader.literal [']']
  return .arr items

/-- A table on one line with such values. -/
def inlineTable (value : Reader Toml) : Reader Toml := do
  Reader.literal ['\x7b']
  let pairs ← commaSeparated skipSpace false (pair value)
  Reader.literal ['\x7d']
  match inlineMembers? pairs with
  | some members => return .table members
  | none => failure

/-- A value that holds others down to this depth. -/
def value : Nat → Reader Toml
  | 0 => scalar
  | depth + 1 => scalar <|> array (value depth) <|> inlineTable (value depth)

/-! ## Documents -/

/-- A header: the marks that open and close it, and the keys between them. -/
def header (opening closing : List Char) : Reader (List String) := do
  Reader.literal opening
  skipSpace
  let ks ← keys
  skipSpace
  Reader.literal closing
  return ks

/-- One statement. -/
def statement : Reader Statement :=
  (do return .element (← header ['[', '['] [']', ']']))
    <|> (do return .header (← header ['['] [']']))
    <|> (do
      let (ks, v) ← pair (value (nestingBound - 1))
      return .pair ks v)

/-- One line, or several if a value runs over them: perhaps a statement, perhaps a comment, and
the line end. -/
def line : Reader (Option Statement) := do
  skipSpace
  let s ← Reader.optional statement
  skipSpace
  let _ ← Reader.optional comment
  Reader.literal ['\n']
  return s

/-- The text with a line feed for every carriage return with a line feed. -/
def unifyLineEnds : List Char → List Char
  | '\r' :: '\n' :: rest => '\n' :: unifyLineEnds rest
  | c :: rest => c :: unifyLineEnds rest
  | [] => []

/-- The text without a byte order mark in front. -/
def dropMark : List Char → List Char
  | '\ufeff' :: rest => rest
  | cs => cs

/-- The members of the root table of the document, if the text is one. -/
def parse? (text : String) : Option (List (String × Toml)) := do
  let cs := unifyLineEnds (dropMark text.toList) ++ ['\n']
  let lines ← (Reader.many line).parse? cs
  Document.ofStatements? (lines.filterMap id)

end EntitySchema.Toml
