import EntitySchema.Text.Digit
import EntitySchema.Text.Reader

/-!
# Strings in TOML

Strings come in two kinds, each on one line or on several. Between quotes a backslash starts an
escape; between apostrophes every character stands for itself. On several lines a string starts
and ends with three of its marks, drops a line end right after the opening, and may end with one
or two marks of its own. Line ends are single line feeds here.
-/

namespace EntitySchema.Toml.Quoted

open Text (Reader)

/-- Whether the character may stand in a string or a comment: no control character but the
tab. -/
def isText (c : Char) : Bool := c == '\t' || (0x20 ≤ c.toNat && c.toNat != 0x7f)

/-- Whether the character is a blank within a line. -/
def isSpace (c : Char) : Bool := c == ' ' || c == '\t'

/-! ## Escapes -/

/-- The character that a one-letter escape stands for. -/
def escaped? : Char → Option Char
  | '"' => some '"'
  | '\\' => some '\\'
  | 'b' => some '\x08'
  | 'f' => some '\x0c'
  | 'n' => some '\n'
  | 'r' => some '\r'
  | 't' => some '\t'
  | _ => none

/-- The character with the number that these hexadecimal digits stand for. -/
def numbered? (ds : List Char) : Option Char := do
  let n ← Text.hexNumber? ds
  if n < 0xD800 || (0xDFFF < n && n < 0x110000) then some (Char.ofNat n) else none

/-- The next character of what follows in a string, when both are there. -/
def followed? (c : Option Char) (tail : Option (List Char × List Char)) :
    Option (List Char × List Char) := do
  let c ← c
  let (cs, rest) ← tail
  some (c :: cs, rest)

/-! ## Between quotes -/

/-- The content of a string up to its closing quote, and the text after it. -/
def quotedTail : List Char → Option (List Char × List Char)
  | [] => none
  | '"' :: rest => some ([], rest)
  | '\\' :: 'u' :: a :: b :: c :: d :: rest => followed? (numbered? [a, b, c, d]) (quotedTail rest)
  | '\\' :: 'U' :: a :: b :: c :: d :: e :: f :: g :: h :: rest =>
    followed? (numbered? [a, b, c, d, e, f, g, h]) (quotedTail rest)
  | '\\' :: c :: rest => followed? (escaped? c) (quotedTail rest)
  | c :: rest => if isText c then followed? (some c) (quotedTail rest) else none

/-- Whether nothing but blanks comes before the end of the line. -/
def endsLine (cs : List Char) : Bool := (cs.dropWhile isSpace).head? == some '\n'

/-- The content of a string on several lines up to its closing quotes, and the text after them. A
backslash at the end of a line joins what follows: while `joining`, blanks and line ends are left
out. -/
def quotedLinesTail (joining : Bool) : List Char → Option (List Char × List Char)
  | [] => none
  | '"' :: '"' :: '"' :: '"' :: '"' :: rest => some (['"', '"'], rest)
  | '"' :: '"' :: '"' :: '"' :: rest => some (['"'], rest)
  | '"' :: '"' :: '"' :: rest => some ([], rest)
  | '\\' :: 'u' :: a :: b :: c :: d :: rest =>
    followed? (numbered? [a, b, c, d]) (quotedLinesTail false rest)
  | '\\' :: 'U' :: a :: b :: c :: d :: e :: f :: g :: h :: rest =>
    followed? (numbered? [a, b, c, d, e, f, g, h]) (quotedLinesTail false rest)
  | '\\' :: c :: rest =>
    if endsLine (c :: rest) then quotedLinesTail true rest
    else followed? (escaped? c) (quotedLinesTail false rest)
  | c :: rest =>
    if joining && (isSpace c || c == '\n') then quotedLinesTail true rest
    else if isText c || c == '\n' then followed? (some c) (quotedLinesTail false rest)
    else none

/-! ## Between apostrophes -/

/-- The content of a string up to its closing apostrophe, and the text after it. -/
def literalTail : List Char → Option (List Char × List Char)
  | [] => none
  | '\'' :: rest => some ([], rest)
  | c :: rest => if isText c then followed? (some c) (literalTail rest) else none

/-- The content of a string on several lines up to its closing apostrophes, and the text after
them. -/
def literalLinesTail : List Char → Option (List Char × List Char)
  | [] => none
  | '\'' :: '\'' :: '\'' :: '\'' :: '\'' :: rest => some (['\'', '\''], rest)
  | '\'' :: '\'' :: '\'' :: '\'' :: rest => some (['\''], rest)
  | '\'' :: '\'' :: '\'' :: rest => some ([], rest)
  | c :: rest =>
    if isText c || c == '\n' then followed? (some c) (literalLinesTail rest) else none

/-! ## Strings -/

/-- The text after a line end, if it starts with one. -/
def dropLineEnd : List Char → List Char
  | '\n' :: rest => rest
  | cs => cs

/-- The content of a string on one line. -/
def shortString : Reader (List Char) := fun
  | '"' :: rest => quotedTail rest
  | '\'' :: rest => literalTail rest
  | _ => none

/-- The content of a string. -/
def string : Reader (List Char) := fun
  | '"' :: '"' :: '"' :: rest => quotedLinesTail false (dropLineEnd rest)
  | '\'' :: '\'' :: '\'' :: rest => literalLinesTail (dropLineEnd rest)
  | cs => shortString cs

end EntitySchema.Toml.Quoted
