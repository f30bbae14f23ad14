import EntitySchema.Json.Basic
import EntitySchema.Text.Digit

/-!
# Reading JSON

`Json.parse?` reads one value that takes up the whole text. The reading is strict: no control
characters in strings, no leading zeros, nothing after the value.
-/

namespace EntitySchema.Json

/-! ## Blanks -/

/-- The characters that may stand between the parts of a value. -/
def isSpace (c : Char) : Bool := c == ' ' || c == '\t' || c == '\n' || c == '\r'

/-- The text from its first character that is no blank. -/
def skipSpace (cs : List Char) : List Char := cs.dropWhile isSpace

/-! ## Strings -/

/-- One part of a string token: a character, or a numeric escape. -/
inductive Piece
  | char (c : Char)
  | code (n : Nat)
  deriving DecidableEq, Repr

/-- The character that a one-letter escape stands for. -/
def escaped? : Char → Option Char
  | '"' => some '"'
  | '\\' => some '\\'
  | '/' => some '/'
  | 'b' => some '\x08'
  | 'f' => some '\x0c'
  | 'n' => some '\n'
  | 'r' => some '\r'
  | 't' => some '\t'
  | _ => none

/-- The parts of a string token whose opening quote has been read, and the text after its closing
quote. -/
def stringTail : List Char → Option (List Piece × List Char)
  | [] => none
  | '"' :: rest => some ([], rest)
  | '\\' :: 'u' :: a :: b :: c :: d :: rest =>
    match Text.hexNumber? [a, b, c, d] with
    | none => none
    | some n => (stringTail rest).map fun (pieces, rest) => (.code n :: pieces, rest)
  | '\\' :: c :: rest =>
    match escaped? c with
    | none => none
    | some x => (stringTail rest).map fun (pieces, rest) => (.char x :: pieces, rest)
  | c :: rest =>
    if c.toNat < 0x20 then none
    else (stringTail rest).map fun (pieces, rest) => (.char c :: pieces, rest)

/-- Whether the number is the first half of a surrogate pair. -/
def isLead (n : Nat) : Bool := 0xD800 ≤ n && n ≤ 0xDBFF

/-- Whether the number is the second half of a surrogate pair. -/
def isTrail (n : Nat) : Bool := 0xDC00 ≤ n && n ≤ 0xDFFF

/-- The character that a surrogate pair stands for. -/
def joinPair (lead trail : Nat) : Char :=
  Char.ofNat (0x10000 + (lead - 0xD800) * 0x400 + (trail - 0xDC00))

/-- The characters that the parts of a token stand for, unless one is half a surrogate pair. -/
def joinPieces : List Piece → Option (List Char)
  | [] => some []
  | .char c :: pieces => (joinPieces pieces).map (c :: ·)
  | .code n :: .code m :: pieces =>
    if isLead n then
      if isTrail m then (joinPieces pieces).map (joinPair n m :: ·) else none
    else if isTrail n then none
    else (joinPieces (.code m :: pieces)).map (Char.ofNat n :: ·)
  | .code n :: pieces =>
    if isLead n || isTrail n then none else (joinPieces pieces).map (Char.ofNat n :: ·)

/-- The text of a string token, if it denotes one. -/
def text? (pieces : List Piece) : Option String := (joinPieces pieces).map String.ofList

/-- The value of a string token. -/
def ofPieces (pieces : List Piece) : Json :=
  match text? pieces with
  | some s => .str s
  | none => .unreadable

/-! ## Numbers -/

/-- At least one digit, and the text after the digits. -/
def digits? (cs : List Char) : Option (List Char × List Char) :=
  match cs.takeWhile Char.isDigit with
  | [] => none
  | ds => some (ds, cs.dropWhile Char.isDigit)

/-- The text after a fraction; the text itself when none starts here. -/
def skipFraction? : List Char → Option (List Char)
  | '.' :: rest => (digits? rest).map Prod.snd
  | cs => some cs

/-- The text after an exponent; the text itself when none starts here. -/
def skipExponent? : List Char → Option (List Char)
  | [] => some []
  | c :: rest =>
    if c == 'e' || c == 'E' then
      match rest with
      | '+' :: rest => (digits? rest).map Prod.snd
      | '-' :: rest => (digits? rest).map Prod.snd
      | _ => (digits? rest).map Prod.snd
    else some (c :: rest)

/-- A number without its sign, and the text after it. A fraction, an exponent and a negative zero
make the number one that is kept as it is written. -/
def unsigned? (negative : Bool) (cs : List Char) : Option (Json × List Char) := do
  let (ds, afterWhole) ← digits? cs
  if ds.head? = some '0' && ds.length != 1 then none
  else
    let afterFraction ← skipFraction? afterWhole
    let rest ← skipExponent? afterFraction
    let n := Text.ofDigits 10 ds
    if rest.length = afterWhole.length && !(negative && n == 0) then
      some (.int (if negative then -(n : Int) else n), rest)
    else
      let literal := cs.take (cs.length - rest.length)
      some (.real (String.ofList (if negative then '-' :: literal else literal)), rest)

/-- A number, and the text after it. -/
def number? : List Char → Option (Json × List Char)
  | '-' :: rest => unsigned? true rest
  | cs => unsigned? false cs

/-! ## Values -/

mutual

/-- The value that the text starts with, and the text after it. The fuel bounds the nesting and
the length of the value. -/
def value? : Nat → List Char → Option (Json × List Char)
  | 0, _ => none
  | fuel + 1, cs =>
    match skipSpace cs with
    | 'n' :: 'u' :: 'l' :: 'l' :: rest => some (.null, rest)
    | 't' :: 'r' :: 'u' :: 'e' :: rest => some (.bool true, rest)
    | 'f' :: 'a' :: 'l' :: 's' :: 'e' :: rest => some (.bool false, rest)
    | '"' :: rest => (stringTail rest).map fun (pieces, rest) => (ofPieces pieces, rest)
    | '[' :: rest =>
      match skipSpace rest with
      | ']' :: rest => some (.arr [], rest)
      | rest => (items? fuel rest).map fun (items, rest) => (.arr items, rest)
    | '\x7b' :: rest =>
      match skipSpace rest with
      | '\x7d' :: rest => some (.obj [], rest)
      | rest =>
        (members? fuel rest).map fun (members, rest) =>
          (match members with
            | some members => .obj members
            | none => .unreadable, rest)
    | cs => number? cs

/-- The elements of an array up to its closing bracket, and the text after it. -/
def items? : Nat → List Char → Option (List Json × List Char)
  | 0, _ => none
  | fuel + 1, cs =>
    match value? fuel cs with
    | none => none
    | some (item, rest) =>
      match skipSpace rest with
      | ']' :: rest => some ([item], rest)
      | ',' :: rest => (items? fuel rest).map fun (items, rest) => (item :: items, rest)
      | _ => none

/-- The members of an object up to its closing brace, and the text after it. A key that denotes no
text makes the whole object one that denotes no value. -/
def members? : Nat → List Char → Option (Option (List (String × Json)) × List Char)
  | 0, _ => none
  | fuel + 1, cs =>
    match skipSpace cs with
    | '"' :: rest =>
      match stringTail rest with
      | none => none
      | some (key, rest) =>
        match skipSpace rest with
        | ':' :: rest =>
          match value? fuel rest with
          | none => none
          | some (item, rest) =>
            let member := (text? key).map fun key => (key, item)
            match skipSpace rest with
            | '\x7d' :: rest => some (member.map ([·]), rest)
            | ',' :: rest =>
              (members? fuel rest).map fun (members, rest) =>
                (member.bind fun member => members.map (member :: ·), rest)
            | _ => none
        | _ => none
    | _ => none

end

/-- The value that the whole text denotes. Every step of a value takes at least one character, and
at most two steps start at one character, which bounds the fuel. -/
def parse? (text : String) : Option Json :=
  let cs := text.toList
  match value? (2 * cs.length + 2) cs with
  | some (j, rest) => if (skipSpace rest).isEmpty then some j else none
  | none => none

end EntitySchema.Json
