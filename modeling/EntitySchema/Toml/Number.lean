import EntitySchema.Text.Digit
import EntitySchema.Text.Reader
import EntitySchema.Toml.Basic

/-!
# Numbers in TOML

Integers are decimal with an optional sign, or hexadecimal, octal or binary without one, and have
to fit 64 bits with a sign. Other numbers have a fraction or an exponent, or are `inf` or `nan`.
One underscore may stand between two digits.
-/

namespace EntitySchema.Toml.Number

open Text (Reader)

/-- A row of digits in this base, without the underscores between them. -/
def digits (base : Nat) : Reader (List Char) := do
  let run ← Reader.span1 fun c => Text.isDigitIn base c || c == '_'
  let groups := run.splitOn '_'
  Reader.ensure (groups.all fun group => !group.isEmpty)
  return groups.flatten

/-- The digits of a decimal number in front of any fraction; only zero itself starts with a
zero. -/
def wholeDigits : Reader (List Char) := do
  let ds ← digits 10
  Reader.ensure (ds.head? != some '0' || ds.length == 1)
  return ds

/-- An optional sign: whether it is a minus. -/
def sign : Reader Bool := do
  match ← Reader.optional (Reader.char fun c => c == '+' || c == '-') with
  | some '-' => return true
  | _ => return false

/-! ## Integers -/

/-- The first number that is too large for an integer. -/
def integerBound : Nat := 0x8000000000000000

/-- An integer in a base other than ten, after a zero and the letter that marks the base. -/
def markedInteger (mark : Char) (base : Nat) : Reader Toml := do
  Reader.literal ['0', mark]
  let n := Text.ofDigits base (← digits base)
  Reader.ensure (n < integerBound)
  return .int n

/-- An integer in base ten. -/
def decimalInteger : Reader Toml := do
  let negative ← sign
  let n := Text.ofDigits 10 (← wholeDigits)
  if negative then
    Reader.ensure (n ≤ integerBound)
    return .int (-(n : Int))
  else
    Reader.ensure (n < integerBound)
    return .int n

/-- An integer. -/
def integer : Reader Toml :=
  markedInteger 'x' 16 <|> markedInteger 'o' 8 <|> markedInteger 'b' 2 <|> decimalInteger

/-! ## Other numbers -/

/-- The smallest number that is nearer to two to the power 1024 than to any double: half a unit in
the last place above the largest double. -/
def doubleBound : Nat := 1 <<< 1024 - 1 <<< 970

/-- Whether the number with these digits, moved by a power of ten, is too large for a double. Its
size in powers of ten decides, except around the bound. -/
def exceedsDouble (ds : List Char) (power : Int) : Bool :=
  let ds := ds.dropWhile (· == '0')
  let size := ds.length + power
  if ds.isEmpty || size < 309 then false
  else if size > 309 then true
  else if 0 ≤ power then doubleBound ≤ Text.ofDigits 10 ds * Nat.pow 10 power.toNat
  else doubleBound * Nat.pow 10 (-power).toNat ≤ Text.ofDigits 10 ds

/-- A fraction: the digits after the point. -/
def fraction : Reader (List Char) := do
  Reader.literal ['.']
  digits 10

/-- An exponent. -/
def exponent : Reader Int := do
  let _ ← Reader.char fun c => c == 'e' || c == 'E'
  let negative ← sign
  let n := Text.ofDigits 10 (← digits 10)
  return if negative then -(n : Int) else n

/-- A number with a fraction, an exponent or both. A positive one that is too large for a double
is refused; a negative one counts as infinite. -/
def decimalReal : Reader Unit := do
  let negative ← sign
  let whole ← wholeDigits
  let frac ← Reader.optional fraction
  let power ← Reader.optional exponent
  Reader.ensure (frac.isSome || power.isSome)
  let after := frac.getD []
  Reader.ensure (negative || !exceedsDouble (whole ++ after) (power.getD 0 - after.length))

/-- An infinite number, or the one that is no number. -/
def specialReal : Reader Unit := do
  let _ ← sign
  Reader.literal ['i', 'n', 'f'] <|> Reader.literal ['n', 'a', 'n']

/-- A number that is no integer. -/
def real : Reader Toml := do
  let (_, literal) ← Reader.withText (decimalReal <|> specialReal)
  return .real (String.ofList literal)

end EntitySchema.Toml.Number
