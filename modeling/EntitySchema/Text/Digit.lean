/-!
# Digits

Digits in bases up to sixteen, and the numbers that rows of them stand for.
-/

namespace EntitySchema.Text

/-- The number that a digit stands for; letters of either case are digits too. -/
def digitValue? (c : Char) : Option Nat :=
  if c.isDigit then some (c.toNat - 48)
  else if 'a' ≤ c && c ≤ 'f' then some (c.toNat - 87)
  else if 'A' ≤ c && c ≤ 'F' then some (c.toNat - 55)
  else none

/-- Whether the character is a digit in this base. -/
def isDigitIn (base : Nat) (c : Char) : Bool :=
  match digitValue? c with
  | some n => n < base
  | none => false

/-- The number that a row of digits stands for in this base. -/
def ofDigits (base : Nat) (ds : List Char) : Nat :=
  ds.foldl (fun n d => n * base + (digitValue? d).getD 0) 0

/-- The number that a row of hexadecimal digits stands for, if that is what it is. -/
def hexNumber? (ds : List Char) : Option Nat :=
  if ds.all (isDigitIn 16) then some (ofDigits 16 ds) else none

end EntitySchema.Text
