import EntitySchema.Text.Upper.Table

/-!
# Upper case

The full upper case of a character, which may be longer than the character, and of the first
character of a word.
-/

namespace EntitySchema.Text

namespace Upper

/-- Whether the run lists the character with this number. -/
def Run.covers (r : Run) (n : Nat) : Bool :=
  r.first ≤ n && n ≤ r.last && (n - r.first) % r.step == 0

/-- The number of the upper-case character of a character that the run lists. -/
def Run.image (r : Run) (n : Nat) : Nat := r.target + (n - r.first)

end Upper

/-- The full upper case of one character; a character without one stands for itself. -/
def upper (c : Char) : List Char :=
  match Upper.expansions.lookup c.toNat with
  | some ns => ns.map Char.ofNat
  | none =>
    match Upper.pairs.find? (·.covers c.toNat) with
    | some r => [Char.ofNat (r.image c.toNat)]
    | none => [c]

/-- The word with its first character in upper case and the rest as it is. -/
def capitalize : List Char → List Char
  | [] => []
  | c :: cs => upper c ++ cs

end EntitySchema.Text
