/-!
# The size of a text in bytes

Offsets, spans and the limits of file names are counted in bytes of UTF-8, and so is the size that a
text can have at all.
-/

namespace EntitySchema.Text

/-- How many bytes a text can have: as many as an address that has a sign can count. -/
def maxSize : Nat := 9223372036854775807

/-- How many bytes the text takes in UTF-8. -/
def byteSize (cs : List Char) : Nat := cs.foldr (fun c n => c.utf8Size + n) 0

@[simp] theorem byteSize_nil : byteSize [] = 0 := rfl

@[simp] theorem byteSize_cons (c : Char) (cs : List Char) :
    byteSize (c :: cs) = c.utf8Size + byteSize cs := rfl

@[simp] theorem byteSize_append (as bs : List Char) :
    byteSize (as ++ bs) = byteSize as + byteSize bs := by
  induction as with
  | nil => rw [List.nil_append, byteSize_nil, Nat.zero_add]
  | cons c as ih => rw [List.cons_append, byteSize_cons, byteSize_cons, ih, Nat.add_assoc]

end EntitySchema.Text
