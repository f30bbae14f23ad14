/-!
# Cutting a text at a character

Lines, the parts of a type and the names in a path all come from cutting a text at each occurrence
of one character. No piece holds that character, and a text that is put together from pieces without
it, each closed by it, is cut into these pieces again (`splitOn_closed_append`).
-/

namespace EntitySchema

/-! ## Pieces of a text -/

/-- Splitting at a character leaves it out and brings nothing in. -/
theorem splitOn_piece {c : Char} {piece : List Char} :
    ∀ {cs : List Char}, piece ∈ cs.splitOn c → c ∉ piece ∧ piece ⊆ cs := by
  intro cs
  induction cs generalizing piece with
  | nil => intro h; simp_all
  | cons x cs ih =>
    intro h
    rw [List.splitOn_cons_eq_if_modifyHead] at h
    split at h
    · rcases List.mem_cons.mp h with rfl | h
      · exact ⟨List.not_mem_nil, List.nil_subset _⟩
      · exact ⟨(ih h).1, List.subset_cons_of_subset x (ih h).2⟩
    · next hx =>
      -- the character goes to the first piece of the rest
      obtain ⟨first, more, hsplit⟩ := List.exists_cons_of_ne_nil (List.splitOn_ne_nil c cs)
      rw [hsplit, List.modifyHead_cons] at h
      rcases List.mem_cons.mp h with rfl | h
      · obtain ⟨hc, hsub⟩ := ih (hsplit ▸ List.mem_cons_self)
        refine ⟨?_, List.cons_subset_cons x hsub⟩
        have hne : ¬c = x := fun e => hx (by simp [e])
        simpa using ⟨hne, hc⟩
      · have hmem : piece ∈ cs.splitOn c := hsplit ▸ List.mem_cons_of_mem first h
        exact ⟨(ih hmem).1, List.subset_cons_of_subset x (ih hmem).2⟩

/-! ## A text from its pieces -/

/-- A text up to the first occurrence of a character can be told from what follows. -/
theorem append_cons_inj {c : Char} {as bs rest rest' : List Char} (ha : c ∉ as) (hb : c ∉ bs)
    (h : as ++ c :: rest = bs ++ c :: rest') : as = bs ∧ rest = rest' := by
  induction as generalizing bs with
  | nil =>
    cases bs with
    | nil => exact ⟨rfl, (List.cons.inj h).2⟩
    | cons b bs => exact absurd ((List.cons.inj h).1 ▸ List.mem_cons_self) hb
  | cons a as ih =>
    cases bs with
    | nil => exact absurd ((List.cons.inj h).1 ▸ List.mem_cons_self) ha
    | cons b bs =>
      obtain ⟨hhead, htail⟩ := List.cons.inj h
      obtain ⟨has, hrest⟩ := ih (List.not_mem_of_not_mem_cons ha)
        (List.not_mem_of_not_mem_cons hb) htail
      exact ⟨by rw [hhead, has], hrest⟩

/-- Pieces, each followed by the character. -/
def closed (c : Char) (pieces : List (List Char)) : List Char := pieces.flatMap fun p => p ++ [c]

@[simp] theorem closed_nil (c : Char) : closed c [] = [] := rfl

@[simp] theorem closed_cons (c : Char) (p : List Char) (pieces : List (List Char)) :
    closed c (p :: pieces) = p ++ c :: closed c pieces := by
  simp [closed]

/-- A text of closed pieces is cut into them again, whatever follows. -/
theorem splitOn_closed_append {c : Char} {pieces : List (List Char)} (h : ∀ p ∈ pieces, c ∉ p)
    (rest : List Char) : (closed c pieces ++ rest).splitOn c = pieces ++ rest.splitOn c := by
  induction pieces with
  | nil => rfl
  | cons p pieces ih =>
    obtain ⟨hp, hpieces⟩ := List.forall_mem_cons.mp h
    rw [closed_cons, List.append_assoc, List.cons_append, List.splitOn_append_cons_self,
      List.splitOn_eq_singleton hp, ih hpieces]
    rfl

/-- Every text that ends in the character is one of closed pieces. -/
theorem exists_closed (c : Char) (cs : List Char) :
    ∃ pieces, (∀ p ∈ pieces, c ∉ p) ∧ cs ++ [c] = closed c pieces := by
  induction cs with
  | nil => exact ⟨[[]], by simp, rfl⟩
  | cons x cs ih =>
    obtain ⟨pieces, hpieces, hclosed⟩ := ih
    rw [List.cons_append, hclosed]
    by_cases hx : x = c
    · exact ⟨[] :: pieces, by simpa using hpieces, by simp [hx]⟩
    · -- the character goes to the first piece
      cases pieces with
      | nil => simp at hclosed
      | cons p pieces =>
        obtain ⟨hp, hpieces⟩ := List.forall_mem_cons.mp hpieces
        refine ⟨(x :: p) :: pieces, List.forall_mem_cons.mpr ⟨?_, hpieces⟩, by simp⟩
        simpa [hp] using Ne.symm hx

end EntitySchema
