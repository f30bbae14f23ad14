import Mathlib.Data.List.DropRight
import EntitySchema.Text.Blank

/-!
# Trimming

What is cut off at the two ends of a text, and what stays. Everything rests on two facts: a text
that a character other than a blank divides is trimmed on the two sides of it apart
(`trim_append_cons`), and the two ends do not get into each other's way (`trimStart_trimEnd`).
-/

namespace EntitySchema.Text

variable {c : Char}

/-! ## One end at a time -/

theorem trimStart_isSuffix (cs : List Char) : trimStart cs <:+ cs := List.dropWhile_suffix isBlank

theorem trimEnd_isPrefix (cs : List Char) : trimEnd cs <+: cs :=
  List.rdropWhile_prefix isBlank cs

theorem trimStart_idem (cs : List Char) : trimStart (trimStart cs) = trimStart cs :=
  List.dropWhile_idempotent isBlank cs

theorem trimEnd_idem (cs : List Char) : trimEnd (trimEnd cs) = trimEnd cs :=
  List.rdropWhile_idempotent isBlank cs

theorem trimStart_cons_of_blank (h : isBlank c = true) (cs : List Char) :
    trimStart (c :: cs) = trimStart cs := List.dropWhile_cons_of_pos h

theorem trimStart_cons_of_not_blank (h : isBlank c = false) (cs : List Char) :
    trimStart (c :: cs) = c :: cs := List.dropWhile_cons_of_neg (by simp [h])

/-- A character that is not blank stops the trimming from the left. -/
theorem trimStart_append_cons (h : isBlank c = false) (as bs : List Char) :
    trimStart (as ++ c :: bs) = trimStart as ++ c :: bs := by
  induction as with
  | nil => exact trimStart_cons_of_not_blank h bs
  | cons a as ih =>
    cases ha : isBlank a with
    | true => rw [List.cons_append, trimStart_cons_of_blank ha, trimStart_cons_of_blank ha, ih]
    | false =>
        rw [List.cons_append, trimStart_cons_of_not_blank ha, trimStart_cons_of_not_blank ha,
          List.cons_append]

theorem trimEnd_eq_reverse (cs : List Char) : trimEnd cs = (trimStart cs.reverse).reverse := rfl

/-- A character that is not blank stops the trimming from the right. -/
theorem trimEnd_append_cons (h : isBlank c = false) (as bs : List Char) :
    trimEnd (as ++ c :: bs) = as ++ c :: trimEnd bs := by
  have hrev : (as ++ c :: bs).reverse = bs.reverse ++ c :: as.reverse := by simp
  rw [trimEnd_eq_reverse, hrev, trimStart_append_cons h, trimEnd_eq_reverse]
  simp

theorem trimEnd_cons_of_not_blank (h : isBlank c = false) (cs : List Char) :
    trimEnd (c :: cs) = c :: trimEnd cs := trimEnd_append_cons h [] cs

/-- A blank in front stays unless all that follows it goes. -/
theorem trimEnd_cons_of_blank (h : isBlank c = true) (cs : List Char) :
    trimEnd (c :: cs) = if trimEnd cs = [] then [] else c :: trimEnd cs := by
  induction cs using List.reverseRecOn with
  | nil => simp [trimEnd, h]
  | append_singleton cs b ih =>
    rw [← List.cons_append, trimEnd_concat, trimEnd_concat]
    cases hb : isBlank b with
    | true => rw [if_pos rfl, if_pos rfl, ih]
    | false => simp

/-! ## Texts that are trimmed already -/

theorem trimStart_eq_self_iff {cs : List Char} :
    trimStart cs = cs ↔ ∀ b, cs.head? = some b → isBlank b = false := by
  cases cs with
  | nil => simp
  | cons a as =>
    cases ha : isBlank a with
    | false => simp [trimStart_cons_of_not_blank ha, ha]
    | true =>
        have hlen := (trimStart_isSuffix as).length_le
        constructor
        · intro h
          rw [trimStart_cons_of_blank ha] at h
          rw [h, List.length_cons] at hlen
          omega
        · intro h
          exact absurd (h a rfl) (by simp [ha])

theorem trimEnd_eq_self_iff {cs : List Char} :
    trimEnd cs = cs ↔ ∀ b, cs.getLast? = some b → isBlank b = false := by
  rw [trimEnd_eq_reverse, List.reverse_eq_iff, trimStart_eq_self_iff, List.head?_reverse]

theorem trimStart_of_isPrefix {as bs : List Char} (hp : as <+: bs) (h : trimStart bs = bs) :
    trimStart as = as := by
  rw [trimStart_eq_self_iff] at h ⊢
  intro b hb
  refine h b ?_
  obtain ⟨rest, rfl⟩ := hp
  rw [List.head?_append, hb]
  rfl

/-! ## Both ends -/

/-- The order in which the two ends are trimmed does not matter. -/
theorem trimStart_trimEnd (cs : List Char) : trimStart (trimEnd cs) = trimEnd (trimStart cs) := by
  induction cs with
  | nil => rfl
  | cons a as ih =>
    cases ha : isBlank a with
    | false =>
        rw [trimEnd_cons_of_not_blank ha, trimStart_cons_of_not_blank ha,
          trimStart_cons_of_not_blank ha, trimEnd_cons_of_not_blank ha]
    | true =>
        rw [trimEnd_cons_of_blank ha, trimStart_cons_of_blank ha, ← ih]
        split
        · next h => rw [h]
        · exact trimStart_cons_of_blank ha _

theorem trim_eq_self_iff {cs : List Char} :
    trim cs = cs ↔ trimStart cs = cs ∧ trimEnd cs = cs := by
  constructor
  · intro h
    have hstart : trimStart cs = cs := by
      have hs : trimStart (trimEnd cs) = cs := (trimStart_trimEnd cs).trans h
      rw [← hs, trimStart_idem]
    refine ⟨hstart, ?_⟩
    have h' := h
    unfold trim at h'
    rwa [hstart] at h'
  · intro hparts
    obtain ⟨hs, he⟩ := hparts
    unfold trim
    rw [hs, he]

theorem trim_idem (cs : List Char) : trim (trim cs) = trim cs := by
  unfold trim
  rw [trimStart_trimEnd, trimStart_idem, trimEnd_idem]

theorem trim_trimEnd (cs : List Char) : trim (trimEnd cs) = trim cs := by
  unfold trim
  rw [trimStart_trimEnd, trimEnd_idem]

theorem trim_cons_of_blank (h : isBlank c = true) (cs : List Char) : trim (c :: cs) = trim cs := by
  unfold trim
  rw [trimStart_cons_of_blank h]

/-- A character that is not blank divides a text into two sides that are trimmed apart. -/
theorem trim_append_cons (h : isBlank c = false) (as bs : List Char) :
    trim (as ++ c :: bs) = trimStart as ++ c :: trimEnd bs := by
  unfold trim
  rw [trimStart_append_cons h, trimEnd_append_cons h]

/-- A text that does not start with a blank is trimmed at its end only. -/
theorem trim_of_trimStart {cs : List Char} (h : trimStart cs = cs) : trim cs = trimEnd cs := by
  unfold trim
  rw [h]

theorem trimStart_trim (cs : List Char) : trimStart (trim cs) = trim cs :=
  (trim_eq_self_iff.mp (trim_idem cs)).1

/-- Trimming brings in no characters. -/
theorem trim_subset (cs : List Char) : trim cs ⊆ cs :=
  List.Subset.trans (trimEnd_isPrefix (trimStart cs)).subset (trimStart_isSuffix cs).subset

/-- What is trimmed off on the two sides of a text are blanks. -/
theorem exists_trim_append (cs : List Char) :
    ∃ lead tail, cs = lead ++ (trim cs ++ tail) ∧ trimStart cs = trim cs ++ tail
      ∧ (∀ b ∈ lead, isBlank b = true) ∧ ∀ b ∈ tail, isBlank b = true := by
  have hstart : cs = cs.takeWhile isBlank ++ trimStart cs := List.takeWhile_append_dropWhile.symm
  have hend : trimStart cs = trim cs ++ (trimStart cs).rtakeWhile isBlank :=
    List.rdropWhile_append_rtakeWhile.symm
  refine ⟨cs.takeWhile isBlank, (trimStart cs).rtakeWhile isBlank, ?_, hend, ?_, ?_⟩
  · rw [← hend]
    exact hstart
  · exact fun b hb => List.mem_takeWhile_imp hb
  · exact fun b hb => List.mem_rtakeWhile_imp hb

/-- Only a text of blanks is trimmed to nothing. -/
theorem trim_eq_nil_iff {cs : List Char} : trim cs = [] ↔ ∀ b ∈ cs, isBlank b = true := by
  refine ⟨?_, ?_⟩
  · intro h
    obtain ⟨lead, tail, hcs, -, hlead, htail⟩ := exists_trim_append cs
    rw [hcs, h, List.nil_append]
    exact List.forall_mem_append.mpr ⟨hlead, htail⟩
  · intro h
    have hstart : trimStart cs = [] := List.dropWhile_eq_nil_iff.mpr h
    unfold trim
    rw [hstart, trimEnd_nil]

end EntitySchema.Text
