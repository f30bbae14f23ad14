import EntitySchema.Proofs.Semicolons

/-!
# The annotations of a field, sign by sign

What follows the colon of a field line is cut at its signs. `signTexts` lists what follows each
sign, and a loop over the cut text drops those at the end that are empty: exactly one for each sign
of the run that ends the text (`dropTrailingEmpty_signTexts`). Texts of blanks stay, as annotations
without a name. `splitField_signs` puts the parts together.
-/

namespace EntitySchema.Line

open Text

/-! ## What follows each sign -/

/-- What follows each sign, up to the next one or to the end. -/
def signTexts : List Char → List (List Char)
  | [] => []
  | c :: cs => if c = '@' then cs.takeWhile (· ≠ '@') :: signTexts cs else signTexts cs

/-- How many signs end the text. -/
def signRun (cs : List Char) : Nat := (cs.rtakeWhile (· = '@')).length

/-- `text` follows the sign that `i` others come before, and reaches to the next one or to the
end. -/
def FollowsSign (cs : List Char) (i : Nat) (text : List Char) : Prop :=
  ∃ before after, cs = before ++ '@' :: (text ++ after) ∧ before.count '@' = i ∧ '@' ∉ text
    ∧ ∀ c, after.head? = some c → c = '@'

theorem signTexts_cons (c : Char) (cs : List Char) : signTexts (c :: cs)
    = if c = '@' then cs.takeWhile (· ≠ '@') :: signTexts cs else signTexts cs := rfl

theorem length_signTexts (cs : List Char) : (signTexts cs).length = cs.count '@' := by
  induction cs with
  | nil => rfl
  | cons c cs ih =>
    rw [signTexts_cons]
    by_cases hc : c = '@'
    · rw [if_pos hc, List.length_cons, ih, hc, List.count_cons_self]
    · rw [if_neg hc, ih, List.count_cons_of_ne hc]

/-- Cut at its signs, a text is what comes before the first and what follows each. -/
theorem splitOn_sign (cs : List Char) :
    cs.splitOn '@' = cs.takeWhile (· ≠ '@') :: signTexts cs := by
  induction cs with
  | nil => rfl
  | cons c cs ih =>
    rw [List.splitOn_cons_eq_if_modifyHead, ih]
    by_cases hc : c = '@'
    · rw [if_pos (by simp [hc]), signTexts_cons, if_pos hc,
        List.takeWhile_cons_of_neg (by simp [hc])]
    · rw [if_neg (by simp [hc]), signTexts_cons, if_neg hc,
        List.takeWhile_cons_of_pos (by simp [hc])]
      rfl

/-- Each text stands in the list at the place of its sign. -/
theorem followsSign_of_getElem? {cs text : List Char} {i : Nat}
    (h : (signTexts cs)[i]? = some text) : FollowsSign cs i text := by
  induction cs generalizing i with
  | nil => simp [signTexts] at h
  | cons c cs ih =>
    rw [signTexts_cons] at h
    by_cases hc : c = '@'
    · rw [if_pos hc] at h
      cases i with
      | zero =>
        rw [List.getElem?_cons_zero, Option.some.injEq] at h
        refine ⟨[], cs.dropWhile (· ≠ '@'), ?_, rfl, ?_, ?_⟩
        · rw [← h, List.takeWhile_append_dropWhile, hc, List.nil_append]
        · intro hmem
          rw [← h] at hmem
          simpa using List.mem_takeWhile_imp hmem
        · intro c' hhead
          have hstop := List.head?_dropWhile_not (· ≠ '@') cs
          rw [hhead] at hstop
          simpa using hstop
      | succ i =>
        obtain ⟨before, after, hcs, hcount, hsign, hafter⟩ := ih h
        refine ⟨c :: before, after, by rw [hcs, List.cons_append], ?_, hsign, hafter⟩
        rw [hc, List.count_cons_self, hcount]
    · rw [if_neg hc] at h
      obtain ⟨before, after, hcs, hcount, hsign, hafter⟩ := ih h
      refine ⟨c :: before, after, by rw [hcs, List.cons_append], ?_, hsign, hafter⟩
      rw [List.count_cons_of_ne hc, hcount]

/-! ## The signs at the end -/

theorem signTexts_concat_sign (cs : List Char) : signTexts (cs ++ ['@']) = signTexts cs ++ [[]] := by
  have hcut := List.splitOn_append_cons_self (a := '@') cs []
  rw [splitOn_sign, splitOn_sign, List.splitOn_nil, List.cons_append] at hcut
  exact (List.cons.inj hcut).2

/-- Before another character at the end, the last text is not empty. -/
theorem dropTrailingEmpty_signTexts_concat {c : Char} (hc : c ≠ '@') (cs : List Char) :
    dropTrailingEmpty (signTexts (cs ++ [c])) = signTexts (cs ++ [c]) := by
  obtain ⟨pieces, last, hcut⟩ := exists_splitOn_append '@' cs
  have hpieces := hcut [c] (by simpa using hc.symm)
  rw [splitOn_sign] at hpieces
  cases pieces with
  | nil =>
    obtain ⟨-, hnil⟩ := List.cons.inj hpieces
    rw [hnil]
    rfl
  | cons type pieces =>
    obtain ⟨-, htexts⟩ := List.cons.inj hpieces
    rw [htexts]
    exact dropTrailingEmpty_concat (by simp) pieces

/-- The empty texts at the end are dropped, one for each sign that ends the text. -/
theorem dropTrailingEmpty_signTexts (cs : List Char) :
    dropTrailingEmpty (signTexts cs) = (signTexts cs).take (cs.count '@' - signRun cs) := by
  induction cs using List.reverseRecOn with
  | nil => rfl
  | append_singleton cs c ih =>
    by_cases hc : c = '@'
    · have hrun : signRun (cs ++ ['@']) = signRun cs + 1 := by
        unfold signRun
        rw [List.rtakeWhile_concat_pos _ _ _ (by simp), List.length_append, List.length_singleton]
      have hcount : (cs ++ ['@']).count '@' = cs.count '@' + 1 := by
        rw [List.count_append, List.count_singleton_self]
      rw [hc, signTexts_concat_sign, dropTrailingEmpty_concat_nil, ih, hrun, hcount,
        Nat.add_sub_add_right, List.take_append_of_le_length]
      rw [length_signTexts]
      exact Nat.sub_le _ _
    · have hrun : signRun (cs ++ [c]) = 0 := by
        unfold signRun
        rw [List.rtakeWhile_concat_neg _ _ _ (by simpa using hc), List.length_nil]
      rw [dropTrailingEmpty_signTexts_concat hc, hrun, Nat.sub_zero, ← length_signTexts,
        List.take_length]

/-! ## The name in a text -/

theorem head_annotationName {text : List Char} {c : Char}
    (h : (annotationName text).head? = some c) : isBlank c = false := by
  have hpre : annotationName text <+: trim text := List.takeWhile_prefix _
  exact trimStart_eq_self_iff.mp (trimStart_of_isPrefix hpre (trimStart_trim text)) c h

/-- Only a text of blanks gives no name. -/
theorem annotationName_eq_nil_iff {text : List Char} :
    annotationName text = [] ↔ ∀ c ∈ text, isBlank c = true := by
  rw [← trim_eq_nil_iff]
  unfold annotationName
  cases htrim : trim text with
  | nil => exact iff_of_true rfl rfl
  | cons c cs =>
    -- the first character of a trimmed text is no space
    have hc : isBlank c = false :=
      trimStart_eq_self_iff.mp (trimStart_trim text) c (by rw [htrim]; rfl)
    have hne : c ≠ ' ' := by
      intro hspace
      rw [hspace] at hc
      exact absurd hc (by decide)
    rw [List.takeWhile_cons_of_pos (by simpa using hne)]
    exact iff_of_false (List.cons_ne_nil _ _) (List.cons_ne_nil _ _)

theorem not_mem_annotationName {text : List Char} (h : '@' ∉ text) :
    '@' ∉ annotationName text ∧ ' ' ∉ annotationName text := by
  have hpre : annotationName text <+: trim text := List.takeWhile_prefix _
  refine ⟨fun hmem => h (trim_subset text (hpre.subset hmem)), ?_⟩
  intro hmem
  exact absurd (List.mem_takeWhile_imp hmem) (by simp)

/-! ## Field lines -/

/-- What is read of what follows a colon: it is trimmed, and one semicolon at its end is left
out. -/
def fieldTail (rest : List Char) : List Char := dropSemicolon (trim rest)

/-- The names are those in the texts that follow the signs but for the last run of them. -/
theorem annotations_splitField (name rest : List Char) :
    (splitField name rest).annotations = ((signTexts (fieldTail rest)).take
      ((fieldTail rest).count '@' - signRun (fieldTail rest))).map annotationName := by
  rw [← dropTrailingEmpty_signTexts]
  exact congrArg Prod.snd (splitType_of_pieces (splitOn_sign (fieldTail rest)))

/-- So each annotation is the name in the text that follows its sign. -/
theorem exists_followsSign {name rest a : List Char} {i : Nat}
    (h : (splitField name rest).annotations[i]? = some a) :
    ∃ text, FollowsSign (fieldTail rest) i text ∧ annotationName text = a := by
  rw [annotations_splitField, List.getElem?_map, Option.map_eq_some_iff] at h
  obtain ⟨text, htext, hname⟩ := h
  rw [List.getElem?_take] at htext
  split at htext
  · exact ⟨text, followsSign_of_getElem? htext, hname⟩
  · cases htext

/-- **The annotations of a field, sign by sign.** Of what follows the colon, trimmed and without
one semicolon at its end, the type is what comes before the first sign, and there is an annotation
for each sign but those of the run at the end. -/
theorem splitField_signs (name rest : List Char) :
    (splitField name rest).typeName = trim ((fieldTail rest).takeWhile (· ≠ '@'))
      ∧ (splitField name rest).annotations.length
        = (fieldTail rest).count '@' - signRun (fieldTail rest)
      ∧ (∀ i < (splitField name rest).annotations.length, ∃ text,
          FollowsSign (fieldTail rest) i text
          ∧ (splitField name rest).annotations[i]? = some ((trim text).takeWhile (· ≠ ' '))
          ∧ ((splitField name rest).annotations[i]? = some [] ↔ ∀ c ∈ text, isBlank c = true))
      ∧ ∀ a ∈ (splitField name rest).annotations,
          '@' ∉ a ∧ ' ' ∉ a ∧ ∀ c, a.head? = some c → isBlank c = false := by
  have htype := congrArg Prod.fst (splitType_of_pieces (splitOn_sign (fieldTail rest)))
  refine ⟨htype, ?_, ?_, ?_⟩
  · rw [annotations_splitField, List.length_map, List.length_take, length_signTexts]
    exact Nat.min_eq_left (Nat.sub_le _ _)
  · intro i hi
    have hget := List.getElem?_eq_getElem hi
    obtain ⟨text, hfollows, hname⟩ := exists_followsSign hget
    rw [hget, ← hname]
    refine ⟨text, hfollows, rfl, ?_⟩
    rw [Option.some.injEq]
    exact annotationName_eq_nil_iff
  · intro a ha
    obtain ⟨i, hget⟩ := List.mem_iff_getElem?.mp ha
    obtain ⟨text, ⟨before, after, -, -, htext, -⟩, rfl⟩ := exists_followsSign hget
    obtain ⟨hat, hspace⟩ := not_mem_annotationName htext
    exact ⟨hat, hspace, fun c hhead => head_annotationName hhead⟩

/-- A run of signs at the end gives no annotation, and one of blanks gives one without a name. -/
example : splitField ['a'] " B @c d@ @@;".toList = ⟨['a'], ['B'], [['c'], []]⟩ := by decide

end EntitySchema.Line
