import EntitySchema.Proofs.Trim
import EntitySchema.Line

/-!
# What a line is

`Line.classify` in equations. The functions that it takes a line apart with are described by how
the text is put together: what `after?`, `withoutLast?` and `cutAt?` give back is always a piece of
it (`after?_eq_some_iff` and its like). From these follow when a line is a header and when it is a
field, in both directions.
-/

namespace EntitySchema.Line

open Text

variable {c : Char} {as bs cs : List Char}

/-! ## Pieces of a line -/

theorem after?_append (lead rest : List Char) : after? lead (lead ++ rest) = some rest := by
  unfold after?
  rw [if_pos (List.isPrefixOf_iff_prefix.mpr (List.prefix_append lead rest)), List.drop_left]

theorem after?_eq_none_iff {lead : List Char} : after? lead cs = none ↔ ¬lead <+: cs := by
  unfold after?
  rw [← List.isPrefixOf_iff_prefix]
  split
  · next h => simp [h]
  · next h => simp [h]

theorem after?_eq_some_iff {lead rest : List Char} :
    after? lead cs = some rest ↔ cs = lead ++ rest := by
  constructor
  · intro h
    by_cases hp : lead <+: cs
    · obtain ⟨tail, rfl⟩ := hp
      rw [after?_append] at h
      rw [Option.some.inj h]
    · rw [after?_eq_none_iff.mpr hp] at h
      exact absurd h (by simp)
  · rintro rfl
    exact after?_append lead rest

theorem withoutLast?_concat (as : List Char) (c : Char) : withoutLast? c (as ++ [c]) = some as := by
  unfold withoutLast?
  rw [if_pos List.getLast?_concat, List.dropLast_concat]

theorem withoutLast?_eq_none (h : cs.getLast? ≠ some c) : withoutLast? c cs = none := if_neg h

theorem withoutLast?_eq_some_iff : withoutLast? c cs = some as ↔ cs = as ++ [c] := by
  constructor
  · intro h
    by_cases hl : cs.getLast? = some c
    · obtain ⟨init, rfl⟩ := List.getLast?_eq_some_iff.mp hl
      rw [withoutLast?_concat] at h
      rw [Option.some.inj h]
    · rw [withoutLast?_eq_none hl] at h
      exact absurd h (by simp)
  · rintro rfl
    exact withoutLast?_concat as c

theorem cutAt?_append_cons (h : c ∉ as) (bs : List Char) :
    cutAt? c (as ++ c :: bs) = some (as, bs) := by
  induction as with
  | nil => exact if_pos rfl
  | cons a as ih =>
    have hne : a ≠ c := fun e => h (e ▸ List.mem_cons_self)
    have has : c ∉ as := fun hm => h (List.mem_cons_of_mem a hm)
    rw [List.cons_append, cutAt?, if_neg hne, ih has]
    rfl

theorem cutAt?_eq_some_iff : cutAt? c cs = some (as, bs) ↔ cs = as ++ c :: bs ∧ c ∉ as := by
  constructor
  · intro h
    induction cs generalizing as with
    | nil => exact absurd h (by simp [cutAt?])
    | cons x cs ih =>
      unfold cutAt? at h
      split at h
      · next hx =>
        simp only [Option.some.injEq, Prod.mk.injEq] at h
        obtain ⟨rfl, rfl⟩ := h
        exact ⟨by rw [hx]; rfl, List.not_mem_nil⟩
      · next hx =>
        obtain ⟨⟨as', bs'⟩, hcut, heq⟩ := Option.map_eq_some_iff.mp h
        simp only [Prod.mk.injEq] at heq
        obtain ⟨rfl, rfl⟩ := heq
        obtain ⟨rfl, hnot⟩ := ih hcut
        exact ⟨rfl, by simpa using ⟨Ne.symm hx, hnot⟩⟩
  · intro hparts
    obtain ⟨rfl, h⟩ := hparts
    exact cutAt?_append_cons h bs

/-! ## Headers -/

/-- A header is the keyword and what follows it. -/
theorem classify_keyword (rest : List Char) : classify (keyword ++ rest) = splitHeader rest := by
  unfold classify
  rw [after?_append]
  rfl

theorem splitHeader_brace (name : List Char) :
    splitHeader (name ++ ['\x7b']) = .header (trim name) true := by
  unfold splitHeader
  rw [withoutLast?_concat]

/-- The name in a header is a trimmed piece of what follows the keyword. -/
theorem name_of_splitHeader {rest name : List Char} {hasBrace : Bool}
    (h : splitHeader rest = .header name hasBrace) : trim name = name ∧ name ⊆ rest := by
  unfold splitHeader at h
  split at h
  · next init hinit =>
    obtain ⟨rfl, -⟩ := Line.header.inj h
    rw [withoutLast?_eq_some_iff.mp hinit]
    exact ⟨trim_idem init, List.Subset.trans (trim_subset init) (List.subset_append_left _ _)⟩
  · obtain ⟨rfl, -⟩ := Line.header.inj h
    exact ⟨trim_idem rest, trim_subset rest⟩

theorem splitHeader_ne_field (rest : List Char) (f : FieldLine) : splitHeader rest ≠ .field f := by
  unfold splitHeader
  split <;> simp

theorem classify_eq_header {text name : List Char} {hasBrace : Bool}
    (h : classify text = .header name hasBrace) :
    ∃ rest, text = keyword ++ rest ∧ splitHeader rest = .header name hasBrace := by
  unfold classify at h
  split at h
  · exact absurd h (by simp)
  · split at h
    · exact absurd h (by simp)
    · split at h
      · next rest hrest => exact ⟨rest, after?_eq_some_iff.mp hrest, h⟩
      · split at h
        · exact absurd h (by simp)
        · split at h <;> exact absurd h (by simp)

/-! ## Fields -/

/-- What stands before the colon does not make the line a comment, a header or a closing brace. -/
structure OpensField (as : List Char) : Prop where
  comment : as.head? ≠ some '#'
  close : as.head? ≠ some '\x7d'
  keyword : ¬keyword <+: as

/-- The start of a line that opens a field opens one as well. -/
theorem OpensField.of_isPrefix (h : OpensField bs) (hp : as <+: bs) : OpensField as := by
  obtain ⟨tail, rfl⟩ := hp
  have hhead (x : Char) (hx : as.head? = some x) : (as ++ tail).head? = some x := by
    rw [List.head?_append, hx]
    rfl
  exact ⟨fun hx => h.comment (hhead _ hx), fun hx => h.close (hhead _ hx),
    fun hkey => h.keyword (hkey.trans (List.prefix_append _ _))⟩

/-- A character that the shorter text does not have ends the part that it can match. -/
theorem prefix_of_prefix_append_cons (hc : c ∉ as) (h : as <+: bs ++ c :: cs) : as <+: bs := by
  rcases List.prefix_or_prefix_of_prefix h (List.prefix_append bs (c :: cs)) with hp | hp
  · exact hp
  · obtain ⟨tail, rfl⟩ := hp
    cases tail with
    | nil => exact ⟨[], by simp⟩
    | cons x tail =>
        rw [List.prefix_append_right_inj, List.cons_prefix_cons] at h
        obtain ⟨rfl, -⟩ := h
        exact absurd (List.mem_append_right bs List.mem_cons_self) hc

theorem head?_append_cons_ne {x : Char} (hc : c ≠ x) (h : as.head? ≠ some x) :
    (as ++ c :: bs).head? ≠ some x := by
  cases as with
  | nil => simpa using hc
  | cons a as => simpa using h

/-- A line with a colon is a field unless its start makes it something else. -/
theorem classify_colon (hcolon : ':' ∉ as) (h : OpensField as) (bs : List Char) :
    classify (as ++ ':' :: bs) = .field (splitField as bs) := by
  have hkey : after? keyword (as ++ ':' :: bs) = none := by
    rw [after?_eq_none_iff]
    intro hp
    exact h.keyword (prefix_of_prefix_append_cons (by decide) hp)
  unfold classify
  rw [if_neg (by simp), if_neg (head?_append_cons_ne (by decide) h.comment), hkey]
  dsimp only
  rw [if_neg (head?_append_cons_ne (by decide) h.close), cutAt?_append_cons hcolon]

theorem classify_eq_field {text : List Char} {f : FieldLine} (h : classify text = .field f) :
    ∃ as bs, text = as ++ ':' :: bs ∧ ':' ∉ as ∧ OpensField text ∧ f = splitField as bs := by
  unfold classify at h
  split at h
  · exact absurd h (by simp)
  · split at h
    · exact absurd h (by simp)
    · next hcomment =>
      split at h
      · next rest _ => exact absurd h (splitHeader_ne_field rest f)
      · next hkey =>
        split at h
        · exact absurd h (by simp)
        · next hclose =>
          split at h
          · next as bs hcut =>
            obtain ⟨htext, hcolon⟩ := cutAt?_eq_some_iff.mp hcut
            exact ⟨as, bs, htext, hcolon, ⟨hcomment, hclose, after?_eq_none_iff.mp hkey⟩,
              (Line.field.inj h).symm⟩
          · exact absurd h (by simp)

/-! ## Lines by their first character -/

theorem classify_brace (cs : List Char) : classify ('\x7d' :: cs) = .close := rfl

theorem splitHeader_eq_header (rest : List Char) :
    ∃ name hasBrace, splitHeader rest = .header name hasBrace := by
  unfold splitHeader
  split
  · exact ⟨_, _, rfl⟩
  · exact ⟨_, _, rfl⟩

/-- A line that starts with anything else declares an entity or a field, or is none of these. -/
theorem classify_cons {c : Char} (hhash : c ≠ '#') (hbrace : c ≠ '\x7d') (cs : List Char) :
    (∃ name hasBrace, classify (c :: cs) = .header name hasBrace)
      ∨ (∃ f, classify (c :: cs) = .field f) ∨ classify (c :: cs) = .other := by
  unfold classify
  rw [if_neg (by simp), if_neg (by simpa using hhash)]
  split
  · next rest _ => exact Or.inl (splitHeader_eq_header rest)
  · rw [if_neg (by simpa using hbrace)]
    split
    · exact Or.inr (Or.inl ⟨_, rfl⟩)
    · exact Or.inr (Or.inr rfl)

end EntitySchema.Line
