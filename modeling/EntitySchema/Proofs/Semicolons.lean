import EntitySchema.Proofs.PrintedField

/-!
# The semicolon at the end of a field line

A field line may end in a semicolon, which is no part of the field. What is put behind a field line
comes after its colon (`classify_append`), and there it goes to the last of the pieces that the
signs make (`exists_splitOn_append`). A semicolon is left out again, and blanks before it are
trimmed off that piece. The one piece that they do not leave as it was is an empty one: it is none
at the end of a line, and with a blank in it, it is an annotation without a name
(`classify_append_semicolon`).
-/

namespace EntitySchema.Line

open Text

variable {c : Char} {as bs cs rest w : List Char}

/-! ## The last piece of a text -/

/-- What is put at the end of a text, without the character it is cut at, goes to its last piece. -/
theorem exists_splitOn_append (c : Char) (cs : List Char) :
    ∃ pieces last, ∀ tail, c ∉ tail → (cs ++ tail).splitOn c = pieces ++ [last ++ tail] := by
  induction cs with
  | nil => exact ⟨[], [], fun tail htail => List.splitOn_eq_singleton htail⟩
  | cons x cs ih =>
    obtain ⟨pieces, last, hsplit⟩ := ih
    by_cases hx : x = c
    · refine ⟨[] :: pieces, last, ?_⟩
      intro tail htail
      rw [List.cons_append, List.splitOn_cons_eq_if_modifyHead, if_pos (by simp [hx]),
        hsplit tail htail]
      rfl
    · -- the character goes to the first piece, which may be the last one as well
      cases pieces with
      | nil =>
        refine ⟨[], x :: last, ?_⟩
        intro tail htail
        rw [List.cons_append, List.splitOn_cons_eq_if_modifyHead, if_neg (by simp [hx]),
          hsplit tail htail]
        rfl
      | cons p pieces =>
        refine ⟨(x :: p) :: pieces, last, ?_⟩
        intro tail htail
        rw [List.cons_append, List.splitOn_cons_eq_if_modifyHead, if_neg (by simp [hx]),
          hsplit tail htail]
        rfl

theorem dropTrailingEmpty_concat {t : List Char} (h : t ≠ []) (ts : List (List Char)) :
    dropTrailingEmpty (ts ++ [t]) = ts ++ [t] := by
  unfold dropTrailingEmpty
  rw [List.reverse_append, List.reverse_singleton, List.singleton_append,
    List.dropWhile_cons_of_neg (by simpa using h)]
  simp

theorem dropTrailingEmpty_concat_nil (ts : List (List Char)) :
    dropTrailingEmpty (ts ++ [[]]) = dropTrailingEmpty ts := by
  unfold dropTrailingEmpty
  rw [List.reverse_append, List.reverse_singleton, List.singleton_append,
    List.dropWhile_cons_of_pos rfl]

theorem length_dropTrailingEmpty_le (ts : List (List Char)) :
    (dropTrailingEmpty ts).length ≤ ts.length := by
  unfold dropTrailingEmpty
  have hsuffix : ts.reverse.dropWhile List.isEmpty <:+ ts.reverse := List.dropWhile_suffix _
  have hle := hsuffix.length_le
  simpa using hle

/-- Blanks behind a character that is none are trimmed off. -/
theorem trim_append_blanks (hc : isBlank c = false) (hw : ∀ b ∈ w, isBlank b = true)
    (as : List Char) : trim (as ++ c :: w) = trimStart as ++ [c] := by
  have hend : trimEnd w = [] := by
    unfold trimEnd
    rw [List.dropWhile_eq_nil_iff.mpr (by simpa using hw)]
    rfl
  rw [trim_append_cons hc, hend]

/-! ## What follows the colon -/

theorem splitType_of_pieces {type : List Char} {pieces : List (List Char)}
    (h : (dropSemicolon rest).splitOn '@' = type :: pieces) :
    splitType rest = (trim type, (dropTrailingEmpty pieces).map annotationName) := by
  obtain ⟨type', pieces', hpieces, hsplit⟩ := splitType_pieces rest
  obtain ⟨rfl, rfl⟩ := List.cons.inj (hpieces.symm.trans h)
  exact hsplit

/-- A semicolon at the end is left out. -/
theorem splitType_concat_semicolon (h : cs.getLast? ≠ some ';') :
    splitType (cs ++ [';']) = splitType cs := by
  obtain ⟨type, pieces, hpieces, hsplit⟩ := splitType_pieces cs
  rw [hsplit]
  apply splitType_of_pieces
  rw [dropSemicolon_concat, ← hpieces, dropSemicolon_of_ne h]

/-- Blanks before the semicolon make an annotation of a sign at the end. -/
theorem splitType_sign_blanks (hw : w ≠ []) (hsign : '@' ∉ w) (as : List Char) :
    splitType (as ++ '@' :: w ++ [';']) ≠ splitType (as ++ ['@']) := by
  obtain ⟨type, pieces, hpieces⟩ := List.exists_cons_of_ne_nil (List.splitOn_ne_nil '@' as)
  have hcut (tail : List Char) (h : '@' ∉ tail) :
      (as ++ '@' :: tail).splitOn '@' = type :: (pieces ++ [tail]) := by
    rw [List.splitOn_append_cons_self, hpieces, List.splitOn_eq_singleton h]
    rfl
  have hblanks : splitType (as ++ '@' :: w ++ [';'])
      = (trim type, (pieces ++ [w]).map annotationName) := by
    rw [← dropTrailingEmpty_concat hw]
    apply splitType_of_pieces
    rw [dropSemicolon_concat, hcut w hsign]
  have hbare : splitType (as ++ ['@'])
      = (trim type, (dropTrailingEmpty pieces).map annotationName) := by
    rw [← dropTrailingEmpty_concat_nil]
    apply splitType_of_pieces
    rw [dropSemicolon_of_ne (by simp), hcut [] List.not_mem_nil]
  rw [hblanks, hbare]
  intro heq
  have hlength := congrArg List.length (Prod.mk.inj heq).2
  have hle := length_dropTrailingEmpty_le pieces
  simp only [List.length_map, List.length_append, List.length_singleton] at hlength
  omega

/-- Blanks before the semicolon are trimmed off any other end. -/
theorem splitType_blanks (hc : isBlank c = false) (hsign : c ≠ '@') (hsemicolon : c ≠ ';')
    (hw : ∀ b ∈ w, isBlank b = true) (as : List Char) :
    splitType (as ++ c :: w ++ [';']) = splitType (as ++ [c]) := by
  obtain ⟨pieces, last, hcut⟩ := exists_splitOn_append '@' as
  have hblanks : '@' ∉ c :: w := by
    intro hmem
    rcases List.mem_cons.mp hmem with h | h
    · exact hsign h.symm
    · exact absurd (hw '@' h) (by decide)
  have hbare : '@' ∉ [c] := by simpa using Ne.symm hsign
  have htrim : trim (last ++ c :: w) = trim (last ++ [c]) := by
    rw [trim_append_blanks hc hw, trim_append_blanks hc (by simp)]
  have hpieces := hcut (c :: w) hblanks
  have hpieces' := hcut [c] hbare
  rw [← dropSemicolon_concat (as ++ c :: w)] at hpieces
  have hnone : (as ++ [c]).getLast? ≠ some ';' := by simpa using hsemicolon
  rw [← dropSemicolon_of_ne hnone] at hpieces'
  -- the last piece is the type or the last annotation, and either is trimmed
  cases pieces with
  | nil => rw [splitType_of_pieces hpieces, splitType_of_pieces hpieces', htrim]
  | cons type pieces =>
    have hname : annotationName (last ++ c :: w) = annotationName (last ++ [c]) := by
      unfold annotationName
      rw [htrim]
    have hannotations (last : List Char) (h : last ≠ []) :
        (dropTrailingEmpty (pieces ++ [last])).map annotationName
          = pieces.map annotationName ++ [annotationName last] := by
      rw [dropTrailingEmpty_concat h, List.map_append, List.map_singleton]
    rw [List.cons_append] at hpieces hpieces'
    rw [splitType_of_pieces hpieces, splitType_of_pieces hpieces', hannotations _ (by simp),
      hannotations _ (by simp), hname]

/-- **A semicolon behind what follows a colon.** -/
theorem splitField_append_semicolon (hend : trimEnd rest = rest)
    (hsemicolon : rest.getLast? ≠ some ';') (hw : ∀ b ∈ w, isBlank b = true) (name : List Char) :
    splitField name (rest ++ w ++ [';']) = splitField name rest
      ↔ w = [] ∨ rest.getLast? ≠ some '@' := by
  have hfield (r r' : List Char) : splitField name r = splitField name r'
      ↔ splitType (trim r) = splitType (trim r') := by
    unfold splitField
    simp [Prod.ext_iff]
  rw [hfield]
  cases rest using List.reverseRecOn with
  | nil =>
    have hstart : trimStart w = [] := List.dropWhile_eq_nil_iff.mpr hw
    have htrim : trim (w ++ [';']) = [';'] := by
      rw [trim_append_cons (by decide), hstart]
      rfl
    rw [List.nil_append, htrim]
    exact iff_of_true rfl (.inr (by simp))
  | append_singleton init c =>
    have hc : isBlank c = false := trimEnd_eq_self_iff.mp hend c List.getLast?_concat
    rw [List.getLast?_concat, Ne, Option.some.injEq] at hsemicolon
    have htrim : trim (init ++ [c] ++ w ++ [';']) = trimStart init ++ c :: w ++ [';'] := by
      rw [trim_append_cons (by decide), List.append_assoc, List.singleton_append,
        trimStart_append_cons hc]
      rfl
    rw [htrim, trim_append_blanks hc (by simp), List.getLast?_concat, Ne, Option.some.injEq]
    by_cases hnil : w = []
    · rw [hnil]
      refine iff_of_true ?_ (.inl rfl)
      exact splitType_concat_semicolon (by simpa using hsemicolon)
    · by_cases hsign : c = '@'
      · rw [hsign]
        refine iff_of_false (splitType_sign_blanks hnil ?_ _) (by simpa using hnil)
        exact fun hmem => absurd (hw '@' hmem) (by decide)
      · exact iff_of_true (splitType_blanks hc hsign hsemicolon hw _) (.inr hsign)

/-! ## Field lines -/

/-- What is put behind a field line comes after its colon. -/
theorem classify_append {text : List Char} {f : FieldLine} (h : classify text = .field f) :
    ∃ as bs, text = as ++ ':' :: bs
      ∧ ∀ tail, classify (text ++ tail) = .field (splitField as (bs ++ tail)) := by
  obtain ⟨as, bs, rfl, hcolon, hopens, -⟩ := classify_eq_field h
  refine ⟨as, bs, rfl, ?_⟩
  intro tail
  rw [List.append_assoc, List.cons_append]
  exact classify_colon hcolon (hopens.of_isPrefix (List.prefix_append _ _)) _

/-- **A semicolon at the end of a field line** changes nothing. Blanks between the line and the
semicolon change nothing either, exactly if the line does not end in the sign of an annotation. -/
theorem classify_append_semicolon {text : List Char} {f : FieldLine} (htrim : trim text = text)
    (hfield : classify text = .field f) (hend : text.getLast? ≠ some ';') :
    classify (text ++ [';']) = classify text
      ∧ ∀ w : List Char, w ≠ [] → (∀ b ∈ w, isBlank b = true) →
        (classify (text ++ w ++ [';']) = classify text ↔ text.getLast? ≠ some '@') := by
  obtain ⟨as, bs, rfl, hclassify⟩ := classify_append hfield
  have hbs : trimEnd bs = bs := by
    have hline := (trim_eq_self_iff.mp htrim).2
    rw [trimEnd_append_cons (by decide)] at hline
    exact (List.cons.inj (List.append_cancel_left hline)).2
  -- a line that ends in its colon ends in neither of the two
  have hlast {x : Char} (hx : x ≠ ':') :
      (as ++ ':' :: bs).getLast? = some x ↔ bs.getLast? = some x := by
    cases bs with
    | nil => simpa using hx.symm
    | cons b bs => simp [List.getLast?_append, List.getLast?_cons_cons]
  rw [Ne, hlast (by decide)] at hend
  have hwith (w : List Char) (hw : ∀ b ∈ w, isBlank b = true) :
      classify (as ++ ':' :: bs ++ w ++ [';']) = classify (as ++ ':' :: bs)
        ↔ w = [] ∨ bs.getLast? ≠ some '@' := by
    have hself := hclassify []
    rw [List.append_nil, List.append_nil] at hself
    rw [List.append_assoc, hclassify, hself, ← List.append_assoc, Line.field.injEq]
    exact splitField_append_semicolon hbs hend hw as
  refine ⟨?_, ?_⟩
  · have hnone := (hwith [] (by simp)).mpr (.inl rfl)
    rwa [List.append_nil] at hnone
  · intro w hne hw
    rw [hwith w hw, or_iff_right hne, Ne, Ne, hlast (by decide)]

/-- Blanks before the semicolon make a second annotation of the sign at the end of this line, and
leave the line before the sign as it is. -/
theorem classify_append_semicolon_sign :
    let bare := "a: b @c @".toList
    let named := "a: b @c".toList
    classify (bare ++ [';']) = classify bare
      ∧ classify (bare ++ [' ', '\t'] ++ [';']) ≠ classify bare
      ∧ classify (named ++ [' ', '\t'] ++ [';']) = classify named := by
  intro bare named
  let f : FieldLine := ⟨['a'], ['b'], [['c']]⟩
  have hbare := classify_append_semicolon (by decide : trim bare = bare)
    (by decide : classify bare = .field f) (by decide)
  have hnamed := classify_append_semicolon (by decide : trim named = named)
    (by decide : classify named = .field f) (by decide)
  have hblanks : ∀ b ∈ [' ', '\t'], isBlank b = true :=
    List.forall_mem_cons.mpr ⟨rfl, List.forall_mem_singleton.mpr rfl⟩
  refine ⟨hbare.1, ?_, ?_⟩
  · rw [Ne, hbare.2 [' ', '\t'] (by decide) hblanks]
    decide
  · rw [hnamed.2 [' ', '\t'] (by decide) hblanks]
    decide

end EntitySchema.Line
