import EntitySchema.Proofs.Layout

/-!
# Lines tile the source

The spans of the lines are cut out of the source without dividing a character: `slice?` takes a
span for what it is, a number of bytes to skip and a number of bytes to keep, and gives nothing if
either ends inside a character. The text at the span of a line is the line (`slice?_placeLines`),
between two spans stands at least one line end (`pairwise_placeLines`), and what no span covers is
blank (`isBlank_of_uncovered`). How many lines there are is a matter of the line ends alone
(`length_rawLines`).
-/

namespace EntitySchema

namespace Text

/-! ## Slices -/

/-- The first `n` bytes of a text and what follows them, if a character ends there. -/
def cut? : Nat → List Char → Option (List Char × List Char)
  | 0, cs => some ([], cs)
  | _ + 1, [] => none
  | n + 1, c :: cs =>
    if c.utf8Size ≤ n + 1 then
      (cut? (n + 1 - c.utf8Size) cs).map fun (as, bs) => (c :: as, bs)
    else none

/-- The text at a span, if the span lies inside the text and its ends divide no character. -/
def slice? (cs : List Char) (s : Span) : Option (List Char) :=
  if s.start ≤ s.stop then
    (cut? s.start cs).bind fun (_, rest) => (cut? s.length rest).map Prod.fst
  else none

theorem byteSize_eq_zero_iff {cs : List Char} : byteSize cs = 0 ↔ cs = [] := by
  cases cs with
  | nil => exact iff_of_true rfl rfl
  | cons c cs =>
    have hpos := c.utf8Size_pos
    refine iff_of_false ?_ (List.cons_ne_nil c cs)
    rw [byteSize_cons]
    omega

theorem cut?_append (as bs : List Char) : cut? (byteSize as) (as ++ bs) = some (as, bs) := by
  induction as with
  | nil => rw [byteSize_nil, List.nil_append, cut?]
  | cons c as ih =>
    have hpos := c.utf8Size_pos
    obtain ⟨n, hn⟩ : ∃ n, byteSize (c :: as) = n + 1 :=
      Nat.exists_eq_add_one.mpr (by rw [byteSize_cons]; omega)
    rw [byteSize_cons] at hn
    have hrest : n + 1 - c.utf8Size = byteSize as := by omega
    rw [byteSize_cons, hn, List.cons_append, cut?, if_pos (by omega), hrest, ih]
    rfl

theorem append_of_cut? {n : Nat} {cs as bs : List Char} (h : cut? n cs = some (as, bs)) :
    cs = as ++ bs ∧ byteSize as = n := by
  induction cs generalizing n as with
  | nil =>
    cases n with
    | zero => rw [cut?] at h; cases h; exact ⟨rfl, rfl⟩
    | succ n => rw [cut?] at h; cases h
  | cons c cs ih =>
    cases n with
    | zero => rw [cut?] at h; cases h; exact ⟨rfl, rfl⟩
    | succ n =>
      rw [cut?] at h
      split at h
      · next hsize =>
        obtain ⟨⟨as', bs'⟩, hcut, heq⟩ := Option.map_eq_some_iff.mp h
        cases heq
        obtain ⟨hcs, hn⟩ := ih hcut
        refine ⟨by rw [hcs, List.cons_append], ?_⟩
        rw [byteSize_cons, hn]
        omega
      · cases h

/-- A slice is what stands between two other parts of the text, at the bytes that the span says. -/
theorem slice?_eq_some_iff {cs text : List Char} {s : Span} :
    slice? cs s = some text ↔ ∃ before after, cs = before ++ (text ++ after)
      ∧ byteSize before = s.start ∧ s.stop = s.start + byteSize text := by
  refine ⟨?_, ?_⟩
  · intro h
    unfold slice? at h
    split at h
    · next hle =>
      obtain ⟨⟨before, rest⟩, hbefore, hrest⟩ := Option.bind_eq_some_iff.mp h
      obtain ⟨⟨text', after⟩, htext, rfl⟩ := Option.map_eq_some_iff.mp hrest
      obtain ⟨hcs, hstart⟩ := append_of_cut? hbefore
      obtain ⟨rfl, hlength⟩ := append_of_cut? htext
      refine ⟨before, after, hcs, hstart, ?_⟩
      rw [hlength]
      unfold Span.length
      omega
    · cases h
  · intro h
    obtain ⟨before, after, rfl, hstart, hstop⟩ := h
    have hlength : s.length = byteSize text := by unfold Span.length; omega
    unfold slice?
    rw [if_pos (by omega), ← hstart, cut?_append, Option.bind_some, hlength]
    dsimp only
    rw [cut?_append]
    rfl

/-- The first character takes two bytes, and the second of them is no place to cut at. -/
example : slice? "é b".toList ⟨2, 4⟩ = some [' ', 'b'] ∧ slice? "é b".toList ⟨1, 4⟩ = none := by
  decide

/-- A character of two texts put together stands in the first or in the second. -/
theorem exists_of_append_eq {as bs before after : List Char} {c : Char}
    (h : as ++ bs = before ++ c :: after) :
    (∃ rest, as = before ++ c :: rest) ∨ ∃ more, before = as ++ more ∧ bs = more ++ c :: after := by
  obtain ⟨more, hbefore, hbs⟩ | ⟨rest, has, hrest⟩ := List.append_eq_append_iff.mp h
  · exact .inr ⟨more, hbefore, hbs⟩
  · cases rest with
    | nil => exact .inr ⟨[], by simpa using has.symm, by simpa using hrest.symm⟩
    | cons c' rest =>
      obtain ⟨rfl, -⟩ := List.cons.inj hrest
      exact .inl ⟨rest, has⟩

end Text

open Text

/-! ## One line -/

theorem LineEnd.isBlank_of_mem_chars {e : LineEnd} {c : Char} (h : c ∈ e.chars) :
    isBlank c = true := by
  have hall : e.chars.all isBlank = true := by cases e <;> rfl
  exact List.all_eq_true.mp hall c h

/-- A trimmed line stands behind the blanks in front of it. -/
theorem SourceLine.exists_ofRaw (offset : Nat) (body : List Char) :
    ∃ lead tail, body = lead ++ (trim body ++ tail)
      ∧ (∀ b ∈ lead, isBlank b = true) ∧ (∀ b ∈ tail, isBlank b = true)
      ∧ ofRaw offset body = ⟨trim body, ⟨offset + byteSize lead,
          offset + byteSize lead + byteSize (trim body)⟩⟩ := by
  obtain ⟨lead, tail, hbody, hstart, hlead, htail⟩ := exists_trim_append body
  have hsize : byteSize body - byteSize (trimStart body) = byteSize lead := by
    have hbytes := congrArg byteSize hbody
    rw [byteSize_append, ← hstart] at hbytes
    omega
  refine ⟨lead, tail, hbody, hlead, htail, ?_⟩
  unfold ofRaw
  rw [hsize]

/-- A character of a line that its span does not cover is blank. -/
theorem RawLine.isBlank_of_uncovered (l : RawLine) (offset : Nat) {before after : List Char}
    {c : Char} (hchars : l.chars = before ++ c :: after)
    (hout : offset + Text.byteSize before < (SourceLine.ofRaw offset l.body).span.start
      ∨ (SourceLine.ofRaw offset l.body).span.stop ≤ offset + Text.byteSize before) :
    isBlank c = true := by
  obtain ⟨lead, tail, hbody, hlead, htail, hline⟩ := SourceLine.exists_ofRaw offset l.body
  rw [hline] at hout
  dsimp only at hout
  unfold chars at hchars
  rw [hbody, List.append_assoc, List.append_assoc] at hchars
  -- in front of the span, in the span, behind it
  obtain ⟨rest, hfront⟩ | ⟨more, hbefore, hrest⟩ := exists_of_append_eq hchars
  · exact hlead c (hfront ▸ List.mem_append_cons_self)
  · obtain ⟨rest, htrim⟩ | ⟨more', hmore, hbehind⟩ := exists_of_append_eq hrest
    · have hpos := c.utf8Size_pos
      rw [hbefore, htrim] at hout
      simp only [Text.byteSize_append, Text.byteSize_cons] at hout
      omega
    · have hmem : c ∈ tail ++ l.ending.chars := hbehind ▸ List.mem_append_cons_self
      obtain hmem | hmem := List.mem_append.mp hmem
      · exact htail c hmem
      · exact LineEnd.isBlank_of_mem_chars hmem

/-! ## Lines, one behind the other -/

theorem le_start_of_mem_placeLines {ls : List RawLine} {l : SourceLine} :
    ∀ {offset : Nat}, l ∈ placeLines offset ls → offset ≤ l.span.start := by
  induction ls with
  | nil => intro offset h; exact absurd h List.not_mem_nil
  | cons raw ls ih =>
    intro offset h
    obtain rfl | h := List.mem_cons.mp h
    · exact Nat.le_add_right _ _
    · exact (Nat.le_add_right _ _).trans (ih h)

/-- **The text at the span of a line is the line.** -/
theorem slice?_placeLines (ls : List RawLine) :
    ∀ before, ∀ l ∈ placeLines (byteSize before) ls,
      slice? (before ++ ls.flatMap RawLine.chars) l.span = some l.text := by
  induction ls with
  | nil => intro before l h; exact absurd h List.not_mem_nil
  | cons raw ls ih =>
    intro before l h
    rw [List.flatMap_cons]
    obtain rfl | h := List.mem_cons.mp h
    · obtain ⟨lead, tail, hbody, -, -, hline⟩ :=
        SourceLine.exists_ofRaw (byteSize before) raw.body
      rw [hline, slice?_eq_some_iff]
      refine ⟨before ++ lead, tail ++ (raw.ending.chars ++ ls.flatMap RawLine.chars), ?_, ?_, rfl⟩
      · unfold RawLine.chars
        rw [congrArg (· ++ raw.ending.chars) hbody]
        simp only [List.append_assoc]
      · exact byteSize_append _ _
    · have hnext := ih (before ++ raw.chars) l
      rw [byteSize_append, RawLine.byteSize_chars, List.append_assoc] at hnext
      exact hnext h

/-- **Between two spans stands a line end**, if every line but the last has one. -/
theorem pairwise_placeLines {ls : List RawLine} (h : ls.Pairwise fun a _ => a.ending ≠ .none) :
    ∀ offset, (placeLines offset ls).Pairwise fun a b => a.span.stop < b.span.start := by
  induction ls with
  | nil => intro offset; exact .nil
  | cons raw ls ih =>
    intro offset
    obtain ⟨hends, hls⟩ := List.pairwise_cons.mp h
    refine List.pairwise_cons.mpr ⟨?_, ih hls _⟩
    intro l hl
    have hstart := le_start_of_mem_placeLines hl
    obtain ⟨lead, tail, hbody, -, -, hline⟩ := SourceLine.exists_ofRaw offset raw.body
    have hbytes := congrArg byteSize hbody
    have hend : 0 < raw.ending.byteSize := by
      cases ls with
      | nil => exact absurd hl List.not_mem_nil
      | cons next ls =>
        have hne := hends next List.mem_cons_self
        cases he : raw.ending with
        | none => exact absurd he hne
        | _ => decide
    rw [hline]
    unfold RawLine.byteSize at hstart
    simp only [byteSize_append] at hbytes
    dsimp only
    omega

/-- **A character that no span covers is blank.** -/
theorem isBlank_of_uncovered {ls : List RawLine} {c : Char} {after : List Char} :
    ∀ (offset : Nat) {before : List Char}, ls.flatMap RawLine.chars = before ++ c :: after →
      (∀ l ∈ placeLines offset ls, offset + byteSize before < l.span.start
        ∨ l.span.stop ≤ offset + byteSize before) → isBlank c = true := by
  induction ls with
  | nil => intro offset before h; simp at h
  | cons raw ls ih =>
    intro offset before h hout
    obtain ⟨hfirst, hrest⟩ := List.forall_mem_cons.mp hout
    rw [List.flatMap_cons] at h
    obtain ⟨rest, hraw⟩ | ⟨more, rfl, hls⟩ := exists_of_append_eq h
    · exact raw.isBlank_of_uncovered offset hraw hfirst
    · refine ih (offset + raw.byteSize) hls ?_
      rw [byteSize_append, RawLine.byteSize_chars, ← Nat.add_assoc] at hrest
      exact hrest

/-! ## Line ends -/

/-- How many line ends a text has. A carriage return before a line feed is part of its line end. -/
def lineEnds : List Char → Nat
  | [] => 0
  | c :: cs => (if c = '\n' ∨ c = '\r' ∧ cs.head? ≠ some '\n' then 1 else 0) + lineEnds cs

/-- Every line but the last has a line end. -/
theorem pairwise_ending_rawLines (cs : List Char) :
    (rawLines cs).Pairwise fun a _ => a.ending ≠ .none := by
  induction cs with
  | nil => exact .nil
  | cons c cs ih =>
    rw [rawLines_cons]
    generalize rawLines cs = ls at ih
    unfold RawLine.prepend
    split
    · exact List.pairwise_cons.mpr ⟨by simp, ih⟩
    · split
      · split
        · exact List.pairwise_cons.mpr ⟨by simp, (List.pairwise_cons.mp ih).2⟩
        · exact List.pairwise_cons.mpr ⟨by simp, ih⟩
      · split
        · exact List.pairwise_singleton _ _
        · exact List.pairwise_cons.mpr (List.pairwise_cons.mp ih)

/-- The first line is an empty one with a line feed only if the text starts with a line feed. -/
theorem head?_of_rawLines {cs : List Char} {rest : List RawLine}
    (h : rawLines cs = ⟨[], .lf⟩ :: rest) : cs.head? = some '\n' := by
  cases cs with
  | nil => cases h
  | cons c cs =>
    rw [rawLines_cons] at h
    unfold RawLine.prepend at h
    split at h
    · next hc => rw [hc]; rfl
    · split at h
      · split at h
        · cases h
        · cases h
      · split at h
        · cases h
        · cases h

/-- A line end makes a line, unless it is a carriage return and a line feed follows it. -/
theorem length_prepend_of_isLineEnd {c : Char} (h : isLineEnd c = true) (cs : List Char) :
    (RawLine.prepend c (rawLines cs)).length
      = (if c = '\n' ∨ c = '\r' ∧ cs.head? ≠ some '\n' then 1 else 0)
        + (rawLines cs).length := by
  by_cases hlf : c = '\n'
  · unfold RawLine.prepend
    rw [if_pos hlf, if_pos (.inl hlf), List.length_cons, Nat.add_comm]
  · obtain rfl : c = '\r' := by simpa [isLineEnd, hlf] using h
    by_cases hhead : cs.head? = some '\n'
    · obtain ⟨rest, rfl⟩ := List.head?_eq_some_iff.mp hhead
      rw [if_neg (by simp), Nat.zero_add]
      rfl
    · rw [if_pos (.inr ⟨rfl, hhead⟩)]
      unfold RawLine.prepend
      rw [if_neg (by decide), if_pos rfl]
      split
      · next hls => exact absurd (head?_of_rawLines hls) hhead
      · rw [List.length_cons, Nat.add_comm]

theorem ended_cons_of_ne_nil (c : Char) {cs : List Char} (h : cs ≠ []) :
    Ended (c :: cs) ↔ Ended cs := by
  obtain ⟨d, ds, rfl⟩ := List.exists_cons_of_ne_nil h
  unfold Ended
  rw [List.getLast?_cons_cons]

theorem ended_cons_of_isLineEnd {c : Char} (h : isLineEnd c = true) (cs : List Char) :
    Ended (c :: cs) ↔ Ended cs := by
  cases cs with
  | nil => exact iff_of_true (by simpa [Ended] using h) (by simp [Ended])
  | cons d ds => exact ended_cons_of_ne_nil c (List.cons_ne_nil d ds)

/-- **There is a line for each line end, and one for what follows the last of them.** -/
theorem length_rawLines (cs : List Char) :
    (Ended cs → (rawLines cs).length = lineEnds cs)
      ∧ (¬ Ended cs → (rawLines cs).length = lineEnds cs + 1) := by
  induction cs with
  | nil => exact ⟨fun _ => rfl, fun h => absurd (by simp [Ended]) h⟩
  | cons c cs ih =>
    rw [rawLines_cons]
    unfold lineEnds
    cases hc : isLineEnd c with
    | true =>
      rw [ended_cons_of_isLineEnd hc, length_prepend_of_isLineEnd hc]
      simp only [Nat.add_assoc, Nat.add_left_cancel_iff]
      exact ih
    | false =>
      have hends : ¬ c = '\n' ∧ ¬ c = '\r' := by simpa [isLineEnd] using hc
      rw [if_neg (by simp [hends]), Nat.zero_add]
      cases cs with
      | nil =>
        -- the text is one character, and that does not end the line
        refine ⟨fun hended => absurd (hended c rfl) (by simp [hc]), fun _ => ?_⟩
        unfold RawLine.prepend
        rw [if_neg hends.1, if_neg hends.2]
        rfl
      | cons d ds =>
        obtain ⟨first, rest, hlines⟩ :=
          List.exists_cons_of_ne_nil (rawLines_ne_nil (List.cons_ne_nil d ds))
        rw [ended_cons_of_ne_nil c (List.cons_ne_nil d ds), hlines,
          RawLine.prepend_of_not_end hends.1 hends.2]
        rw [hlines] at ih
        exact ih

/-! ## The lines of a source -/

/-- The lines are what the text holds but for blanks, in order. -/
structure Tiles (cs : List Char) (ls : List SourceLine) : Prop where
  /-- Each line is the text at its span. -/
  slice : ∀ l ∈ ls, slice? cs l.span = some l.text
  trimmed : ∀ l ∈ ls, trim l.text = l.text
  oneLine : ∀ l ∈ ls, OneLine l.text
  /-- No span starts before the one in front of it has ended. -/
  ordered : ls.Pairwise fun a b => a.span.stop < b.span.start
  /-- A character that no span covers is blank. -/
  gaps : ∀ before c after, cs = before ++ c :: after →
    (∀ l ∈ ls, byteSize before < l.span.start ∨ l.span.stop ≤ byteSize before) → isBlank c = true

theorem exists_rawLine_of_mem_lines {cs : List Char} {l : SourceLine} (h : l ∈ lines cs) :
    ∃ raw ∈ rawLines cs, l.text = trim raw.body := by
  have hmem := List.mem_map_of_mem h (f := SourceLine.text)
  unfold lines linesAt at hmem
  rw [map_text_placeLines, List.map_map] at hmem
  obtain ⟨raw, hraw, htext⟩ := List.mem_map.mp hmem
  exact ⟨raw, hraw, htext.symm⟩

/-- **The lines of a source tile it.** -/
theorem tiles_lines (cs : List Char) : Tiles cs (lines cs) where
  slice := by
    intro l hl
    have hslice := slice?_placeLines (rawLines cs) [] l hl
    rwa [List.nil_append, flatMap_chars_rawLines] at hslice
  trimmed := by
    intro l hl
    obtain ⟨raw, _, htext⟩ := exists_rawLine_of_mem_lines hl
    rw [htext, trim_idem]
  oneLine := by
    intro l hl
    obtain ⟨raw, hraw, htext⟩ := exists_rawLine_of_mem_lines hl
    rw [htext]
    exact (oneLine_of_mem_rawLines cs raw hraw).of_subset (trim_subset raw.body)
  ordered := pairwise_placeLines (pairwise_ending_rawLines cs) 0
  gaps := by
    intro before c after hcs hout
    rw [← flatMap_chars_rawLines cs] at hcs
    refine isBlank_of_uncovered 0 hcs ?_
    rw [Nat.zero_add]
    exact hout

theorem length_lines (cs : List Char) : (lines cs).length = (rawLines cs).length := by
  have hlength := congrArg List.length (map_text_placeLines (rawLines cs) 0)
  simp only [List.length_map] at hlength
  exact hlength

end EntitySchema
