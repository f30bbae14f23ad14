import Mathlib.Data.List.Forall2
import EntitySchema.Proofs.JsonTokens

/-!
# JSON texts

`Reads` says that the reader takes a text for a value, whatever stands behind it. One lemma for each
kind of value says which texts these are, with blanks wherever they may stand, and both printers
write such texts. So what they write is read back (`parse?_compact`, `parse?_pretty`).
-/

namespace EntitySchema.Json

/-! ## Blanks -/

/-- There are only blanks in the text. -/
def Blanks (cs : List Char) : Prop := ∀ c ∈ cs, isSpace c = true

theorem blanks_nil : Blanks [] := by simp [Blanks]

theorem blanks_space : Blanks [' '] := by simp [Blanks, isSpace]

theorem skipSpace_append {gap : List Char} (h : Blanks gap) (cs : List Char) :
    skipSpace (gap ++ cs) = skipSpace cs := List.dropWhile_append_of_pos h

theorem skipSpace_cons {c : Char} (h : isSpace c = false) (cs : List Char) :
    skipSpace (c :: cs) = c :: cs := List.dropWhile_cons_of_neg (by simp [h])

theorem skipSpace_skipSpace (cs : List Char) : skipSpace (skipSpace cs) = skipSpace cs := by
  induction cs with
  | nil => rfl
  | cons c cs ih =>
    cases h : isSpace c with
    | true => simpa only [skipSpace, List.dropWhile_cons_of_pos h] using ih
    | false => rw [skipSpace_cons h, skipSpace_cons h]

/-! ## One step of the reader -/

theorem value?_skipSpace (fuel : Nat) (cs : List Char) :
    value? fuel (skipSpace cs) = value? fuel cs := by
  cases fuel with
  | zero => rfl
  | succ fuel => rw [value?, value?, skipSpace_skipSpace]

theorem items?_skipSpace (fuel : Nat) (cs : List Char) :
    items? fuel (skipSpace cs) = items? fuel cs := by
  cases fuel with
  | zero => rfl
  | succ fuel => rw [items?, items?, value?_skipSpace]

theorem members?_skipSpace (fuel : Nat) (cs : List Char) :
    members? fuel (skipSpace cs) = members? fuel cs := by
  cases fuel with
  | zero => rfl
  | succ fuel => rw [members?, members?, skipSpace_skipSpace]

theorem items?_bracket (fuel : Nat) (cs : List Char) : items? fuel (']' :: cs) = none := by
  have hvalue (fuel : Nat) : value? fuel (']' :: cs) = none := by
    cases fuel <;> rfl
  cases fuel with
  | zero => rfl
  | succ fuel => rw [items?, hvalue]

theorem members?_brace (fuel : Nat) (cs : List Char) : members? fuel ('\x7d' :: cs) = none := by
  cases fuel <;> rfl

theorem value?_number {c : Char} (hc : c.isDigit = true ∨ c = '-') (fuel : Nat) (cs : List Char) :
    value? (fuel + 1) (c :: cs) = number? (c :: cs) := by
  have hne (d : Char) (hd : d.isDigit = false ∧ d ≠ '-') : c ≠ d := by
    rintro rfl
    rcases hc with hdigit | hsign
    · simp [hd.1] at hdigit
    · exact hd.2 hsign
  have hspace : isSpace c = false := by
    simp [isSpace, hne ' ' (by decide), hne '\t' (by decide), hne '\n' (by decide),
      hne '\r' (by decide)]
  rw [value?, skipSpace_cons hspace]
  split
  case h_7 => rfl
  all_goals
    next heq =>
      obtain ⟨rfl, -⟩ := List.cons.inj heq
      exact absurd hc (by decide)

theorem value?_string (s : String) (fuel : Nat) (rest : List Char) :
    value? (fuel + 1) ((quoted s).toList ++ rest) = some (.str s, rest) := by
  obtain ⟨pieces, hread, htext⟩ := stringTail_escaped s.toList rest
  rw [toList_quoted, List.cons_append, List.append_assoc, List.singleton_append, value?,
    skipSpace_cons (by decide)]
  simp only [hread, Option.map_some, ofPieces, htext, String.ofList_toList]

theorem value?_items {fuel : Nat} {cs rest : List Char} {items : List Json}
    (h : items? fuel cs = some (items, rest)) :
    value? (fuel + 1) ('[' :: cs) = some (.arr items, rest) := by
  rw [value?, skipSpace_cons (by decide)]
  simp only
  split
  next heq =>
    rw [← items?_skipSpace, heq, items?_bracket] at h
    contradiction
  next => rw [items?_skipSpace, h, Option.map_some]

theorem value?_members {fuel : Nat} {cs rest : List Char} {members : List (String × Json)}
    (h : members? fuel cs = some (some members, rest)) :
    value? (fuel + 1) ('\x7b' :: cs) = some (.obj members, rest) := by
  rw [value?, skipSpace_cons (by decide)]
  simp only
  split
  next heq =>
    rw [← members?_skipSpace, heq, members?_brace] at h
    contradiction
  next => rw [members?_skipSpace, h, Option.map_some]

/-! ## Texts that are read as a value -/

/-- The reader takes the text for the value, whatever follows that does not go on with a number. -/
def Reads (j : Json) (cs : List Char) : Prop :=
  ∀ fuel rest, cs.length ≤ fuel → EndsNumber rest → value? fuel (cs ++ rest) = some (j, rest)

/-- The reader takes the text for the elements of an array and the bracket behind them. -/
def ReadsItems (items : List Json) (cs : List Char) : Prop :=
  ∀ fuel rest, cs.length ≤ fuel → items? fuel (cs ++ rest) = some (items, rest)

/-- The reader takes the text for the members of an object and the brace behind them. -/
def ReadsMembers (members : List (String × Json)) (cs : List Char) : Prop :=
  ∀ fuel rest, cs.length ≤ fuel → members? fuel (cs ++ rest) = some (some members, rest)

theorem exists_succ_of_length {c : Char} {cs : List Char} {fuel : Nat}
    (h : (c :: cs).length ≤ fuel) : ∃ n, fuel = n + 1 ∧ cs.length ≤ n := by
  rw [List.length_cons] at h
  exact ⟨fuel - 1, by omega, by omega⟩

theorem skipSpace_gap {gap : List Char} (hgap : Blanks gap) {c : Char} (hc : isSpace c = false)
    (cs : List Char) : skipSpace (gap ++ c :: cs) = c :: cs := by
  rw [skipSpace_append hgap, skipSpace_cons hc]

/-- Blanks and then a sign of JSON do not go on with a number. -/
theorem endsNumber_gap {gap : List Char} (hgap : Blanks gap) {c : Char}
    (hc : c = ',' ∨ c = ']' ∨ c = '\x7d') (cs : List Char) : EndsNumber (gap ++ c :: cs) := by
  cases gap with
  | nil =>
    rw [List.nil_append, endsNumber_cons]
    rcases hc with rfl | rfl | rfl <;> decide
  | cons d gap =>
    have hd := hgap d List.mem_cons_self
    rw [List.cons_append, endsNumber_cons]
    simp only [isSpace, Bool.or_eq_true, beq_iff_eq] at hd
    rcases hd with ((rfl | rfl) | rfl) | rfl <;> decide

theorem reads_null : Reads .null "null".toList := by
  intro fuel rest hfuel _
  obtain ⟨fuel, rfl, -⟩ := exists_succ_of_length hfuel
  rfl

theorem reads_bool (b : Bool) : Reads (.bool b) (if b then "true" else "false").toList := by
  intro fuel rest hfuel _
  cases b <;> obtain ⟨fuel, rfl, -⟩ := exists_succ_of_length hfuel <;> rfl

theorem reads_int (n : Int) : Reads (.int n) (toString n).toList := by
  intro fuel rest hfuel hrest
  obtain ⟨c, cs, hcs, hc⟩ := exists_toString_eq_cons n
  rw [hcs] at hfuel
  obtain ⟨fuel, rfl, -⟩ := exists_succ_of_length hfuel
  rw [hcs, List.cons_append, value?_number hc, ← List.cons_append, ← hcs,
    number?_toString n hrest]

theorem reads_str (s : String) : Reads (.str s) (quoted s).toList := by
  intro fuel rest hfuel _
  rw [toList_quoted] at hfuel
  obtain ⟨fuel, rfl, -⟩ := exists_succ_of_length hfuel
  exact value?_string s fuel rest

theorem Reads.spaced {j : Json} {gap cs : List Char} (hgap : Blanks gap) (h : Reads j cs) :
    Reads j (gap ++ cs) := by
  intro fuel rest hfuel hrest
  rw [List.length_append] at hfuel
  rw [List.append_assoc, ← value?_skipSpace, skipSpace_append hgap, value?_skipSpace]
  exact h fuel rest (by omega) hrest

/-! ### Arrays -/

theorem reads_noItems : Reads (.arr []) ['[', ']'] := by
  intro fuel rest hfuel _
  obtain ⟨fuel, rfl, -⟩ := exists_succ_of_length hfuel
  rfl

theorem ReadsItems.reads {items : List Json} {cs : List Char} (h : ReadsItems items cs) :
    Reads (.arr items) ('[' :: cs) := by
  intro fuel rest hfuel _
  obtain ⟨fuel, rfl, hle⟩ := exists_succ_of_length hfuel
  exact value?_items (h fuel rest hle)

theorem Reads.lastItem {j : Json} {cs gap : List Char} (h : Reads j cs) (hgap : Blanks gap) :
    ReadsItems [j] (cs ++ (gap ++ [']'])) := by
  intro fuel rest hfuel
  simp only [List.length_append, List.length_singleton] at hfuel
  obtain ⟨fuel, rfl⟩ : ∃ n, fuel = n + 1 := ⟨fuel - 1, by omega⟩
  have hends : EndsNumber (gap ++ ']' :: rest) := endsNumber_gap hgap (.inr (.inl rfl)) rest
  simp only [List.append_assoc, List.singleton_append]
  rw [items?, h fuel _ (by omega) hends]
  simp only [skipSpace_gap hgap (show isSpace ']' = false by decide)]

theorem Reads.consItem {j : Json} {items : List Json} {cs ds : List Char} (h : Reads j cs)
    (hitems : ReadsItems items ds) : ReadsItems (j :: items) (cs ++ ',' :: ds) := by
  intro fuel rest hfuel
  simp only [List.length_append, List.length_cons] at hfuel
  obtain ⟨fuel, rfl⟩ : ∃ n, fuel = n + 1 := ⟨fuel - 1, by omega⟩
  have hends : EndsNumber (',' :: (ds ++ rest)) := endsNumber_cons.mpr (by decide)
  simp only [List.append_assoc, List.cons_append]
  rw [items?, h fuel _ (by omega) hends]
  simp only [skipSpace_cons (show isSpace ',' = false by decide), hitems fuel rest (by omega),
    Option.map_some]

/-! ### Objects -/

theorem reads_noMembers : Reads (.obj []) ['\x7b', '\x7d'] := by
  intro fuel rest hfuel _
  obtain ⟨fuel, rfl, -⟩ := exists_succ_of_length hfuel
  rfl

theorem ReadsMembers.reads {members : List (String × Json)} {cs : List Char}
    (h : ReadsMembers members cs) : Reads (.obj members) ('\x7b' :: cs) := by
  intro fuel rest hfuel _
  obtain ⟨fuel, rfl, hle⟩ := exists_succ_of_length hfuel
  exact value?_members (h fuel rest hle)

/-- The reader takes the text for the member. -/
def ReadsMember (m : String × Json) (cs : List Char) : Prop :=
  ∃ gap ds, Blanks gap ∧ Reads m.2 ds ∧ cs = gap ++ ((quoted m.1).toList ++ ':' :: ds)

theorem ReadsMember.spaced {m : String × Json} {gap cs : List Char} (hgap : Blanks gap)
    (h : ReadsMember m cs) : ReadsMember m (gap ++ cs) := by
  obtain ⟨lead, ds, hlead, hds, rfl⟩ := h
  refine ⟨gap ++ lead, ds, ?_, hds, by rw [List.append_assoc]⟩
  exact fun c hc => (List.mem_append.mp hc).elim (hgap c) (hlead c)

/-- What the reader finds in the text for a member. -/
theorem ReadsMember.found {m : String × Json} {cs : List Char} (h : ReadsMember m cs) {fuel : Nat}
    (hfuel : cs.length ≤ fuel) {rest : List Char} (hrest : EndsNumber rest) :
    ∃ token pieces afterKey afterColon, skipSpace (cs ++ rest) = '"' :: token
      ∧ stringTail token = some (pieces, afterKey) ∧ text? pieces = some m.1
      ∧ skipSpace afterKey = ':' :: afterColon ∧ value? fuel afterColon = some (m.2, rest) := by
  obtain ⟨gap, ds, hgap, hds, rfl⟩ := h
  simp only [List.length_append, List.length_cons] at hfuel
  obtain ⟨pieces, hread, htext⟩ := stringTail_escaped m.1.toList (':' :: (ds ++ rest))
  refine ⟨_, pieces, _, ds ++ rest, ?_, hread, ?_, ?_, hds fuel rest (by omega) hrest⟩
  · simp only [toList_quoted, List.append_assoc, List.cons_append, List.nil_append]
    exact skipSpace_gap hgap (by decide) _
  · rw [htext, String.ofList_toList]
  · exact skipSpace_cons (by decide) _

theorem ReadsMember.lastMember {m : String × Json} {cs gap : List Char} (h : ReadsMember m cs)
    (hgap : Blanks gap) : ReadsMembers [m] (cs ++ (gap ++ ['\x7d'])) := by
  intro fuel rest hfuel
  simp only [List.length_append, List.length_singleton] at hfuel
  obtain ⟨fuel, rfl⟩ : ∃ n, fuel = n + 1 := ⟨fuel - 1, by omega⟩
  have hends : EndsNumber (gap ++ '\x7d' :: rest) := endsNumber_gap hgap (.inr (.inr rfl)) rest
  obtain ⟨token, pieces, afterKey, afterColon, hquote, hkey, htext, hcolon, hvalue⟩ :=
    h.found (show _ ≤ fuel by omega) hends
  simp only [List.append_assoc, List.singleton_append]
  rw [members?]
  simp only [hquote, hkey, htext, hcolon, hvalue,
    skipSpace_gap hgap (show isSpace '\x7d' = false by decide), Option.map_some]

theorem ReadsMember.consMember {m : String × Json} {members : List (String × Json)}
    {cs ds : List Char} (h : ReadsMember m cs) (hmembers : ReadsMembers members ds) :
    ReadsMembers (m :: members) (cs ++ ',' :: ds) := by
  intro fuel rest hfuel
  simp only [List.length_append, List.length_cons] at hfuel
  obtain ⟨fuel, rfl⟩ : ∃ n, fuel = n + 1 := ⟨fuel - 1, by omega⟩
  have hends : EndsNumber (',' :: (ds ++ rest)) := endsNumber_cons.mpr (by decide)
  obtain ⟨token, pieces, afterKey, afterColon, hquote, hkey, htext, hcolon, hvalue⟩ :=
    h.found (show _ ≤ fuel by omega) hends
  simp only [List.append_assoc, List.cons_append]
  rw [members?]
  simp only [hquote, hkey, htext, hcolon, hvalue,
    skipSpace_cons (show isSpace ',' = false by decide), hmembers fuel rest (by omega),
    Option.map_some, Option.bind_some]

/-! ### The whole text -/

/-- The fuel of the reader is enough for the whole text. -/
theorem parse?_of_reads {j : Json} {text : String} (h : Reads j text.toList) :
    parse? text = some j := by
  have hread := h (2 * text.toList.length + 2) [] (by omega) endsNumber_nil
  rw [List.append_nil] at hread
  simp only [parse?, hread]
  rfl

/-! ## Parts between brackets -/

/-- Parts with commas between them are read as a list of parts, when this holds of the last part
with what closes the list, and of a part in front of a list. Both printers write such lists, with
nothing or a new line in front of each part. -/
theorem reads_intercalate {α : Type} {R : α → List Char → Prop} {S : List α → List Char → Prop}
    {lead : String} {closing : List Char} (hspaced : ∀ x cs, R x cs → R x (lead.toList ++ cs))
    (hlast : ∀ x cs, R x cs → S [x] (cs ++ closing))
    (hcons : ∀ x xs cs ds, R x cs → S xs ds → S (x :: xs) (cs ++ ',' :: ds))
    {x : α} {xs : List α} {part : String} {parts : List String}
    (h : List.Forall₂ (fun x s => R x s.toList) (x :: xs) (part :: parts)) :
    S (x :: xs)
      (lead.toList ++ ((("," ++ lead).intercalate (part :: parts)).toList ++ closing)) := by
  induction xs generalizing x part parts with
  | nil =>
    obtain ⟨hx, ⟨⟩⟩ := List.forall₂_cons.mp h
    rw [String.intercalate_singleton, ← List.append_assoc]
    exact hlast x _ (hspaced x _ hx)
  | cons y xs ih =>
    obtain ⟨hx, htail⟩ := List.forall₂_cons.mp h
    cases htail with
    | cons hy hxs =>
      have hrest := hcons x (y :: xs) _ _ (hspaced x _ hx) (ih (.cons hy hxs))
      simpa [String.intercalate_cons_cons] using hrest

section

variable (lead tail : String) (hlead : Blanks lead.toList) (htail : Blanks tail.toList)

include hlead htail

theorem reads_items {items : List Json} {parts : List String}
    (h : List.Forall₂ (fun j s => Reads j s.toList) items parts) (hne : items ≠ []) :
    Reads (.arr items) ("[" ++ lead ++ ("," ++ lead).intercalate parts ++ tail ++ "]").toList := by
  cases h with
  | nil => exact absurd rfl hne
  | cons hj hjs =>
    have hitems := reads_intercalate (fun _ _ hx => Reads.spaced hlead hx)
      (fun _ _ hx => Reads.lastItem hx htail) (fun _ _ _ _ hx => hx.consItem) (.cons hj hjs)
    simpa using hitems.reads

theorem reads_members {members : List (String × Json)} {parts : List String}
    (h : List.Forall₂ (fun m s => ReadsMember m s.toList) members parts) (hne : members ≠ []) :
    Reads (.obj members)
      ("\x7b" ++ lead ++ ("," ++ lead).intercalate parts ++ tail ++ "\x7d").toList := by
  cases h with
  | nil => exact absurd rfl hne
  | cons hm hms =>
    have hmembers := reads_intercalate (fun _ _ hx => ReadsMember.spaced hlead hx)
      (fun _ _ hx => ReadsMember.lastMember hx htail) (fun _ _ _ _ hx => hx.consMember)
      (.cons hm hms)
    simpa using hmembers.reads

end

/-! ## The printers -/

mutual

/-- The value has numbers without a fraction and without an exponent only, and nothing that denotes
no value. -/
def Exact : Json → Prop
  | .real _ => False
  | .unreadable => False
  | .arr items => ExactItems items
  | .obj members => ExactMembers members
  | .null => True
  | .bool _ => True
  | .int _ => True
  | .str _ => True

/-- Each of the values is exact. -/
def ExactItems : List Json → Prop
  | [] => True
  | j :: js => Exact j ∧ ExactItems js

/-- Each of the members has an exact value. -/
def ExactMembers : List (String × Json) → Prop
  | [] => True
  | (_, j) :: ms => Exact j ∧ ExactMembers ms

end

mutual

theorem reads_compact : (j : Json) → j.Exact → Reads j (compact j).toList
  | .null, _ => reads_null
  | .bool true, _ => reads_bool true
  | .bool false, _ => reads_bool false
  | .int n, _ => reads_int n
  | .str s, _ => reads_str s
  | .arr [], _ => reads_noItems
  | .arr (j :: js), h => by
    have hitems := reads_items "" "" blanks_nil blanks_nil
      (reads_compactItems (j :: js) h) (List.cons_ne_nil j js)
    simpa [compact] using hitems
  | .obj [], _ => reads_noMembers
  | .obj (m :: ms), h => by
    have hmembers := reads_members "" "" blanks_nil blanks_nil
      (reads_compactMembers (m :: ms) h) (List.cons_ne_nil m ms)
    simpa [compact] using hmembers

theorem reads_compactItems : (js : List Json) → ExactItems js →
    List.Forall₂ (fun j s => Reads j s.toList) js (compactItems js)
  | [], _ => .nil
  | j :: js, h => .cons (reads_compact j h.1) (reads_compactItems js h.2)

theorem reads_compactMembers : (ms : List (String × Json)) → ExactMembers ms →
    List.Forall₂ (fun m s => ReadsMember m s.toList) ms (compactMembers ms)
  | [], _ => .nil
  | (_, j) :: ms, h =>
    .cons ⟨[], _, blanks_nil, reads_compact j h.1, by simp⟩ (reads_compactMembers ms h.2)

end

/-- **The compact text of a value is read as the value.** -/
theorem parse?_compact {j : Json} (h : j.Exact) : parse? (compact j) = some j :=
  parse?_of_reads (reads_compact j h)

theorem blanks_margin (depth : Nat) : Blanks ("\n" ++ margin depth).toList := by
  intro c hc
  have hor : c = '\n' ∨ c = ' ' := by
    simp only [margin, String.toList_append, String.toList_ofList, List.mem_append,
      List.mem_replicate] at hc
    exact hc.imp List.mem_singleton.mp And.right
  rcases hor with rfl | rfl <;> decide

mutual

theorem reads_prettyAt (depth : Nat) : (j : Json) → j.Exact → Reads j (prettyAt depth j).toList
  | .null, _ => reads_null
  | .bool true, _ => reads_bool true
  | .bool false, _ => reads_bool false
  | .int n, _ => reads_int n
  | .str s, _ => reads_str s
  | .arr [], _ => by simpa [prettyAt, prettyItems, bracketed] using reads_noItems
  | .arr (j :: js), h => by
    have hitems := reads_items _ _ (blanks_margin (depth + 1)) (blanks_margin depth)
      (reads_prettyItems (depth + 1) (j :: js) h) (List.cons_ne_nil j js)
    simpa [prettyAt, bracketed, prettyItems] using hitems
  | .obj [], _ => by simpa [prettyAt, prettyMembers, bracketed] using reads_noMembers
  | .obj (m :: ms), h => by
    have hmembers := reads_members _ _ (blanks_margin (depth + 1)) (blanks_margin depth)
      (reads_prettyMembers (depth + 1) (m :: ms) h) (List.cons_ne_nil m ms)
    simpa [prettyAt, bracketed, prettyMembers] using hmembers

theorem reads_prettyItems (depth : Nat) : (js : List Json) → ExactItems js →
    List.Forall₂ (fun j s => Reads j s.toList) js (prettyItems depth js)
  | [], _ => .nil
  | j :: js, h => .cons (reads_prettyAt depth j h.1) (reads_prettyItems depth js h.2)

theorem reads_prettyMembers (depth : Nat) : (ms : List (String × Json)) → ExactMembers ms →
    List.Forall₂ (fun m s => ReadsMember m s.toList) ms (prettyMembers depth ms)
  | [], _ => .nil
  | (_, j) :: ms, h =>
    .cons ⟨[], _, blanks_nil, (reads_prettyAt depth j h.1).spaced blanks_space, by simp⟩
      (reads_prettyMembers depth ms h.2)

end

/-- **The text of a value over several lines is read as the value.** -/
theorem parse?_pretty {j : Json} (h : j.Exact) : parse? (pretty j) = some j :=
  parse?_of_reads (reads_prettyAt 0 j h)

end EntitySchema.Json
