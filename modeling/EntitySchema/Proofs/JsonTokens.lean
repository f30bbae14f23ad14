import EntitySchema.Json.Parser
import EntitySchema.Json.Printer

/-!
# Tokens of JSON texts

A string is written between quotes, with some of its characters escaped, and an integer in decimal
digits. Both are read back as what they were, with any text behind them that cannot belong to them
(`stringTail_escaped`, `number?_toString`).
-/

namespace EntitySchema.Json

/-! ## Strings -/

theorem toList_quoted (s : String) :
    (quoted s).toList = '"' :: (s.toList.flatMap escapeChar ++ ['"']) := by
  simp [quoted]

theorem joinPieces_code {n : Nat} (hlead : isLead n = false) (htrail : isTrail n = false)
    (pieces : List Piece) :
    joinPieces (.code n :: pieces) = (joinPieces pieces).map (Char.ofNat n :: ·) := by
  cases pieces with
  | nil => simp [joinPieces, hlead, htrail]
  | cons piece pieces => cases piece <;> simp [joinPieces, hlead, htrail]

/-- The two digits of the escape for a control character are read as its number, which is no half
of a pair. -/
theorem hexNumber?_control : ∀ n < 0x20,
    Text.hexNumber? ['0', '0', hexDigit (n / 16), hexDigit (n % 16)] = some n
      ∧ isLead n = false ∧ isTrail n = false := by
  decide

/-- A character as it is written is one part of a string token, and stands for itself. -/
theorem exists_piece (c : Char) : ∃ piece,
    (∀ cs, stringTail (escapeChar c ++ cs)
      = (stringTail cs).map fun (pieces, rest) => (piece :: pieces, rest))
    ∧ ∀ pieces, joinPieces (piece :: pieces) = (joinPieces pieces).map (c :: ·) := by
  unfold escapeChar
  split
  -- the seven characters with an escape of one letter
  iterate 7 exact ⟨.char _, fun _ => rfl, fun _ => rfl⟩
  next hquote hbackslash _ _ _ _ _ =>
  split
  next hcontrol =>
    obtain ⟨hread, hlead, htrail⟩ := hexNumber?_control c.toNat hcontrol
    refine ⟨.code c.toNat, fun cs => ?_, fun pieces => ?_⟩
    · simp only [List.cons_append, List.nil_append, stringTail, hread]
    · rw [joinPieces_code hlead htrail, Char.ofNat_toNat]
  next hcontrol =>
    refine ⟨.char c, fun cs => ?_, fun _ => rfl⟩
    rw [List.cons_append, List.nil_append, stringTail, if_neg hcontrol]
    · exact hquote
    · rintro _ _ _ _ _ rfl
      exact (hbackslash rfl).elim
    · rintro _ _ rfl
      exact (hbackslash rfl).elim

/-- **Strings are read back.** The characters of a string as they are written, with a closing quote
behind them, are read up to the quote, and their parts make up the string. -/
theorem stringTail_escaped (cs rest : List Char) : ∃ pieces,
    stringTail (cs.flatMap escapeChar ++ '"' :: rest) = some (pieces, rest)
      ∧ text? pieces = some (String.ofList cs) := by
  suffices h : ∃ pieces, stringTail (cs.flatMap escapeChar ++ '"' :: rest) = some (pieces, rest)
      ∧ joinPieces pieces = some cs by
    obtain ⟨pieces, hread, hjoin⟩ := h
    exact ⟨pieces, hread, by rw [text?, hjoin, Option.map_some]⟩
  induction cs with
  | nil => exact ⟨[], rfl, rfl⟩
  | cons c cs ih =>
    obtain ⟨pieces, hread, hjoin⟩ := ih
    obtain ⟨piece, hfirst, hstands⟩ := exists_piece c
    refine ⟨piece :: pieces, ?_, ?_⟩
    · rw [List.flatMap_cons, List.append_assoc, hfirst, hread, Option.map_some]
    · rw [hstands, hjoin, Option.map_some]

/-! ## Numbers -/

/-- The text does not go on with a number that ends before it. -/
def EndsNumber (cs : List Char) : Prop :=
  ∀ c ∈ cs.head?, c.isDigit = false ∧ c ≠ '.' ∧ c ≠ 'e' ∧ c ≠ 'E'

theorem endsNumber_nil : EndsNumber [] := by simp [EndsNumber]

theorem endsNumber_cons {c : Char} {cs : List Char} :
    EndsNumber (c :: cs) ↔ c.isDigit = false ∧ c ≠ '.' ∧ c ≠ 'e' ∧ c ≠ 'E' := by
  simp [EndsNumber]

theorem digits?_append {ds rest : List Char} (hne : ds ≠ []) (hds : ∀ d ∈ ds, d.isDigit = true)
    (hrest : EndsNumber rest) : digits? (ds ++ rest) = some (ds, rest) := by
  have hstop : rest.takeWhile Char.isDigit = [] ∧ rest.dropWhile Char.isDigit = rest := by
    cases rest with
    | nil => exact ⟨rfl, rfl⟩
    | cons c cs =>
      have hc := (endsNumber_cons.mp hrest).1
      exact ⟨List.takeWhile_cons_of_neg (by simp [hc]), List.dropWhile_cons_of_neg (by simp [hc])⟩
  unfold digits?
  rw [List.takeWhile_append_of_pos hds, List.dropWhile_append_of_pos hds, hstop.1, hstop.2,
    List.append_nil]
  cases ds with
  | nil => exact absurd rfl hne
  | cons d ds => rfl

theorem skipFraction?_of_endsNumber {rest : List Char} (h : EndsNumber rest) :
    skipFraction? rest = some rest := by
  unfold skipFraction?
  split
  · exact absurd rfl (endsNumber_cons.mp h).2.1
  · rfl

theorem skipExponent?_of_endsNumber {rest : List Char} (h : EndsNumber rest) :
    skipExponent? rest = some rest := by
  cases rest with
  | nil => rfl
  | cons c cs =>
    obtain ⟨-, -, hsmall, hcapital⟩ := endsNumber_cons.mp h
    simp [skipExponent?, hsmall, hcapital]

theorem isDigit_toDigits (n : Nat) : ∀ d ∈ Nat.toDigits 10 n, d.isDigit = true :=
  fun _ => Nat.isDigit_of_mem_toDigits (by decide) (by decide)

theorem ofDigits_toDigits (n : Nat) : Text.ofDigits 10 (Nat.toDigits 10 n) = n := by
  have hfold (ds : List Char) (hds : ∀ d ∈ ds, d.isDigit = true) (start : Nat) :
      ds.foldl (fun n d => n * 10 + (Text.digitValue? d).getD 0) start
        = Nat.ofDigitChars 10 ds start := by
    induction ds generalizing start with
    | nil => rfl
    | cons d ds ih =>
      have hd : Text.digitValue? d = some (d.toNat - 48) := if_pos (hds d List.mem_cons_self)
      rw [List.foldl_cons, ih fun x hx => hds x (List.mem_cons_of_mem d hx),
        Nat.ofDigitChars_cons, hd, Nat.mul_comm]
      rfl
  rw [Text.ofDigits, hfold _ (isDigit_toDigits n), Nat.ofDigitChars_ten_toDigits]

/-- Only the digits of zero start with a zero. -/
theorem head?_toDigits_ne_zero {n : Nat} (hn : n ≠ 0) : (Nat.toDigits 10 n).head? ≠ some '0' := by
  induction n using Nat.strongRecOn with
  | ind n ih =>
    rcases Nat.lt_or_ge n 10 with hsmall | hlarge
    · rw [Nat.toDigits_of_lt_base hsmall]
      simpa using hn
    · have hfirst := ih (n / 10) (by omega) (by omega)
      obtain ⟨d, ds, hds⟩ := List.exists_cons_of_ne_nil
        (Nat.toDigits_ne_nil (n := n / 10) (b := 10))
      rw [Nat.toDigits_of_base_le (by decide) hlarge, hds, List.cons_append, List.head?_cons]
      rwa [hds, List.head?_cons] at hfirst

theorem unsigned?_toDigits {negative : Bool} {n : Nat} (h : negative = true → n ≠ 0)
    {rest : List Char} (hrest : EndsNumber rest) :
    unsigned? negative (Nat.toDigits 10 n ++ rest)
      = some (.int (if negative then -(n : Int) else n), rest) := by
  have hzero : ¬ ((Nat.toDigits 10 n).head? = some '0' ∧ (Nat.toDigits 10 n).length ≠ 1) := by
    rintro ⟨hhead, hlength⟩
    rcases Nat.eq_zero_or_pos n with rfl | hpos
    · exact hlength (by rw [Nat.toDigits_zero, List.length_singleton])
    · exact head?_toDigits_ne_zero (Nat.ne_of_gt hpos) hhead
  have hdigits := digits?_append Nat.toDigits_ne_nil (isDigit_toDigits n) hrest
  unfold unsigned?
  simpa [hdigits, hzero, skipFraction?_of_endsNumber hrest, skipExponent?_of_endsNumber hrest,
    ofDigits_toDigits] using h

theorem toList_toString_ofNat (n : Nat) :
    (toString (Int.ofNat n)).toList = Nat.toDigits 10 n := Nat.toList_repr

theorem toList_toString_negSucc (n : Nat) :
    (toString (Int.negSucc n)).toList = '-' :: Nat.toDigits 10 (n + 1) := by
  change ("-" ++ Nat.repr (n + 1)).toList = _
  simp

/-- An integer starts with a digit or with its sign. -/
theorem exists_toString_eq_cons (n : Int) : ∃ c cs, (toString n).toList = c :: cs
    ∧ (c.isDigit = true ∨ c = '-') := by
  cases n with
  | ofNat n =>
    obtain ⟨d, ds, hds⟩ := List.exists_cons_of_ne_nil (Nat.toDigits_ne_nil (n := n) (b := 10))
    have hdigit : d.isDigit = true := isDigit_toDigits n d (hds ▸ List.mem_cons_self)
    exact ⟨d, ds, (toList_toString_ofNat n).trans hds, .inl hdigit⟩
  | negSucc n => exact ⟨'-', _, toList_toString_negSucc n, .inr rfl⟩

theorem number?_of_isDigit {c : Char} (hc : c.isDigit = true) (cs : List Char) :
    number? (c :: cs) = unsigned? false (c :: cs) := by
  unfold number?
  split
  next hsign =>
    obtain ⟨rfl, -⟩ := List.cons.inj hsign
    exact absurd hc (by decide)
  next => rfl

/-- **Integers are read back**, with any text behind them that does not go on with the number. -/
theorem number?_toString (n : Int) {rest : List Char} (hrest : EndsNumber rest) :
    number? ((toString n).toList ++ rest) = some (.int n, rest) := by
  cases n with
  | ofNat n =>
    obtain ⟨d, ds, hds⟩ := List.exists_cons_of_ne_nil (Nat.toDigits_ne_nil (n := n) (b := 10))
    have hdigit : d.isDigit = true := isDigit_toDigits n d (hds ▸ List.mem_cons_self)
    rw [toList_toString_ofNat, hds, List.cons_append, number?_of_isDigit hdigit,
      ← List.cons_append, ← hds, unsigned?_toDigits (by simp) hrest]
    rfl
  | negSucc n =>
    rw [toList_toString_negSucc, List.cons_append, number?, unsigned?_toDigits (by simp) hrest]
    rfl

end EntitySchema.Json
