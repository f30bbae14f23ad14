import EntitySchema.Text.Size

/-!
# Bytes and characters

A text and its bytes, both as lists. Decoding and encoding undo each other (`decode?_eq_some_iff`),
and since no character but the line feed has the byte of the line feed in its encoding, bytes can be
cut behind a line feed and decoded in pieces (`decode?_append_lineFeed`).
-/

namespace EntitySchema.Text

/-- The bytes of a text in UTF-8. -/
def encode (cs : List Char) : List UInt8 := cs.flatMap String.utf8EncodeChar

/-- The text of some bytes, if they are UTF-8. -/
def decode? (bytes : List UInt8) : Option (List Char) :=
  (String.fromUTF8? bytes.toByteArray).map String.toList

@[simp] theorem encode_nil : encode [] = [] := rfl

@[simp] theorem encode_cons (c : Char) (cs : List Char) :
    encode (c :: cs) = String.utf8EncodeChar c ++ encode cs := rfl

theorem encode_append (as bs : List Char) : encode (as ++ bs) = encode as ++ encode bs := by
  unfold encode
  rw [List.flatMap_append]

/-- A text has as many bytes as its encoding. -/
theorem length_encode (cs : List Char) : (encode cs).length = byteSize cs := by
  induction cs with
  | nil => rfl
  | cons c cs ih =>
    rw [encode_cons, List.length_append, ih, String.length_utf8EncodeChar, byteSize_cons]

/-! ## Arrays of bytes -/

theorem toList_loop (bytes : ByteArray) (i : Nat) (before : List UInt8) :
    ByteArray.toList.loop bytes i before = before.reverse ++ bytes.data.toList.drop i := by
  fun_induction ByteArray.toList.loop bytes i before with
  | case1 i before h ih =>
    have hi : i < bytes.data.toList.length := h
    rw [ih, List.drop_eq_getElem_cons hi, List.reverse_cons, List.append_assoc,
      List.singleton_append]
    simp [ByteArray.get!, h]
  | case2 i before h =>
    rw [List.drop_eq_nil_of_le (Nat.le_of_not_lt h), List.append_nil]

/-- A list of bytes holds all of the array that it comes from. -/
theorem toByteArray_toList (bytes : ByteArray) : bytes.toList.toByteArray = bytes := by
  have hlist : bytes.toList = bytes.data.toList := by
    unfold ByteArray.toList
    rw [toList_loop]
    simp
  rw [hlist]
  refine ByteArray.ext ?_
  rw [List.data_toByteArray]

/-! ## Decoding undoes encoding -/

theorem toByteArray_eq (text : String) : text.toByteArray = (encode text.toList).toByteArray :=
  String.utf8Encode_toList.symm

theorem fromUTF8?_eq_some_iff {bytes : List UInt8} {text : String} :
    String.fromUTF8? bytes.toByteArray = some text ↔ bytes = encode text.toList := by
  rw [← List.toByteArray_inj, ← toByteArray_eq]
  unfold String.fromUTF8?
  split
  · next h =>
    rw [Option.some.injEq, ← String.toByteArray_inj]
    exact Iff.rfl
  · next h =>
    constructor
    · intro hnone
      exact absurd hnone (by simp)
    · intro hbytes
      exact absurd (hbytes ▸ text.isValidUTF8) h

theorem fromUTF8?_toUTF8 (text : String) : String.fromUTF8? text.toUTF8 = some text := by
  rw [String.toUTF8, toByteArray_eq]
  exact fromUTF8?_eq_some_iff.mpr rfl

theorem toUTF8_of_fromUTF8? {bytes : ByteArray} {text : String}
    (h : String.fromUTF8? bytes = some text) : text.toUTF8 = bytes := by
  rw [← toByteArray_toList bytes] at h ⊢
  rw [fromUTF8?_eq_some_iff.mp h, String.toUTF8, toByteArray_eq]

theorem decode?_eq_some_iff {bytes : List UInt8} {cs : List Char} :
    decode? bytes = some cs ↔ bytes = encode cs := by
  unfold decode?
  rw [Option.map_eq_some_iff]
  constructor
  · rintro ⟨text, htext, rfl⟩
    exact fromUTF8?_eq_some_iff.mp htext
  · intro hbytes
    refine ⟨String.ofList cs, ?_, String.toList_ofList⟩
    rw [fromUTF8?_eq_some_iff, String.toList_ofList]
    exact hbytes

theorem decode?_encode (cs : List Char) : decode? (encode cs) = some cs :=
  decode?_eq_some_iff.mpr rfl

/-! ## Cutting behind a line feed -/

/-- Only the line feed has its byte. -/
theorem lineFeed_not_mem_utf8EncodeChar {c : Char} (h : c ≠ '\n') :
    (10 : UInt8) ∉ String.utf8EncodeChar c := by
  have hval : c.val.toNat ≠ 10 := fun hc => h (Char.ext (UInt32.toNat_inj.mp hc))
  -- every byte of a longer encoding is at least 128
  have hbyte (n : Nat) (hn : n < 256) (hne : n ≠ 10) : (10 : UInt8) ≠ UInt8.ofNat n := by
    intro he
    have := congrArg UInt8.toNat he
    rw [UInt8.toNat_ofNat_of_lt' hn] at this
    exact hne this.symm
  unfold String.utf8EncodeChar
  dsimp only
  split
  · rw [List.mem_singleton]
    exact hbyte _ (by omega) hval
  · split
    · simp only [List.mem_cons, List.not_mem_nil, or_false, not_or]
      exact ⟨hbyte _ (by omega) (by omega), hbyte _ (by omega) (by omega)⟩
    · split
      · simp only [List.mem_cons, List.not_mem_nil, or_false, not_or]
        exact ⟨hbyte _ (by omega) (by omega), hbyte _ (by omega) (by omega),
          hbyte _ (by omega) (by omega)⟩
      · simp only [List.mem_cons, List.not_mem_nil, or_false, not_or]
        exact ⟨hbyte _ (by omega) (by omega), hbyte _ (by omega) (by omega),
          hbyte _ (by omega) (by omega), hbyte _ (by omega) (by omega)⟩

theorem utf8EncodeChar_lineFeed : String.utf8EncodeChar '\n' = [10] := by decide

/-- A line feed among the bytes is one among the characters. -/
theorem exists_of_encode_eq {cs : List Char} :
    ∀ {xs ys : List UInt8}, encode cs = xs ++ 10 :: ys →
      ∃ as bs, cs = as ++ '\n' :: bs ∧ xs = encode as ∧ ys = encode bs := by
  induction cs with
  | nil => intro xs ys h; exact absurd h (by simp)
  | cons c cs ih =>
    intro xs ys h
    rw [encode_cons] at h
    by_cases hc : c = '\n'
    · subst hc
      rw [utf8EncodeChar_lineFeed, List.singleton_append] at h
      cases xs with
      | nil => exact ⟨[], cs, rfl, rfl, (List.cons.inj h).2.symm⟩
      | cons x xs =>
          obtain ⟨hx, hrest⟩ := List.cons.inj h
          obtain ⟨as, bs, rfl, rfl, rfl⟩ := ih hrest
          refine ⟨'\n' :: as, bs, rfl, ?_, rfl⟩
          rw [encode_cons, utf8EncodeChar_lineFeed, ← hx]
          rfl
    · -- the bytes of the character are all before the line feed
      have hnot := lineFeed_not_mem_utf8EncodeChar hc
      rcases List.append_eq_append_iff.mp h with ⟨zs, rfl, hrest⟩ | ⟨zs, hchar, hrest⟩
      · obtain ⟨as, bs, rfl, rfl, rfl⟩ := ih hrest
        exact ⟨c :: as, bs, rfl, rfl, rfl⟩
      · cases zs with
        | nil =>
            rw [List.append_nil] at hchar
            obtain ⟨as, bs, rfl, has, rfl⟩ := @ih [] _ hrest.symm
            refine ⟨c :: as, bs, rfl, ?_, rfl⟩
            rw [encode_cons, hchar, ← has, List.append_nil]
        | cons z zs =>
            obtain ⟨rfl, -⟩ := List.cons.inj hrest
            exact absurd (hchar ▸ List.mem_append_right xs List.mem_cons_self) hnot

theorem encode_eq_nil_iff {cs : List Char} : encode cs = [] ↔ cs = [] := by
  cases cs with
  | nil => simp
  | cons c cs => simp [String.utf8EncodeChar_ne_nil]

/-- Bytes that end in a line feed are the bytes of a text that does. -/
theorem exists_of_decode?_lineFeed {xs : List UInt8} {cs : List Char}
    (h : decode? (xs ++ [10]) = some cs) : ∃ as, cs = as ++ ['\n'] := by
  obtain ⟨as, bs, rfl, -, hbs⟩ := exists_of_encode_eq (decode?_eq_some_iff.mp h).symm
  rw [encode_eq_nil_iff.mp hbs.symm]
  exact ⟨as, rfl⟩

/-- **Bytes can be decoded in two pieces when the first one ends in a line feed.** -/
theorem decode?_append_lineFeed (xs ys : List UInt8) :
    decode? (xs ++ [10] ++ ys)
      = (decode? (xs ++ [10])).bind fun as => (decode? ys).map fun bs => as ++ bs := by
  refine Option.ext fun cs => ?_
  simp only [Option.bind_eq_some_iff, Option.map_eq_some_iff, decode?_eq_some_iff]
  constructor
  · intro h
    have hcut : encode cs = xs ++ 10 :: ys := by rw [← h]; simp
    obtain ⟨as, bs, rfl, rfl, rfl⟩ := exists_of_encode_eq hcut
    refine ⟨as ++ ['\n'], ?_, bs, rfl, by simp⟩
    rw [encode_append]
    rfl
  · rintro ⟨as, has, bs, rfl, rfl⟩
    rw [has, encode_append]

end EntitySchema.Text
