import EntitySchema.Proofs.Lines
import EntitySchema.Proofs.Utf8
import EntitySchema.SchemaFile
import EntitySchema.Stream

/-!
# A stream and a text

A stream is read piece by piece, and a text in one go; what is read is the same. As long as there are
bytes, no block is empty (`Stream.Filled`). Each piece then ends in a line feed or is the last one,
wherever the blocks are cut, so the bytes are UTF-8 exactly if every piece is, and the lines of the
pieces, each at the offset where its piece stands, are the lines of the text
(`pieceLines_pieces`).
-/

namespace EntitySchema

namespace Stream

/-- The text of some bytes, which have to be UTF-8. -/
def decoded (bytes : List UInt8) : Except FileFault (List Char) :=
  match Text.decode? bytes with
  | some cs => .ok cs
  | none => .error .notUtf8

/-- The lines in some pieces, the first of which starts at `offset`. The first piece that is no
UTF-8 ends the reading. -/
def pieceLines (offset : Nat) : List (List UInt8) → Except FileFault (List SourceLine)
  | [] => .ok []
  | piece :: more => do
    let cs ← decoded piece
    let ls ← pieceLines (offset + piece.length) more
    return linesAt offset cs ++ ls

/-- **The state after some pieces is the state after their lines.** -/
theorem feedPieces_eq (ps : List (List UInt8)) :
    ∀ (offset : Nat) (p : Parser),
      feedPieces offset p ps = (pieceLines offset ps).map p.feedAll := by
  induction ps with
  | nil => intro offset p; rfl
  | cons piece more ih =>
    intro offset p
    unfold feedPieces pieceLines decoded Text.decode?
    cases String.fromUTF8? piece.toByteArray with
    | none => rfl
    | some text =>
        dsimp only [Option.map_some]
        rw [ih]
        cases pieceLines (offset + piece.length) more with
        | error fault => rfl
        | ok ls => exact congrArg Except.ok (Parser.feedAll_append p _ ls).symm

/-! ## The pieces of a stream -/

theorem cutAfterLine?_eq_some {bs line rest : List UInt8}
    (h : cutAfterLine? bs = some (line, rest)) : ∃ before, line = before ++ [lineFeed] := by
  induction bs generalizing line rest with
  | nil => exact absurd h (by simp [cutAfterLine?])
  | cons b bs ih =>
    unfold cutAfterLine? at h
    split at h
    · next hb =>
      simp only [Option.some.injEq, Prod.mk.injEq] at h
      exact ⟨[], by rw [← h.1, hb]; rfl⟩
    · obtain ⟨⟨line', rest'⟩, hcut, heq⟩ := Option.map_eq_some_iff.mp h
      obtain ⟨before, rfl⟩ := ih hcut
      simp only [Prod.mk.injEq] at heq
      exact ⟨b :: before, heq.1.symm⟩

/-- Every block has a byte. -/
def Filled (bs : List (List UInt8)) : Prop := ∀ b ∈ bs, b ≠ []

theorem filled_putBack {rest : List UInt8} {more : List (List UInt8)} (h : Filled more) :
    Filled (putBack rest more) := by
  cases rest with
  | nil => exact h
  | cons b bs => exact List.forall_mem_cons.mpr ⟨List.cons_ne_nil b bs, h⟩

/-- The blocks after a piece have bytes as well. -/
theorem filled_takePiece {bs : List (List UInt8)} (h : Filled bs) : Filled (takePiece bs).2 := by
  fun_induction takePiece bs with
  | case1 => exact h
  | case2 more => exact (List.forall_mem_cons.mp h).2
  | case3 block more hblock line rest hcut => exact filled_putBack (List.forall_mem_cons.mp h).2
  | case4 block more hblock hcut line rest hrest ih =>
    rw [hrest] at ih
    exact ih (List.forall_mem_cons.mp h).2

/-- A piece ends in a line feed, or nothing comes after it. -/
theorem takePiece_ends {bs : List (List UInt8)} (h : Filled bs) :
    (∃ before, (takePiece bs).1 = before ++ [lineFeed]) ∨ (takePiece bs).2.flatten = [] := by
  fun_induction takePiece bs with
  | case1 => exact Or.inr rfl
  | case2 more => exact absurd rfl (List.forall_mem_cons.mp h).1
  | case3 block more hblock line rest hcut => exact Or.inl (cutAfterLine?_eq_some hcut)
  | case4 block more hblock hcut line rest hrest ih =>
    rw [hrest] at ih
    rcases ih (List.forall_mem_cons.mp h).2 with ⟨before, rfl⟩ | hnil
    · exact Or.inl ⟨block ++ before, (List.append_assoc ..).symm⟩
    · exact Or.inr hnil

/-- A piece is empty only when nothing is delivered. -/
theorem flatten_of_takePiece_nil {bs : List (List UInt8)} (h : Filled bs)
    (hpiece : (takePiece bs).1 = []) : bs.flatten = [] := by
  rcases takePiece_ends h with ⟨before, hbefore⟩ | hnil
  · exact absurd (hbefore.symm.trans hpiece) (by simp)
  · rw [← takePiece_flatten, hpiece, hnil]
    rfl

/-- Blocks of any size deliver all bytes, and each of them has a byte. -/
theorem blocks_deliver (capacity : Nat) (bytes : List UInt8) :
    (blocks capacity bytes).flatten = bytes ∧ Filled (blocks capacity bytes) := by
  fun_induction blocks capacity bytes with
  | case1 => exact ⟨rfl, nofun⟩
  | case2 bytes hbytes ih =>
    refine ⟨by rw [List.flatten_cons, ih.1, List.take_append_drop],
      List.forall_mem_cons.mpr ⟨?_, ih.2⟩⟩
    rw [Ne, List.take_eq_nil_iff]
    intro hnil
    rcases hnil with hsize | hnil
    · omega
    · exact hbytes hnil

/-! ## The lines of a stream -/

theorem decoded_nil : decoded [] = .ok [] := by
  have h : Text.decode? [] = some [] := Text.decode?_encode []
  unfold decoded
  rw [h]

theorem decoded_eq_ok_iff {bytes : List UInt8} {cs : List Char} :
    decoded bytes = .ok cs ↔ bytes = Text.encode cs := by
  rw [← Text.decode?_eq_some_iff]
  unfold decoded
  cases Text.decode? bytes <;> simp

theorem decoded_append_lineFeed (xs ys : List UInt8) :
    decoded (xs ++ [lineFeed] ++ ys) = do
      let as ← decoded (xs ++ [lineFeed])
      let bs ← decoded ys
      return as ++ bs := by
  unfold decoded lineFeed
  rw [Text.decode?_append_lineFeed]
  cases Text.decode? (xs ++ [10]) with
  | none => rfl
  | some as => cases Text.decode? ys <;> rfl

/-- The lines of a piece and of what comes after it. -/
theorem pieceLines_step {piece rest : List UInt8} (offset : Nat)
    (h : (∃ before, piece = before ++ [lineFeed]) ∨ rest = []) :
    (do let cs ← decoded piece
        let ls ← (decoded rest).map (linesAt (offset + piece.length))
        return linesAt offset cs ++ ls)
      = (decoded (piece ++ rest)).map (linesAt offset) := by
  rcases h with ⟨before, rfl⟩ | rfl
  · -- a cut behind a line feed is one between characters and one between lines
    rw [decoded_append_lineFeed]
    cases hpiece : decoded (before ++ [lineFeed]) with
    | error fault => rfl
    | ok cs =>
        have hbytes := decoded_eq_ok_iff.mp hpiece
        obtain ⟨as, rfl⟩ := Text.exists_of_decode?_lineFeed (Text.decode?_eq_some_iff.mpr hbytes)
        rw [hbytes, Text.length_encode]
        cases decoded rest with
        | error fault => rfl
        | ok bs => exact congrArg Except.ok (linesAt_append_lineFeed offset as bs).symm
  · rw [decoded_nil, List.append_nil]
    cases decoded piece with
    | error fault => rfl
    | ok cs => exact congrArg Except.ok (List.append_nil _)

/-- **The lines of the pieces are the lines of the text**, wherever the blocks are cut. -/
theorem pieceLines_pieces {bs : List (List UInt8)} (h : Filled bs) :
    ∀ offset, pieceLines offset (pieces bs) = (decoded bs.flatten).map (linesAt offset) := by
  fun_induction pieces bs with
  | case1 bs hnil =>
    intro offset
    rw [flatten_of_takePiece_nil h hnil, decoded_nil]
    rfl
  | case2 bs hpiece ih =>
    intro offset
    rw [pieceLines, ih (filled_takePiece h), ← takePiece_flatten bs]
    exact pieceLines_step offset (takePiece_ends h)

/-- A stream delivers the schema that its text declares. -/
theorem read_eq_decoded {bs : List (List UInt8)} (h : Filled bs) :
    read bs = (decoded bs.flatten).map fun cs => EntitySchema.read (String.ofList cs) := by
  unfold read
  rw [feedPieces_eq, pieceLines_pieces h]
  cases decoded bs.flatten with
  | error fault => rfl
  | ok cs =>
      have hread : EntitySchema.read (String.ofList cs)
          = (Parser.new.feedAll (lines cs)).finish := by
        unfold EntitySchema.read
        rw [String.toList_ofList]
      exact congrArg Except.ok hread.symm

theorem read_blocks (capacity : Nat) (bytes : List UInt8) :
    read (blocks capacity bytes)
      = (decoded bytes).map fun cs => EntitySchema.read (String.ofList cs) := by
  obtain ⟨hbytes, hfilled⟩ := blocks_deliver capacity bytes
  rw [read_eq_decoded hfilled, hbytes]

theorem decoded_of_fromUTF8? {bytes : List UInt8} {text : String}
    (h : String.fromUTF8? bytes.toByteArray = some text) : decoded bytes = .ok text.toList := by
  unfold decoded Text.decode?
  rw [h]
  rfl

theorem decoded_of_not_utf8 {bytes : List UInt8}
    (h : String.fromUTF8? bytes.toByteArray = none) : decoded bytes = .error .notUtf8 := by
  unfold decoded Text.decode?
  rw [h]
  rfl

end Stream

/-! ## Files -/

/-- **A file read as a stream and as a text.** Either way it yields the same entities, or fails for
the same reason. -/
theorem parseFile_eq_load {m : Type → Type} [Monad m] [LawfulMonad m] [FileStore m] (path : Path) :
    (Except.mapError Failure.ofReadFault <$> FileStore.parseFile path : m _)
      = Except.map SchemaFile.entities <$> SchemaFile.load path := by
  unfold FileStore.parseFile SchemaFile.load FileStore.readText
  simp only [map_eq_pure_bind, bind_assoc]
  refine bind_congr fun r => ?_
  cases r with
  | error fault => simp [Except.map, Except.mapError, Failure.ofReadFault]
  | ok content =>
      dsimp only
      have hread := Stream.read_blocks fileBlockSize content.toList
      cases htext : String.fromUTF8? content with
      | none =>
          have hdecoded := Stream.decoded_of_not_utf8
            (show String.fromUTF8? content.toList.toByteArray = none by
              rw [Text.toByteArray_toList]; exact htext)
          rw [hread, hdecoded]
          simp [Except.map, Except.mapError, Failure.ofReadFault]
      | some text =>
          have hdecoded := Stream.decoded_of_fromUTF8?
            (show String.fromUTF8? content.toList.toByteArray = some text by
              rw [Text.toByteArray_toList]; exact htext)
          rw [hread, hdecoded]
          simp [Except.map, Except.mapError, SchemaFile.entities]

/-! ## Streams -/

/-- **A stream declares what its text declares**, in whatever blocks it delivers its bytes: none is
empty before the end, and that is all that is asked of them. The bytes are read exactly if they are
UTF-8. The lines that go into the state are then the lines of the text with their spans, so the
entities and the findings are those of the text. Blocks of any one size are such blocks. A file is
read as a stream or as a text with the same result. -/
theorem stream_agrees_with_text {bs : List (List UInt8)} (h : ∀ b ∈ bs, b ≠ []) :
    (∀ p, Stream.feedPieces 0 p (Stream.pieces bs)
        = (Stream.pieceLines 0 (Stream.pieces bs)).map p.feedAll)
      ∧ (∀ text, String.fromUTF8? bs.flatten.toByteArray = some text →
        Stream.pieceLines 0 (Stream.pieces bs) = .ok (lines text.toList)
          ∧ Stream.read bs = .ok ⟨parse text, lint text⟩
          ∧ parseStream bs = .ok (parse text))
      ∧ (String.fromUTF8? bs.flatten.toByteArray = none →
        parseStream bs = .error ⟨none, .notUtf8⟩)
      ∧ (∀ capacity bytes, (Stream.blocks capacity bytes).flatten = bytes
        ∧ (∀ b ∈ Stream.blocks capacity bytes, b ≠ [])
        ∧ (∀ text, String.fromUTF8? bytes.toByteArray = some text →
          parseBytes capacity bytes = .ok (parse text))
        ∧ (String.fromUTF8? bytes.toByteArray = none →
          parseBytes capacity bytes = .error ⟨none, .notUtf8⟩))
      ∧ ∀ (m : Type → Type) [Monad m] [LawfulMonad m] [FileStore m] (path : Path),
        (Except.mapError Failure.ofReadFault <$> FileStore.parseFile path : m _)
          = Except.map SchemaFile.entities <$> SchemaFile.load path := by
  have hread {bs : List (List UInt8)} (h : Stream.Filled bs) {text : String}
      (htext : String.fromUTF8? bs.flatten.toByteArray = some text) :
      Stream.read bs = .ok (read text) := by
    rw [Stream.read_eq_decoded h, Stream.decoded_of_fromUTF8? htext]
    show Except.ok (read (String.ofList text.toList)) = _
    rw [String.ofList_toList]
  have hparse {bs : List (List UInt8)} (h : Stream.Filled bs) {text : String}
      (htext : String.fromUTF8? bs.flatten.toByteArray = some text) :
      parseStream bs = .ok (parse text) := by
    unfold parseStream
    rw [hread h htext]
    rfl
  have hrefuse {bs : List (List UInt8)} (h : Stream.Filled bs)
      (hnone : String.fromUTF8? bs.flatten.toByteArray = none) :
      parseStream bs = .error ⟨none, .notUtf8⟩ := by
    unfold parseStream
    rw [Stream.read_eq_decoded h, Stream.decoded_of_not_utf8 hnone]
    rfl
  refine ⟨fun p => Stream.feedPieces_eq _ 0 p, fun text htext => ⟨?_, hread h htext, hparse h htext⟩,
    hrefuse h, fun capacity bytes => ?_, fun m _ _ _ path => parseFile_eq_load path⟩
  · rw [Stream.pieceLines_pieces h, Stream.decoded_of_fromUTF8? htext]
    rfl
  · obtain ⟨hbytes, hfilled⟩ := Stream.blocks_deliver capacity bytes
    refine ⟨hbytes, hfilled, fun text htext => ?_, fun hnone => ?_⟩
    · exact hparse hfilled (by rw [hbytes]; exact htext)
    · exact hrefuse hfilled (by rw [hbytes]; exact hnone)

/-- A stream in blocks of different sizes, with a character and a line end across their ends. -/
theorem stream_agrees_with_text_crlf :
    let bytes := Text.encode "entity A \x7b\r\n  é: b\r\n\x7d".toList
    let bs := [bytes.take 11, (bytes.drop 11).take 4, bytes.drop 15]
    (∀ b ∈ bs, b ≠ []) ∧ parseStream bs = .ok (parse "entity A \x7b\r\n  é: b\r\n\x7d") := by
  intro bytes bs
  have hfilled : ∀ b ∈ bs, b ≠ [] := by decide +kernel
  refine ⟨hfilled, ((stream_agrees_with_text hfilled).2.1 _ ?_).2.2⟩
  exact Text.fromUTF8?_eq_some_iff.mpr rfl

end EntitySchema
