import EntitySchema.FileStore
import EntitySchema.Reading

/-!
# Reading a schema from a stream

A stream delivers bytes in blocks, and an empty block says that there are no more. It is read piece
by piece, each piece up to and with a line feed; every piece has to be UTF-8, and the lines in it
stand at the offset that the pieces before it add up to. `Stream.read` reads a whole stream this
way, and `FileStore.parseFile` a file.
-/

namespace EntitySchema

namespace Stream

/-- The bytes cut into blocks of this size. A block holds at least one byte. -/
def blocks (capacity : Nat) (bytes : List UInt8) : List (List UInt8) :=
  if _h : bytes = [] then []
  else bytes.take (max capacity 1) :: blocks capacity (bytes.drop (max capacity 1))
termination_by bytes.length
decreasing_by
  have hpos : 0 < bytes.length := List.length_pos_iff.2 _h
  rw [List.length_drop]
  omega

/-- The byte that ends a piece. -/
def lineFeed : UInt8 := 10

/-- The bytes up to and with the first line feed, and those after it, if there is one. -/
def cutAfterLine? : List UInt8 → Option (List UInt8 × List UInt8)
  | [] => none
  | b :: bs =>
    if b = lineFeed then some ([b], bs)
    else (cutAfterLine? bs).map fun (line, rest) => (b :: line, rest)

/-- What is left of a block that has been begun, and the blocks after it. A block that is used up
makes room for the next one. -/
def putBack (rest : List UInt8) (more : List (List UInt8)) : List (List UInt8) :=
  if rest.isEmpty then more else rest :: more

/-- The first piece of what the blocks deliver, and the blocks after it. -/
def takePiece : List (List UInt8) → List UInt8 × List (List UInt8)
  | [] => ([], [])
  | [] :: more => ([], more)
  | block :: more =>
    match cutAfterLine? block with
    | some (line, rest) => (line, putBack rest more)
    | none =>
      let (line, rest) := takePiece more
      (block ++ line, rest)

theorem flatten_putBack (rest : List UInt8) (more : List (List UInt8)) :
    (putBack rest more).flatten = rest ++ more.flatten := by
  cases rest <;> rfl

theorem append_of_cutAfterLine? {bs line rest : List UInt8}
    (h : cutAfterLine? bs = some (line, rest)) : line ++ rest = bs := by
  induction bs generalizing line rest with
  | nil => simp [cutAfterLine?] at h
  | cons b bs ih =>
    unfold cutAfterLine? at h
    split at h
    · simp only [Option.some.injEq, Prod.mk.injEq] at h
      obtain ⟨rfl, rfl⟩ := h
      rfl
    · obtain ⟨⟨line', rest'⟩, hcut, heq⟩ := Option.map_eq_some_iff.1 h
      simp only [Prod.mk.injEq] at heq
      obtain ⟨rfl, rfl⟩ := heq
      rw [List.cons_append, ih hcut]

/-- A piece and what comes after it are the bytes that the blocks deliver. -/
theorem takePiece_flatten (bs : List (List UInt8)) :
    (takePiece bs).1 ++ (takePiece bs).2.flatten = bs.flatten := by
  fun_induction takePiece bs with
  | case1 => rfl
  | case2 more => rfl
  | case3 block more hblock line rest h =>
    rw [flatten_putBack, List.flatten_cons, ← List.append_assoc, append_of_cutAfterLine? h]
  | case4 block more hblock hcut line rest hrest ih =>
    rw [hrest] at ih
    rw [List.flatten_cons, ← ih, List.append_assoc]

/-- All pieces that the blocks deliver. -/
def pieces (bs : List (List UInt8)) : List (List UInt8) :=
  if _h : (takePiece bs).1 = [] then []
  else (takePiece bs).1 :: pieces (takePiece bs).2
termination_by bs.flatten.length
decreasing_by
  have hpos : 0 < (takePiece bs).1.length := List.length_pos_iff.2 _h
  have hlen := congrArg List.length (takePiece_flatten bs)
  rw [List.length_append] at hlen
  omega

/-- The state after some pieces, the first of which starts at `offset`. The first piece that is no
UTF-8 ends the reading. -/
def feedPieces (offset : Nat) (p : Parser) : List (List UInt8) → Except FileFault Parser
  | [] => .ok p
  | piece :: more =>
    match String.fromUTF8? piece.toByteArray with
    | none => .error .notUtf8
    | some text =>
      feedPieces (offset + piece.length) (p.feedAll (linesAt offset text.toList)) more

/-- The schema that a stream with these blocks delivers. -/
def read (bs : List (List UInt8)) : Except FileFault Schema :=
  (feedPieces 0 .new (pieces bs)).map Parser.finish

end Stream

/-! ## Files -/

/-- A schema that could not be read: why, and from which file, if it was to come from one. -/
structure ReadFault where
  path : Option Path
  fault : FileFault
  deriving DecidableEq, Repr

namespace ReadFault

/-- The fault in one line. -/
def message (f : ReadFault) : String :=
  match f.path with
  | some path => "failed to read schema " ++ path.text ++ ": " ++ f.fault.message
  | none => "failed to read schema: " ++ f.fault.message

end ReadFault

/-- The entities that a stream with these blocks delivers. -/
def parseStream (bs : List (List UInt8)) : Except ReadFault (List Entity) :=
  match Stream.read bs with
  | .ok schema => .ok schema.entities
  | .error fault => .error ⟨none, fault⟩

/-- The entities that a stream delivers in blocks of this size. -/
def parseBytes (capacity : Nat) (bytes : List UInt8) : Except ReadFault (List Entity) :=
  parseStream (Stream.blocks capacity bytes)

/-- The size of the blocks in which files are read. -/
def fileBlockSize : Nat := 8192

/-- The entities in the file at the path, read as a stream. -/
def FileStore.parseFile {m : Type → Type} [Monad m] [FileStore m] (path : Path) :
    m (Except ReadFault (List Entity)) := do
  match ← FileStore.read path with
  | .error fault => return .error ⟨some path, fault⟩
  | .ok content =>
    match Stream.read (Stream.blocks fileBlockSize content.toList) with
    | .ok schema => return .ok schema.entities
    | .error fault => return .error ⟨some path, fault⟩

end EntitySchema
