/-!
# Reading bytes as UTF-8

`decodeLossy` reads any bytes as text: what is no UTF-8 becomes the replacement character, one for
each longest piece that could have begun a character.
-/

namespace EntitySchema.Text

/-- A character of which some bytes have been read: the bits so far, how many bytes are to come,
and the range in which the next one has to lie. -/
structure Partial where
  bits : Nat
  missing : Nat
  low : UInt8
  high : UInt8
  deriving DecidableEq, Repr

/-- What a byte that starts a character begins, if it can start one of several bytes. The range of
the second byte leaves out overlong forms, surrogates and numbers above the last character. -/
def Partial.start? (b : UInt8) : Option Partial :=
  let n := b.toNat
  if 0xC2 ≤ n && n ≤ 0xDF then some ⟨n - 0xC0, 1, 0x80, 0xBF⟩
  else if n == 0xE0 then some ⟨0, 2, 0xA0, 0xBF⟩
  else if n == 0xED then some ⟨0xD, 2, 0x80, 0x9F⟩
  else if 0xE1 ≤ n && n ≤ 0xEF then some ⟨n - 0xE0, 2, 0x80, 0xBF⟩
  else if n == 0xF0 then some ⟨0, 3, 0x90, 0xBF⟩
  else if 0xF1 ≤ n && n ≤ 0xF3 then some ⟨n - 0xF0, 3, 0x80, 0xBF⟩
  else if n == 0xF4 then some ⟨4, 3, 0x80, 0x8F⟩
  else none

/-- The character with one more of its bytes. -/
def Partial.next (p : Partial) (b : UInt8) : Partial :=
  ⟨p.bits * 64 + (b.toNat - 0x80), p.missing - 1, 0x80, 0xBF⟩

/-- The character that stands for bytes that are no text. -/
def replacement : Char := Char.ofNat 0xFFFD

/-- The characters of some bytes, after the bytes of a character that is not complete. -/
def decodeFrom (pending : Option Partial) : List UInt8 → List Char
  | [] => if pending.isSome then [replacement] else []
  | b :: bytes =>
    match pending with
    | some p =>
      if p.low ≤ b && b ≤ p.high then
        let q := p.next b
        if q.missing = 0 then Char.ofNat q.bits :: decodeFrom none bytes
        else decodeFrom (some q) bytes
      else replacement :: begin b bytes
    | none => begin b bytes
where
  /-- The characters of some bytes of which the first one starts a character. -/
  begin (b : UInt8) (bytes : List UInt8) : List Char :=
    if b.toNat < 0x80 then Char.ofNat b.toNat :: decodeFrom none bytes
    else
      match Partial.start? b with
      | some p => decodeFrom (some p) bytes
      | none => replacement :: decodeFrom none bytes

/-- The text of some bytes. -/
def decodeLossy (bytes : ByteArray) : String := String.ofList (decodeFrom none bytes.toList)

end EntitySchema.Text
