/-!
# JSON values

The values of JSON, with numbers kept exactly: an integer is an integer, and any other number is
the text that it was written as. The order of the members of an object is kept.
-/

namespace EntitySchema

/-- A JSON value. -/
inductive Json
  | null
  | bool (b : Bool)
  | int (n : Int)
  /-- A number with a fraction or an exponent, or a negative zero, as it is written. -/
  | real (literal : String)
  | str (s : String)
  | arr (items : List Json)
  | obj (members : List (String × Json))
  /-- A well-formed text that denotes no value: a string with one half of a surrogate pair, or an
  object with such a key. A reader may skip it and cannot use it. -/
  | unreadable

namespace Json

/-- A natural number as a value. -/
def nat (n : Nat) : Json := .int n

/-- The string in the value, if it is one. -/
def string? : Json → Option String
  | .str s => some s
  | _ => none

/-- The values read from the elements, if the value is an array and every element can be read. -/
def list? {α : Type} (read : Json → Option α) : Json → Option (List α)
  | .arr items => items.mapM read
  | _ => none

/-- The integer in the value, if it is one that fits 64 bits without a sign. -/
def word? : Json → Option UInt64
  | .int (.ofNat n) => if n < UInt64.size then some (.ofNat n) else none
  | _ => none

/-- The members of a record with these keys, by key. A record is an object, in which none of the
keys may stand twice and other keys do not count; or an array of the members in the order of the
keys, which may end early. -/
def record? (keys : List String) : Json → Option (String → Option Json)
  | .obj members =>
    if keys.all fun key => (members.filter (·.1 == key)).length ≤ 1 then
      some fun key => List.lookup key members
    else none
  | .arr items =>
    if items.length ≤ keys.length then some fun key => items[keys.idxOf key]? else none
  | _ => none

end Json

end EntitySchema
