/-!
# TOML values

The values of TOML. An integer is kept as the number that it is; a number with a fraction or an
exponent, a date and a time are kept as the text that they are written as.
-/

namespace EntitySchema

/-- A TOML value. -/
inductive Toml
  | str (s : String)
  | int (n : Int)
  | real (literal : String)
  | bool (b : Bool)
  /-- A date, a time, or both. -/
  | moment (literal : String)
  | arr (items : List Toml)
  | table (members : List (String × Toml))

end EntitySchema
