/-!
# Readers

A reader takes a value off the front of a text, or refuses the text. Readers are put together with
the operations of their monad; of two alternatives the second one starts where the first one did.
-/

namespace EntitySchema.Text

/-- Takes a value off the front of a text, or refuses. -/
abbrev Reader := StateT (List Char) Option

namespace Reader

/-- The first character, which has to be of this kind. -/
def char (p : Char → Bool) : Reader Char := fun
  | c :: cs => if p c then some (c, cs) else none
  | [] => none

/-- The characters up to the first that is not of this kind. -/
def span (p : Char → Bool) : Reader (List Char) := fun cs => some (cs.takeWhile p, cs.dropWhile p)

/-- At least one character of this kind, and all that follow it. -/
def span1 (p : Char → Bool) : Reader (List Char) := do
  let first ← char p
  return first :: (← span p)

/-- As many characters of this kind. -/
def times (p : Char → Bool) : Nat → Reader (List Char)
  | 0 => return []
  | n + 1 => do
    let first ← char p
    return first :: (← times p n)

/-- Takes this text. -/
def literal : List Char → Reader Unit
  | [] => return ()
  | c :: cs => do
    let _ ← char (· == c)
    literal cs

/-- What the reader takes, or nothing where it refuses. -/
def optional {α : Type} (r : Reader α) : Reader (Option α) := (some <$> r) <|> return none

/-- What the reader takes, with the text that it is taken from. -/
def withText {α : Type} (r : Reader α) : Reader (α × List Char) := fun cs =>
  match r cs with
  | some (a, rest) => some ((a, cs.take (cs.length - rest.length)), rest)
  | none => none

/-- What the reader takes off the text one after another, as long as it takes any of it. -/
def many {α : Type} (r : Reader α) : Reader (List α) := fun cs => some (loop cs)
where
  /-- The values, and the text after them. -/
  loop (cs : List Char) : List α × List Char :=
    match r cs with
    | none => ([], cs)
    | some (a, rest) =>
      if _h : rest.length < cs.length then
        let (as, rest) := loop rest
        (a :: as, rest)
      else ([], cs)
  termination_by cs.length

/-- Refuses unless the condition holds. -/
def ensure (b : Bool) : Reader Unit := if b then return () else failure

/-- What the reader takes off the text, if that is the whole text. -/
def parse? {α : Type} (r : Reader α) (cs : List Char) : Option α :=
  match r cs with
  | some (a, []) => some a
  | _ => none

end Reader

end EntitySchema.Text
