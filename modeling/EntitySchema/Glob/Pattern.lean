/-!
# Patterns for names

A pattern is read character by character. `?` stands for any character, `*` for any row of
characters, and brackets for one character out of a set, or out of all others. Two stars stand for
any depth of directories and have to be a whole name of the path. `Pattern.ofChars` reads a
pattern, and `Pattern.accepts` says which names it stands for.
-/

namespace EntitySchema.Glob

/-- One element of a pattern. -/
inductive Token
  | char (c : Char)
  | anyChar
  | anyRow
  /-- Any depth of directories. -/
  | anyDepth
  /-- One character within the ranges, or within none of them. -/
  | within (excluded : Bool) (ranges : List (Char × Char))
  deriving DecidableEq, Repr

namespace Token

/-- The character that the element is, if it is one. -/
def char? : Token → Option Char
  | char c => some c
  | _ => none

/-- Whether the element stands for this one character. -/
def accepts : Token → Char → Bool
  | char x, c => c == x
  | within excluded ranges, c => (ranges.any fun (low, high) => low ≤ c && c ≤ high) != excluded
  | _, _ => true

end Token

/-! ## Faults -/

/-- What can be wrong with a pattern. -/
inductive Flaw
  | tooManyStars
  | partialDepth
  | invalidRange
  deriving DecidableEq, Repr

namespace Flaw

/-- The flaw in words. -/
def text : Flaw → String
  | tooManyStars => "wildcards are either regular `*` or recursive `**`"
  | partialDepth => "recursive wildcards must form a single path component"
  | invalidRange => "invalid range pattern"

end Flaw

/-- What is wrong with a pattern, and at which of its characters. -/
structure PatternFault where
  position : Nat
  flaw : Flaw
  deriving DecidableEq, Repr

namespace PatternFault

/-- The fault in one line. -/
def message (f : PatternFault) : String :=
  let position := f.position
  s!"Pattern syntax error near position {position}: " ++ f.flaw.text

end PatternFault

/-! ## Reading a pattern -/

/-- The ranges between two brackets. A hyphen between two characters makes a range of them. -/
def ranges : List Char → List (Char × Char)
  | low :: '-' :: high :: rest => (low, high) :: ranges rest
  | c :: rest => (c, c) :: ranges rest
  | [] => []

/-- The set that the text after an opening bracket describes, and how many characters describe it
up to its closing bracket. The first character of the set may itself be a closing bracket. -/
def bracket? (cs : List Char) : Option (Token × Nat) :=
  let excluded := cs.head? == some '!'
  match if excluded then cs.tail else cs with
  | [] => none
  | first :: rest =>
    if rest.contains ']' then
      let members := first :: rest.takeWhile (· != ']')
      some (.within excluded (ranges members), members.length + 1 + if excluded then 1 else 0)
    else none

/-- Whether two stars after this character start a name. -/
def startsName (before : Option Char) : Bool := before.isNone || before == some '/'

/-- The elements of a pattern whose rest starts at this position after this character. -/
def tokens (position : Nat) (before : Option Char) (cs : List Char) :
    Except PatternFault (List Token) :=
  match cs with
  | [] => .ok []
  | '?' :: rest => (tokens (position + 1) (some '?') rest).map (.anyChar :: ·)
  | '*' :: '*' :: '*' :: _ => .error ⟨position + 2, .tooManyStars⟩
  | '*' :: '*' :: rest =>
    if startsName before then
      match rest with
      | [] => .ok [.anyDepth]
      | '/' :: rest => (tokens (position + 3) (some '/') rest).map (.anyDepth :: ·)
      | _ => .error ⟨position + 2, .partialDepth⟩
    else .error ⟨position - 1, .partialDepth⟩
  | '*' :: rest => (tokens (position + 1) (some '*') rest).map (.anyRow :: ·)
  | '[' :: rest =>
    match bracket? rest with
    | some (token, size) =>
      (tokens (position + 1 + size) (some ']') (rest.drop size)).map (token :: ·)
    | none => .error ⟨position, .invalidRange⟩
  | c :: rest => (tokens (position + 1) (some c) rest).map (.char c :: ·)
termination_by cs.length
decreasing_by all_goals simp +arith [List.length_drop]

/-- A pattern: its elements in order. -/
abbrev Pattern := List Token

namespace Pattern

/-- The pattern that a text describes. -/
def ofChars (cs : List Char) : Except PatternFault Pattern := tokens 0 none cs

/-- The one name that a pattern without wildcards stands for. -/
def name? (p : Pattern) : Option String := (p.mapM Token.char?).map String.ofList

/-- Whether the pattern stands for any depth of directories. -/
def isAnyDepth (p : Pattern) : Bool := p.contains .anyDepth

/-- Whether the pattern stands for the name. -/
def accepts : Pattern → List Char → Bool
  | [], cs => cs.isEmpty
  | .anyRow :: p, cs => (List.range (cs.length + 1)).any fun n => accepts p (cs.drop n)
  | .anyDepth :: p, cs => (List.range (cs.length + 1)).any fun n => accepts p (cs.drop n)
  | token :: p, c :: cs => token.accepts c && accepts p cs
  | _ :: _, [] => false

end Pattern

end EntitySchema.Glob
