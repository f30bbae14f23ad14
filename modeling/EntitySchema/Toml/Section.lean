import EntitySchema.Toml.Basic

/-!
# Tables of a TOML document

A document is a row of statements: headers, which open a table or one more table of an array, and
pairs, which put a value into the table that is open. Which tables may still be added to depends
on how they came to be, so a document in the making keeps the origin of its tables. A value is
never given twice.
-/

namespace EntitySchema.Toml

/-- How a table came to be. -/
inductive Origin
  /-- It has a header of its own. -/
  | header
  /-- It holds a table that has a header. -/
  | implied
  /-- A dotted key passes through it. -/
  | dotted
  deriving DecidableEq, Repr

/-- What stands under a key of a document in the making. -/
inductive Entry
  | value (v : Toml)
  | table (origin : Origin) (members : List (String × Entry))
  /-- An array of tables, to the last of which may be added. -/
  | tables (elements : List (List (String × Entry)))

/-- What stands under the keys of a table in the making. -/
abbrev Members := List (String × Entry)

namespace Members

/-- The members with another entry under a key that is there. -/
def set (key : String) (e : Entry) (ms : Members) : Members :=
  ms.map fun (k, old) => (k, if k = key then e else old)

/-- The members with a value under a dotted key. The key may pass through tables that have no
header, and ends in a table that dotted keys made. -/
def insert (v : Toml) : List String → Members → Option Members
  | [], _ => none
  | [key], ms =>
    match ms.lookup key with
    | none => some (ms ++ [(key, .value v)])
    | some _ => none
  | key :: next :: keys, ms =>
    match ms.lookup key with
    | none => do
      let sub ← insert v (next :: keys) []
      some (ms ++ [(key, .table .dotted sub)])
    | some (.table .dotted sub) => do
      let sub ← insert v (next :: keys) sub
      some (ms.set key (.table .dotted sub))
    | some (.table .implied sub) =>
      if keys.isEmpty then none
      else do
        let sub ← insert v (next :: keys) sub
        some (ms.set key (.table .implied sub))
    | some (.tables elements) =>
      if keys.isEmpty then none
      else do
        let sub ← insert v (next :: keys) (← elements.getLast?)
        some (ms.set key (.tables (elements.dropLast ++ [sub])))
    | some (.table .header _) => none
    | some (.value _) => none

/-- The members after a change to those of the table that a header's keys lead to, by way of the
last table of any array; missing tables are made. -/
def change (f : Members → Option Members) : List String → Members → Option Members
  | [], ms => f ms
  | key :: keys, ms =>
    match ms.lookup key with
    | none => do
      let sub ← change f keys []
      some (ms ++ [(key, .table .implied sub)])
    | some (.table origin sub) => do
      let sub ← change f keys sub
      some (ms.set key (.table origin sub))
    | some (.tables elements) => do
      let sub ← change f keys (← elements.getLast?)
      some (ms.set key (.tables (elements.dropLast ++ [sub])))
    | some (.value _) => none

/-- The members with a table under the key that has a header now. It may be one that was only
implied. -/
def openTable (key : String) (ms : Members) : Option Members :=
  match ms.lookup key with
  | none => some (ms ++ [(key, .table .header [])])
  | some (.table .implied sub) => some (ms.set key (.table .header sub))
  | some _ => none

/-- The members with one more table in the array under the key. -/
def openElement (key : String) (ms : Members) : Option Members :=
  match ms.lookup key with
  | none => some (ms ++ [(key, .tables [[]])])
  | some (.tables elements) => some (ms.set key (.tables (elements ++ [[]])))
  | some _ => none

end Members

mutual

/-- The value that an entry comes to. -/
def Entry.toToml : Entry → Toml
  | .value v => v
  | .table _ ms => .table (membersToToml ms)
  | .tables elements => .arr (elementsToToml elements)

/-- The members of a table with their values. -/
def membersToToml : List (String × Entry) → List (String × Toml)
  | [] => []
  | (key, e) :: rest => (key, e.toToml) :: membersToToml rest

/-- The tables of an array with their values. -/
def elementsToToml : List (List (String × Entry)) → List Toml
  | [] => []
  | ms :: rest => .table (membersToToml ms) :: elementsToToml rest

end

/-- The members of an inline table with these pairs of a dotted key and a value. -/
def inlineMembers? (pairs : List (List String × Toml)) : Option (List (String × Toml)) :=
  (pairs.foldlM (fun ms (keys, v) => Members.insert v keys ms) []).map membersToToml

/-- One statement of a document. -/
inductive Statement
  | pair (keys : List String) (v : Toml)
  | header (keys : List String)
  | element (keys : List String)

/-- A document in the making: its tables, and the keys of the current one. -/
structure Document where
  members : Members
  current : List String

namespace Document

/-- Nothing has been stated. -/
def start : Document := ⟨[], []⟩

/-- The document after one more statement, if it can be made. -/
def add (d : Document) : Statement → Option Document
  | .pair keys v => do
    let members ← d.members.change (Members.insert v keys) d.current
    some ⟨members, d.current⟩
  | .header keys => do
    let members ← d.members.change (Members.openTable (← keys.getLast?)) keys.dropLast
    some ⟨members, keys⟩
  | .element keys => do
    let members ← d.members.change (Members.openElement (← keys.getLast?)) keys.dropLast
    some ⟨members, keys⟩

/-- The members of the document that the statements make, if they can be made one after
another. -/
def ofStatements? (statements : List Statement) : Option (List (String × Toml)) := do
  let d ← statements.foldlM add start
  some (membersToToml d.members)

end Document

end EntitySchema.Toml
