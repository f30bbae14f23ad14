import EntitySchema.FileStore

/-!
# A file system as a value

A `Disk` holds files and directories by their place below the root, and a working directory at
which relative paths start. There are no links and no permissions. A path is walked from left to
right: every step has to start in a directory, and the first step that cannot be taken is the
fault of the whole path.
-/

namespace EntitySchema

/-- The place of an entry: the names from the root to it. -/
abbrev Place := List String

/-- What stands at a place. -/
inductive Node
  | directory
  | file (content : ByteArray)

namespace Node

instance : DecidableEq Node
  | directory, directory => isTrue rfl
  | directory, file _ => isFalse Node.noConfusion
  | file _, directory => isFalse Node.noConfusion
  | file a, file b =>
    if h : a.data = b.data then isTrue (congrArg file (ByteArray.ext h))
    else isFalse fun e => h (congrArg ByteArray.data (Node.file.inj e))

/-- The kind of the node. -/
def kind : Node → FileKind
  | directory => .directory
  | file _ => .file

end Node

/-- A file system: what stands at which place, and the working directory. -/
structure Disk where
  nodes : List (Place × Node)
  here : Place
  deriving DecidableEq

namespace Disk

/-! ## Nodes by place -/

/-- What stands at the place; the root is always a directory. -/
def node? (d : Disk) (p : Place) : Option Node :=
  if p = [] then some .directory else d.nodes.lookup p

/-- The entries with this node at this place, in the position of the one that was there. -/
def assign (p : Place) (n : Node) : List (Place × Node) → List (Place × Node)
  | [] => [(p, n)]
  | (q, k) :: rest => if q = p then (q, n) :: rest else (q, k) :: assign p n rest

/-- The disk with this node at this place. -/
def set (d : Disk) (p : Place) (n : Node) : Disk := { d with nodes := assign p n d.nodes }

/-- The disk without the place and everything below it. -/
def erase (d : Disk) (p : Place) : Disk :=
  { d with nodes := d.nodes.filter fun (q, _) => !p.isPrefixOf q }

/-- The names of the entries of a directory. -/
def names (d : Disk) (p : Place) : List String :=
  d.nodes.filterMap fun (q, _) => if q.dropLast = p then q.getLast? else none

/-- The disk with the place and every place above it a directory, unless something is there. -/
def ensureDirs (d : Disk) (p : Place) : Disk :=
  (List.range p.length).foldl (fun d k =>
    let q := p.take (k + 1)
    if (d.node? q).isSome then d else d.set q .directory) d

/-- A disk with nothing on it but the working directory. -/
def empty (here : Place) : Disk := (Disk.mk [] here).ensureDirs here

theorem lookup_cons (p q : Place) (n : Node) (nodes : List (Place × Node)) :
    ((p, n) :: nodes).lookup q = if q = p then some n else nodes.lookup q := by
  by_cases h : q = p
  · simp [h]
  · have hb : (q == p) = false := by simpa using h
    rw [List.lookup_cons, hb, if_neg h]

theorem lookup_assign (p q : Place) (n : Node) (nodes : List (Place × Node)) :
    (assign p n nodes).lookup q = if q = p then some n else nodes.lookup q := by
  induction nodes with
  | nil => exact lookup_cons p q n []
  | cons entry rest ih =>
    obtain ⟨r, k⟩ := entry
    unfold assign
    by_cases h : r = p
    · rw [if_pos h, lookup_cons, lookup_cons, h]
      by_cases hq : q = p <;> simp [hq]
    · rw [if_neg h, lookup_cons, lookup_cons, ih]
      by_cases hq : q = r
      · have hne : q ≠ p := fun e => h (hq ▸ e)
        simp [hq, h]
      · simp [hq]

/-- What stands at a place after a change there, and at any other place what stood there. -/
theorem node?_set (d : Disk) {p : Place} (hp : p ≠ []) (n : Node) (q : Place) :
    (d.set p n).node? q = if q = p then some n else d.node? q := by
  unfold node? set
  by_cases hq : q = []
  · rw [if_pos hq, if_pos hq, if_neg (fun e : q = p => hp (e ▸ hq))]
  · rw [if_neg hq, if_neg hq, lookup_assign]

/-! ## Walking a path -/

/-- The longest name that an entry can have, in bytes. -/
def maxNameSize : Nat := 255

/-- Whether a name can be the name of an entry. -/
def nameFits (name : String) : Bool := name.utf8ByteSize ≤ maxNameSize

/-- The place after one step from a place that has to be a directory. The name leads to an entry,
present or not. -/
def step (d : Disk) (p : Place) (name : String) : Except FileFault Place :=
  match d.node? p with
  | some .directory =>
    if name = "." then .ok p
    else if name = ".." then .ok p.dropLast
    else if nameFits name then .ok (p ++ [name])
    else .error .nameTooLong
  | _ => .error .notDirectory

/-- The place after a step to an entry that has to be present. -/
def stepInto (d : Disk) (p : Place) (name : String) : Except FileFault Place := do
  let q ← d.step p name
  if (d.node? q).isSome then .ok q else .error .notFound

/-- The place after steps to entries that have to be present. -/
def walk (d : Disk) : Place → List String → Except FileFault Place
  | p, [] => .ok p
  | p, name :: names => do d.walk (← d.stepInto p name) names

/-- Where the walk along a path starts, unless the path can not be asked for at all. -/
def entrance (d : Disk) (path : Path) : Except FileFault Place :=
  if path.text.toList.contains '\x00' then .error .nulInName
  else if path.text.isEmpty then .error .notFound
  else if path.text.utf8ByteSize > Path.maxSize then .error .nameTooLong
  else if path.isAbsolute then .ok []
  else .ok d.here

/-- The place that a path leads to, which has to be present, and has to be a directory if the path
ends in a slash. -/
def locate (d : Disk) (path : Path) : Except FileFault Place := do
  let p ← d.walk (← d.entrance path) path.segments
  if path.endsInSlash && d.node? p ≠ some .directory then .error .notDirectory else .ok p

/-- The place of the directory that holds the last entry of a path, and the name of that entry; no
name when the path ends in a dot name or is the root. -/
def locateParent (d : Disk) (path : Path) : Except FileFault (Place × Option String) := do
  let start ← d.entrance path
  match path.segments.getLast? with
  | none => .ok (start, none)
  | some name =>
    let p ← d.walk start path.segments.dropLast
    if d.node? p ≠ some .directory then .error .notDirectory
    else if name = "." || name = ".." then .ok (p, none)
    else .ok (p, some name)

/-! ## Requests -/

/-- What stands at the path, if anything does. -/
def kind? (d : Disk) (path : Path) : Option FileKind :=
  match d.locate path with
  | .ok p => (d.node? p).map Node.kind
  | .error _ => none

/-- The content of the file at the path. -/
def read (d : Disk) (path : Path) : Except FileFault ByteArray := do
  match d.node? (← d.locate path) with
  | some (.file content) => .ok content
  | some .directory => .error .isDirectory
  | none => .error .notFound

/-- The names in the directory at the path. -/
def list (d : Disk) (path : Path) : Except FileFault (List String) := do
  let p ← d.locate path
  if d.node? p = some .directory then .ok (d.names p) else .error .notDirectory

/-- The disk with a new directory at the path. Nothing may be there yet. -/
def makeDir (d : Disk) (path : Path) : Except FileFault Disk := do
  match ← d.locateParent path with
  | (_, none) => .error .alreadyExists
  | (p, some name) =>
    let q ← d.step p name
    if (d.node? q).isSome then .error .alreadyExists else .ok (d.set q .directory)

/-- The disk with this content in the file at the path, which is made if it is not there. -/
def write (d : Disk) (path : Path) (content : ByteArray) : Except FileFault Disk := do
  match ← d.locateParent path with
  | (_, none) => .error .isDirectory
  | (p, some name) =>
    if path.endsInSlash then .error .isDirectory
    else
      let q ← d.step p name
      if d.node? q = some .directory then .error .isDirectory else .ok (d.set q (.file content))

/-- The disk with nothing in the file at the path, which is made if it is not there. -/
def create (d : Disk) (path : Path) : Except FileFault Disk := d.write path ByteArray.empty

/-- The disk with more content at the end of the file at the path. -/
def append (d : Disk) (path : Path) (content : ByteArray) : Except FileFault Disk := do
  let p ← d.locate path
  match d.node? p with
  | some (.file old) => .ok (d.set p (.file (old ++ content)))
  | some .directory => .error .isDirectory
  | none => .error .notFound

section Requests

variable {n : Type → Type} [Monad n]

/-- One request that changes the disk if it succeeds and leaves it as it is otherwise. -/
def attempt (change : Disk → Except FileFault Disk) : StateT Disk n (Except FileFault Unit) :=
  fun d =>
    match change d with
    | .ok d' => pure (.ok (), d')
    | .error fault => pure (.error fault, d)

/-- A disk always has room for more. How much room there is for texts is up to the memory that the
run has besides. -/
instance [Memory n] : FileStore (StateT Disk n) where
  allot size := StateT.lift (Memory.allot size)
  kind? path := fun d => pure (d.kind? path, d)
  read path := fun d => pure (d.read path, d)
  list path := fun d => pure (d.list path, d)
  makeDir path := attempt (·.makeDir path)
  create path := attempt (·.create path)
  append path content := attempt (·.append path content)
  flush _ := fun d => pure (.ok (), d)

end Requests

end Disk

end EntitySchema
