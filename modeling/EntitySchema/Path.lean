/-!
# Paths

Paths as they are written, with slashes between the names. `join` puts a name below a path,
`components` says what a path passes through, and paths are compared by their components: repeated
slashes, inner dots and a slash at the end make no difference there.
-/

namespace EntitySchema

/-- A path as it is written. -/
structure Path where
  text : String
  deriving DecidableEq, Repr

namespace Path

/-- The longest path that a file system can be asked for, in bytes. -/
def maxSize : Nat := 4095

/-- Whether the path starts at the root. -/
def isAbsolute (p : Path) : Bool := p.text.toList.head? == some '/'

/-- Whether the path is written with a slash at its end. -/
def endsInSlash (p : Path) : Bool := p.text.toList.getLast? == some '/'

/-- The path of `name` below `p`. An absolute name replaces the path; a slash is put between the
two where none is yet. -/
def join (p : Path) (name : String) : Path :=
  if (Path.mk name).isAbsolute then ⟨name⟩
  else if p.text.isEmpty || p.endsInSlash then ⟨p.text ++ name⟩
  else ⟨p.text ++ "/" ++ name⟩

/-- The names in the path, the dots of `.` and `..` included, without the empty ones between
repeated slashes. -/
def segments (p : Path) : List String :=
  ((p.text.toList.splitOn '/').filter (!·.isEmpty)).map String.ofList

/-- What a path passes through. -/
inductive Component
  /-- The root of the file system. -/
  | root
  /-- The directory itself, written as a leading dot. -/
  | here
  /-- The directory above. -/
  | up
  /-- The entry with this name. -/
  | name (name : String)
  deriving DecidableEq, Repr

namespace Component

/-- The component that a name in a path stands for. -/
def ofSegment (segment : String) : Component := if segment == ".." then .up else .name segment

/-- The component as it is written; the root is the empty text before the first slash. -/
def text : Component → String
  | root => ""
  | here => "."
  | up => ".."
  | name n => n

/-- The place of the kinds of components in the order. -/
def rank : Component → Nat
  | root => 0
  | here => 1
  | up => 2
  | name _ => 3

/-- The order of components: by kind, and names by their characters. -/
def compare (a b : Component) : Ordering :=
  (Ord.compare a.rank b.rank).then (Ord.compare a.text b.text)

end Component

/-- What the path passes through. A dot counts only at the start of a relative path. -/
def components (p : Path) : List Component :=
  let follow (segments : List String) : List Component :=
    (segments.filter (· != ".")).map Component.ofSegment
  if p.isAbsolute then .root :: follow p.segments
  else
    match p.segments with
    | "." :: rest => .here :: follow rest
    | segments => follow segments

/-- A path that passes through these components. -/
def ofComponents (cs : List Component) : Path :=
  if cs = [.root] then ⟨"/"⟩ else ⟨"/".intercalate (cs.map Component.text)⟩

/-- The path and then the paths of the directories that it passes through, nearest first. -/
def ancestors (p : Path) : List Path :=
  if p.text.isEmpty then [] else p :: above p.components.dropLast.reverse
where
  /-- The paths that pass through the components, given in reverse, and through ever fewer. -/
  above : List Component → List Path
    | [] => []
    | c :: cs => ofComponents (c :: cs).reverse :: above cs

/-- The order of lists of components, first difference first. -/
def compareComponents : List Component → List Component → Ordering
  | [], [] => .eq
  | [], _ :: _ => .lt
  | _ :: _, [] => .gt
  | a :: as, b :: bs => (a.compare b).then (compareComponents as bs)

/-- The order of paths: by their components. -/
def compare (p q : Path) : Ordering := compareComponents p.components q.components

/-- Whether `p` does not come after `q`. -/
def le (p q : Path) : Bool := p.compare q != .gt

/-- Whether the two paths pass through the same components. -/
def sameComponents (p q : Path) : Bool := p.compare q == .eq

end Path

end EntitySchema
