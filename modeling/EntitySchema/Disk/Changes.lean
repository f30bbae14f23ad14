import EntitySchema.Disk.Basic
import EntitySchema.Text.Utf8

/-!
# Preparing a disk and comparing two

`put` and `remove` change a disk from outside, without the faults of a request. `changes` lists
what is different on the second of two disks, below the working directory.
-/

namespace EntitySchema.Disk

/-- The place that a path names, by its text alone. -/
def placeOf (d : Disk) (path : Path) : Place :=
  path.segments.foldl follow (if path.isAbsolute then [] else d.here)
where
  /-- The place after one more name of the path. -/
  follow (p : Place) (name : String) : Place :=
    if name = "." then p else if name = ".." then p.dropLast else p ++ [name]

/-- The disk with this content at the path and with the directories above it. A path that ends in
a slash is made a directory, and the content does not count. -/
def put (d : Disk) (path : Path) (content : ByteArray) : Disk :=
  let p := d.placeOf path
  if path.endsInSlash then d.ensureDirs p else (d.ensureDirs p.dropLast).set p (.file content)

/-- The disk without what stands at the path and below it. -/
def remove (d : Disk) (path : Path) : Disk := d.erase (d.placeOf path)

/-- One difference between two disks. -/
inductive Change
  | directory
  | text (content : String)
  | removed
  deriving DecidableEq, Repr

/-- The path of a place below the working directory, with a slash at the end of a directory. -/
def shown? (d : Disk) (p : Place) (n : Node) : Option String :=
  if d.here.isPrefixOf p && d.here.length < p.length then
    let text := "/".intercalate (p.drop d.here.length)
    some (if n = .directory then text ++ "/" else text)
  else none

/-- What is new on a disk that came from another one, has another content there, or is gone. -/
def changes (old new : Disk) : List (String × Change) :=
  (new.nodes.filterMap fun (p, n) =>
      if old.node? p = some n then none
      else
        (new.shown? p n).map fun path =>
          match n with
          | .directory => (path, .directory)
          | .file content => (path, .text (Text.decodeLossy content)))
    ++ old.nodes.filterMap fun (p, n) =>
      if (new.node? p).isSome then none else (old.shown? p n).map fun path => (path, .removed)

end EntitySchema.Disk
