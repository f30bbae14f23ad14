import EntitySchema.Disk.Basic

/-!
# Disks with limited room

A `Volume` is a disk with room for so many bytes and no more. A file that does not fit is not
refused as a whole: it is opened, gets the part for which there is room, and is left with that.
-/

namespace EntitySchema

/-- A disk, and for how many more bytes there is room on it. -/
structure Volume where
  disk : Disk
  room : Nat
  deriving DecidableEq

namespace Volume

/-- The fault of a file that does not fit. -/
def full : FileFault := .other "No space left on device (os error 28)"

/-- Adds as much of the content to the file at the path as there is room for. -/
def append (v : Volume) (path : Path) (content : ByteArray) : Except FileFault Unit × Volume :=
  let part := content.extract 0 v.room
  match v.disk.append path part with
  | .error fault => (.error fault, v)
  | .ok disk =>
    (if content.size ≤ v.room then .ok () else .error full, ⟨disk, v.room - part.size⟩)

variable {n : Type → Type} [Monad n]

/-- An action on the disk, which takes no room. -/
def onDisk {α : Type} (action : StateT Disk n α) : StateT Volume n α := fun v => do
  let (result, disk) ← action v.disk
  return (result, { v with disk })

/-- Room is taken by the content of files only, and what a file held before is not given back. -/
instance [Memory n] : FileStore (StateT Volume n) where
  allot size := StateT.lift (Memory.allot size)
  kind? path := onDisk (FileStore.kind? path)
  read path := onDisk (FileStore.read path)
  list path := onDisk (FileStore.list path)
  makeDir path := onDisk (FileStore.makeDir path)
  create path := onDisk (FileStore.create path)
  append path content := fun v => pure (v.append path content)
  flush path := onDisk (FileStore.flush path)

end Volume

end EntitySchema
