import EntitySchema.Proofs.Writing

/-!
# Actions that put files

Some actions do nothing to a disk but put files on it, and which files these are, and what the
action comes to, depends on the directories alone (`Disk.Puts`). To put files changes no directory,
and to put them a second time changes nothing, even when some of them go to one place
(`Disk.putFiles_putFiles`). So such an action can be done again: it comes to the same and leaves the
disk as it is (`Disk.Puts.again`).
-/

namespace EntitySchema

namespace Disk

variable {d d₀ : Disk} {p q : Place} {m n : Node} {nodes : List (Place × Node)}
  {files : List (Place × ByteArray)}

/-! ## Files put twice -/

/-- What is there already is given another node in its position, whatever else is done. -/
theorem assign_comm (hne : p ≠ q) (hp : (nodes.lookup p).isSome) (m n : Node) :
    assign q m (assign p n nodes) = assign p n (assign q m nodes) := by
  induction nodes with
  | nil => exact nomatch hp
  | cons e nodes ih =>
    obtain ⟨r, k⟩ := e
    by_cases hr : r = p
    · have hrq : ¬ p = q := hne
      simp [assign, hr, hrq]
    · have hrest : (nodes.lookup p).isSome := by
        rwa [lookup_cons, if_neg (Ne.symm hr)] at hp
      by_cases hrq : r = q
      · simp [assign, hrq, Ne.symm hne]
      · simp [assign, hr, hrq, ih hrest]

theorem isSome_lookup_assign (hp : (nodes.lookup p).isSome) (q : Place) (m : Node) :
    ((assign q m nodes).lookup p).isSome := by
  rw [lookup_assign]
  split
  · rfl
  · exact hp

theorem isSome_lookup_putFiles (hp : (d.nodes.lookup p).isSome)
    (files : List (Place × ByteArray)) : ((d.putFiles files).nodes.lookup p).isSome := by
  induction files generalizing d with
  | nil => exact hp
  | cons f files ih => exact ih (isSome_lookup_assign hp f.1 (.file f.2))

/-- A file at a place where something is comes to nothing if another is put there later, and
otherwise it may as well be put there last. -/
theorem putFiles_set (hp : (d.nodes.lookup p).isSome) (n : Node)
    (files : List (Place × ByteArray)) :
    (d.set p n).putFiles files
      = if p ∈ files.map Prod.fst then d.putFiles files else (d.putFiles files).set p n := by
  induction files generalizing d with
  | nil => rfl
  | cons f files ih =>
    obtain ⟨q, content⟩ := f
    show ((d.set p n).set q (.file content)).putFiles files = _
    by_cases hq : p = q
    · have hset : (d.set p n).set q (.file content) = d.set q (.file content) := by
        rw [hq]
        exact set_set d q (.file content) n
      rw [hset, if_pos (by simp [hq])]
      rfl
    · have hset : (d.set p n).set q (.file content) = (d.set q (.file content)).set p n :=
        congrArg (Disk.mk · d.here) (assign_comm hq hp (.file content) n)
      have hmem : p ∈ ((q, content) :: files).map Prod.fst ↔ p ∈ files.map Prod.fst := by
        simp [hq]
      rw [hset, ih (isSome_lookup_assign hp q _)]
      simp only [hmem]
      rfl

/-- **To put files a second time changes nothing.** -/
theorem putFiles_putFiles (d : Disk) (files : List (Place × ByteArray)) :
    (d.putFiles files).putFiles files = d.putFiles files := by
  induction files generalizing d with
  | nil => rfl
  | cons f files ih =>
    obtain ⟨p, content⟩ := f
    have hthere : ((d.set p (.file content)).nodes.lookup p).isSome := by
      show ((assign p (.file content) d.nodes).lookup p).isSome
      rw [lookup_assign, if_pos rfl]
      rfl
    show (((d.set p (.file content)).putFiles files).set p (.file content)).putFiles files
      = (d.set p (.file content)).putFiles files
    rw [putFiles_set (isSome_lookup_putFiles hthere files), ih]
    split
    · rfl
    · next hnone =>
      -- nothing else is put there, so it is there already
      have hset := putFiles_set hthere (.file content) files
      rw [if_neg hnone] at hset
      rw [← hset]
      exact congrArg (fun nodes => (Disk.mk nodes d.here).putFiles files)
        (assign_assign p (.file content) (.file content) d.nodes)

/-! ## What depends on the directories alone -/

variable {path : Path} {content : ByteArray} {fault : FileFault}

/-- An action with one result on all disks with the directories of this one, where it puts the same
files, and none of them in place of a directory. -/
def Puts {α : Type} (d₀ : Disk) (a : StateM Disk α) : Prop :=
  ∃ r files, (∀ f ∈ files, d₀.node? f.1 ≠ some .directory)
    ∧ ∀ d, DirsKept d₀ d → DirsKept d d₀ → a.run d = (r, d.putFiles files)

namespace Puts

variable {α β : Type} {a : StateM Disk α} {f : α → StateM Disk β}

theorem pure (d₀ : Disk) (x : α) : Puts d₀ (Pure.pure x : StateM Disk α) :=
  ⟨x, [], nofun, fun _ _ _ => rfl⟩

theorem bind (ha : Puts d₀ a) (hf : ∀ x, Puts d₀ (f x)) : Puts d₀ (a >>= f) := by
  obtain ⟨x, files, hfree, hrun⟩ := ha
  obtain ⟨y, more, hfree', hrun'⟩ := hf x
  refine ⟨y, files ++ more, List.forall_mem_append.mpr ⟨hfree, hfree'⟩, ?_⟩
  intro d hkept hback
  obtain ⟨hkept', hback'⟩ := dirsKept_putFiles hfree hkept hback
  rw [StateT.run_bind, hrun d hkept hback, putFiles_append]
  exact hrun' _ hkept' hback'

/-- **To put the same files again comes to the same and changes nothing.** -/
theorem again (h : Puts d₀ a) :
    a.run (a.run d₀).2 = a.run d₀ ∧ DirsKept d₀ (a.run d₀).2 := by
  obtain ⟨x, files, hfree, hrun⟩ := h
  obtain ⟨hkept, hback⟩ := dirsKept_putFiles hfree (.refl d₀) (.refl d₀)
  rw [hrun d₀ (.refl d₀) (.refl d₀)]
  refine ⟨?_, hkept⟩
  rw [hrun _ hkept hback, putFiles_putFiles]

end Puts

end Disk

end EntitySchema
