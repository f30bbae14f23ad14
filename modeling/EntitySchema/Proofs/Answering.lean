import EntitySchema.Proofs.Actions
import EntitySchema.Proofs.Writing

/-!
# What can be relied on of a store

A store may end a run, and a file that was opened in it may be left with a part of its content. Where
a store is `FileStore.Atomic`, an entity that can not be written changes nothing
(`Generator.eq_of_writeEntity_error`). A disk is such a store, and on a machine it answers whatever
it is asked, as long as there is room for the classes (`Generator.answered_generateEach`).
-/

namespace EntitySchema

/-! ## Stores that write whole files -/

/-- Stores in which a file is written as a whole or not at all, and which do not change when a text
is made. -/
structure FileStore.Atomic (σ : Type) (n : Type → Type) [Monad n] [FileStore (StateT σ n)] :
    Prop where
  allot : ∀ {size : Nat} {s s' : σ}, Comes (n := n) (Memory.allot size) s () s' → s' = s
  /-- To save a file that can not be saved leaves everything as it was. -/
  save : ∀ {path : Path} {content : ByteArray} {s s' : σ} {fault : FileFault},
    Comes (n := n) (FileStore.save path content) s (.error fault) s' → s' = s

/-- **A disk is such a store,** whatever the memory. -/
theorem Disk.atomic (n : Type → Type) [Monad n] [LawfulMonad n] [Stepwise n] [Memory n] :
    FileStore.Atomic Disk n where
  allot {size s s'} h := by
    have hlift : (Memory.allot size : StateT Disk n Unit).run s = _ :=
      StateT.run_lift (Memory.allot size) s
    obtain ⟨⟨⟩, -, hpair⟩ := Stepwise.of_bind (hlift.symm.trans h)
    exact (congrArg Prod.snd (Stepwise.pure_inj hpair)).symm
  save {path content s s' fault} h := by
    unfold Comes at h
    rw [run_save] at h
    cases hwrite : s.write path content with
    | error f =>
      rw [attempt_of_error hwrite] at h
      exact (congrArg Prod.snd (Stepwise.pure_inj h)).symm
    | ok d' =>
      rw [attempt_of_ok hwrite] at h
      exact nomatch congrArg Prod.fst (Stepwise.pure_inj h)

namespace Disk

variable {n : Type → Type} [Monad n]

/-! ## Disks answer -/

theorem answered_attempt (change : Disk → Except FileFault Disk) :
    Answered (attempt change : StateT Disk n _) := by
  intro d
  cases h : change d with
  | ok d' => exact ⟨_, _, attempt_of_ok h⟩
  | error fault => exact ⟨_, _, attempt_of_error h⟩

variable [LawfulMonad n] [Memory n]

theorem answered_save (path : Path) (content : ByteArray) :
    Answered (FileStore.save path content : StateT Disk n _) := by
  intro d
  obtain ⟨result, d', h⟩ := answered_attempt (n := n) (·.write path content) d
  exact ⟨result, d', (run_save path content d).trans h⟩

theorem answered_makeDirs (path : Path) : Answered (FileStore.makeDirs path : StateT Disk n _) := by
  have hmake (p : Path) : Answered (FileStore.makeDir p : StateT Disk n _) := answered_attempt _
  have hsettle (p : Path) (result : Except FileFault Unit) :
      Answered (FileStore.makeDirsFrom.settle p result : StateT Disk n _) := by
    cases result with
    | ok u => exact .pure _
    | error fault =>
      have hkind : Answered (FileStore.kind? p : StateT Disk n _) :=
        fun d => ⟨d.kind? p, d, rfl⟩
      refine (hkind.bind fun _ => .pure _).bind fun there => ?_
      cases there <;> exact .pure _
  unfold FileStore.makeDirs
  induction path.ancestors with
  | nil => exact .pure _
  | cons p above ih =>
    unfold FileStore.makeDirsFrom
    refine (hmake p).bind fun made => ?_
    split
    · exact .pure _
    · refine ih.bind fun rest => ?_
      cases rest with
      | error fault => exact .pure _
      | ok u => exact (hmake p).bind (hsettle p)
    · exact hsettle p _

end Disk

namespace Generator

/-! ## Entities -/

/-- In a store that writes whole files an entity that can not be written changes nothing. -/
theorem eq_of_writeEntity_error {σ : Type} {n : Type → Type} [Monad n] [LawfulMonad n] [Stepwise n]
    [FileStore (StateT σ n)] {g : Generator} {e : Entity} {s s' : σ}
    (hatomic : FileStore.Atomic σ n) {fault : GenerationFault}
    (h : Comes (n := n) (g.writeEntity e) s (.error fault) s') : s' = s := by
  unfold Generator.writeEntity at h
  cases hmembers : Java.membersOf e with
  | error f =>
    rw [hmembers] at h
    exact (Comes.of_pure h).2
  | ok members =>
    rw [hmembers] at h
    obtain ⟨code, s₁, htext, hsaving⟩ := Comes.of_bind h
    -- to make the text leaves the state as it is
    obtain ⟨⟨⟩, sₐ, hindent, hrest⟩ := Comes.of_bind htext
    obtain ⟨⟨⟩, sᵦ, hroom, hlast⟩ := Comes.of_bind hrest
    have hsame : s₁ = s := by
      rw [(Comes.of_pure hlast).2, hatomic.allot hroom, hatomic.allot hindent]
    subst hsame
    obtain ⟨saved, s₂, hsave, hresult⟩ := Comes.of_bind hsaving
    cases saved with
    | ok u => exact nomatch (Comes.of_pure hresult).1
    | error f =>
      rw [(Comes.of_pure hresult).2]
      exact hatomic.save hsave

variable {g : Generator} {e : Entity} {es : List Entity}

/-- A machine with room for the class of an entity can tell whether it can be written. -/
theorem answered_writeEntity (hroom : Java.HasRoom g.options e) :
    Answered (g.writeEntity e : StateT Disk Option _) := by
  have hallot {size : Nat} (hsize : size ≤ Text.maxSize) :
      Answered (Memory.allot size : StateT Disk Option Unit) := by
    intro d
    have hmachine : (Memory.allot size : Option Unit) = some () := if_pos hsize
    refine ⟨(), d, ?_⟩
    show (Memory.allot size : Option Unit).bind _ = _
    rw [hmachine]
    rfl
  unfold writeEntity
  cases hmembers : Java.membersOf e with
  | error fault => exact .pure _
  | ok members =>
    have hcode := hroom.fileText_le hmembers
    have htext : Answered (Java.textIn g.options e members : StateT Disk Option _) :=
      (hallot (Nat.le_trans (Java.indent_le_fileText _ _ _) hcode)).bind fun _ =>
        (hallot hcode).bind fun _ => .pure _
    refine htext.bind fun code => (Disk.answered_save _ _).bind ?_
    intro saved
    cases saved <;> exact .pure _

/-- **With room for the classes of all entities a machine gives a report.** -/
theorem answered_generateEach (hroom : ∀ e ∈ es, Java.HasRoom g.options e) :
    Answered (g.generateEach es : StateT Disk Option _) := by
  refine (Disk.answered_makeDirs g.outputDir).bind fun dir => ?_
  have houtcomes : Answered (g.outcomes dir es : StateT Disk Option _) := by
    induction es with
    | nil => exact .pure _
    | cons e es ih =>
      obtain ⟨hfirst, hrest⟩ := List.forall_mem_cons.mp hroom
      have houtcome : Answered (g.outcome dir e : StateT Disk Option _) := by
        cases dir with
        | ok u => exact (answered_writeEntity hfirst).bind fun _ => .pure _
        | error fault => exact .pure _
      exact houtcome.bind fun _ => (ih hrest).bind fun _ => .pure _
  exact houtcomes.bind fun _ => .pure _

end Generator

end EntitySchema
