import EntitySchema.Generation
import EntitySchema.Proofs.Actions
import EntitySchema.Proofs.Checks

/-!
# What generation fails for

An entity without a fault has a class, so when it fails, it fails for its file. A whole run over
such entities has no other faults either (`Generation.faults_generate`), whether it goes on after
a failure or not.
-/

namespace EntitySchema

/-- Whether the fault says that an entity has no class. -/
def GenerationFault.IsSchema (f : GenerationFault) : Prop :=
  ∃ entity reason, f = schema entity reason

theorem GenerationFault.not_isSchema_createDir (path : Path) (fault : FileFault) :
    ¬ (createDir path fault).IsSchema := nofun

theorem GenerationFault.not_isSchema_write (path : Path) (fault : FileFault) :
    ¬ (write path fault).IsSchema := nofun

namespace Generator

variable {σ : Type} [FileStore (StateM σ)]

theorem writeEntity_fault {e : Entity} (h : e.fault? = none) (g : Generator) :
    Yields (fun r => ∀ fault, r = .error fault → ¬ fault.IsSchema)
      (g.writeEntity e : StateM σ _) := by
  obtain ⟨code, hcode⟩ := Java.exists_render_of_fault? h g.options
  obtain ⟨members, hmembers, -⟩ := Java.render_eq_ok_iff.mp hcode
  unfold writeEntity
  rw [hmembers]
  refine .bind_any fun code => .bind_any fun
    | .ok () => .pure nofun
    | .error fault => .pure fun _ hfault => ?_
  rw [← Except.error.inj hfault]
  exact GenerationFault.not_isSchema_write _ _

/-! ### Every entity is tried -/

theorem outcome_fault {e : Entity} (h : e.fault? = none) (g : Generator)
    (dir : Except FileFault Unit) :
    Yields (fun o => ∀ fault ∈ o.fault?, ¬ fault.IsSchema) (g.outcome dir e : StateM σ _) := by
  cases dir with
  | error fault =>
    refine .pure fun _ hfault => ?_
    rw [← Option.some.inj hfault]
    exact GenerationFault.not_isSchema_createDir _ _
  | ok u =>
    refine (writeEntity_fault h g).bind fun
      | .ok _, _ => .pure nofun
      | .error fault, hr => .pure fun _ hfault => ?_
    exact hr _ (congrArg _ (Option.some.inj hfault))

theorem outcomes_fault {es : List Entity} (h : ∀ e ∈ es, e.fault? = none) (g : Generator)
    (dir : Except FileFault Unit) :
    Yields (fun os => ∀ o ∈ os, ∀ fault ∈ o.fault?, ¬ fault.IsSchema)
      (g.outcomes dir es : StateM σ _) := by
  induction es with
  | nil => exact .pure nofun
  | cons e es ih =>
    refine (outcome_fault (h e List.mem_cons_self) g dir).bind fun o ho => ?_
    refine (ih fun e he => h e (List.mem_cons_of_mem _ he)).bind fun os hos => .pure ?_
    exact List.forall_mem_cons.mpr ⟨ho, hos⟩

/-! ### The first failure ends the run -/

theorem createOutputDir_fault (g : Generator) :
    Yields (fun r => ∀ fault, r = .error fault → ¬ fault.IsSchema)
      (g.createOutputDir : StateM σ _) := by
  refine .bind_any fun
    | .ok () => .pure nofun
    | .error fault => .pure fun _ hfault => ?_
  rw [← Except.error.inj hfault]
  exact GenerationFault.not_isSchema_createDir _ _

/-- What comes before the first failure has succeeded. -/
theorem writeOutcomes_fault {es : List Entity} (h : ∀ e ∈ es, e.fault? = none) (g : Generator) :
    Yields (fun r => (∀ fault, r = .error fault → ¬ fault.IsSchema)
        ∧ ∀ os, r = .ok os → ∀ o ∈ os, o.fault? = none)
      (g.writeOutcomes es : StateM σ _) := by
  induction es with
  | nil => exact .pure ⟨nofun, fun _ hos o ho => by cases hos; cases ho⟩
  | cons e es ih =>
    refine (writeEntity_fault (h e List.mem_cons_self) g).bind fun
      | .error _, hr => .pure ⟨fun fault hfault => hr fault (by cases hfault; rfl), nofun⟩
      | .ok path, _ => ?_
    refine (ih fun e he => h e (List.mem_cons_of_mem _ he)).bind fun
      | .error _, hr => .pure ⟨fun fault hfault => hr.1 fault (by cases hfault; rfl), nofun⟩
      | .ok os, hr => .pure ⟨nofun, fun _ hos => ?_⟩
    cases hos
    exact List.forall_mem_cons.mpr ⟨rfl, hr.2 os rfl⟩

end Generator

namespace Generation

/-- The faults of a run: the one that stopped it, or those of the entities that failed. -/
def faults : Except GenerationFault Report → List GenerationFault
  | .error fault => [fault]
  | .ok r => r.outcomes.filterMap Outcome.fault?

/-- **Entities without faults fail for their files only,** whether a run goes on after a failure or
not. -/
theorem faults_generate {σ : Type} [FileStore (StateM σ)] {es : List Entity}
    (h : ∀ e ∈ es, e.fault? = none) (g : Generator) (keepGoing : Bool) :
    Yields (fun r => ∀ fault ∈ faults r, ¬ fault.IsSchema)
      (generate g keepGoing es : StateM σ _) := by
  have ofOutcomes {os : List Outcome} (hos : ∀ o ∈ os, ∀ fault ∈ o.fault?, ¬ fault.IsSchema) :
      ∀ fault ∈ faults (.ok ⟨os⟩), ¬ fault.IsSchema := by
    intro fault hfault
    obtain ⟨o, ho, hfault⟩ := List.mem_filterMap.mp hfault
    exact hos o ho fault hfault
  have ofError {fault : GenerationFault} (hfault : ¬ fault.IsSchema) :
      ∀ f ∈ faults (.error fault), ¬ f.IsSchema := by
    intro f hf
    rwa [List.mem_singleton.mp hf]
  cases keepGoing with
  | true =>
    -- a run that goes on reports every fault, and each is that of one entity
    refine Yields.bind (P := fun r => ∀ fault ∈ faults (.ok r), ¬ fault.IsSchema) ?_
      fun r hr => .pure hr
    exact .bind_any fun dir => (g.outcomes_fault h dir).bind fun _ hos => .pure (ofOutcomes hos)
  | false =>
    -- any other run ends with its first fault, or reports none
    refine g.createOutputDir_fault.bind fun
      | .error fault, hr => .pure (ofError (hr fault rfl))
      | .ok (), _ => (g.writeOutcomes_fault h).bind fun
        | .error fault, hr => .pure (ofError (hr.1 fault rfl))
        | .ok os, hr => .pure (ofOutcomes fun o ho fault hfault => ?_)
    rw [hr.2 os rfl o ho] at hfault
    exact nomatch hfault

end Generation

end EntitySchema
