import EntitySchema.Disk.Volume
import EntitySchema.Proofs.Answering

/-!
# Three ways to generate

`generate` and `generateReport` stop at the first entity that fails and differ in what they tell
only. `generateEach` goes on, but up to the first failure it does what the others do, so from the
same state of the same store the three agree on whether there is a failure, on the first one, and on
all that is written before it.

Two things can come between them. A class that is too large ends a run wherever it is asked for, and
the run that goes on asks for classes which the others do not reach. And a file that was opened may
be left with a part of its class. The second is ruled out where stores are `FileStore.Atomic`.
-/

namespace EntitySchema

namespace Generator

variable {g : Generator} {e : Entity} {es : List Entity}

/-! ## Two ways to stop at the first failure -/

section Programs

variable {m : Type → Type} [Monad m] [LawfulMonad m] [FileStore m]

/-- The outcomes of a run that stops at the first failure tell of the paths that it has written. -/
theorem writeOutcomes_written (g : Generator) (es : List Entity) :
    (Except.map fun os => os.filterMap Outcome.written?) <$> (g.writeOutcomes es : m _)
      = g.writeAll es := by
  induction es with
  | nil =>
    unfold writeOutcomes writeAll
    rw [map_pure]
    rfl
  | cons e es ih =>
    unfold writeOutcomes writeAll
    rw [map_bind, ← ih]
    refine bind_congr ?_
    intro written
    cases written with
    | error fault =>
      rw [map_pure]
      rfl
    | ok path =>
      dsimp only
      rw [map_bind, bind_map_left]
      refine bind_congr ?_
      intro rest
      cases rest with
      | error fault =>
        rw [map_pure]
        rfl
      | ok os =>
        rw [map_pure]
        rfl

/-- **A run with a report writes the same files,** whatever they are written to. -/
theorem generateReport_written (g : Generator) (es : List Entity) :
    (Except.map Report.written) <$> (g.generateReport es : m _) = g.generate es := by
  unfold generateReport generate
  rw [map_bind, ← writeOutcomes_written]
  refine bind_congr ?_
  intro dir
  cases dir with
  | error fault =>
    rw [map_pure]
    rfl
  | ok u =>
    dsimp only
    rw [map_bind, ← bind_pure_comp]
    refine bind_congr ?_
    intro rest
    cases rest with
    | error fault =>
      rw [map_pure]
      rfl
    | ok os =>
      rw [map_pure]
      rfl

/-! ## Without an output directory -/

/-- Without an output directory every entity fails, and nothing is written. -/
theorem outcomes_of_noDir (g : Generator) (fault : FileFault) (es : List Entity) :
    (g.outcomes (.error fault) es : m _)
      = pure (es.map fun e => ⟨e.name, .error (.createDir g.outputDir fault)⟩) := by
  induction es with
  | nil => rfl
  | cons e es ih =>
    unfold outcomes outcome
    dsimp only
    rw [pure_bind, ih, pure_bind]
    rfl

end Programs

/-! ## Reports with a failure -/

theorem isSuccess_of_forall {os : List Outcome} (h : ∀ o ∈ os, o.fault? = none) :
    (Report.mk os).isSuccess = true := by
  unfold Report.isSuccess
  rw [List.all_eq_true]
  intro o ho
  rw [h o ho]
  rfl

theorem isSuccess_of_failure {os : List Outcome} {k : Nat} {name : String}
    {fault : GenerationFault} (h : os[k]? = some ⟨name, .error fault⟩) :
    (Report.mk os).isSuccess = false := by
  unfold Report.isSuccess
  rw [List.all_eq_false]
  exact ⟨_, List.mem_of_getElem? h, Bool.false_ne_true⟩

/-- The first failure is the one before which nothing fails. -/
theorem failures_head?_of_failure {os : List Outcome} {k : Nat} {name : String}
    {fault : GenerationFault} (hall : ∀ o ∈ os.take k, o.fault? = none)
    (h : os[k]? = some ⟨name, .error fault⟩) :
    (Report.mk os).failures.head? = some (name, fault) := by
  have hnone : (os.take k).filterMap (fun o => o.fault?.map fun fault => (o.entity, fault))
      = [] := by
    rw [List.filterMap_eq_nil_iff]
    intro o ho
    rw [hall o ho]
    rfl
  have hsplit : os.drop k = ⟨name, .error fault⟩ :: os.drop (k + 1) :=
    (List.drop_eq_getElem?_toList_append ..).trans (by rw [h]; rfl)
  unfold Report.failures
  rw [← List.take_append_drop k os, List.filterMap_append, hnone, hsplit]
  rfl

/-! ## Stopping and going on -/

section Runs

variable {σ : Type} {n : Type → Type} [Monad n] [LawfulMonad n] [FileStore (StateT σ n)]
  {s s₁ s₂ s' : σ} {dir : Except FileFault Unit} {os : List Outcome}
  {stopped : Except GenerationFault (List Outcome)}

/-- How a run over entities ends that stops at the first failure, told by one that tries each of
them from the same state. -/
inductive Stops (n : Type → Type) [Monad n] [FileStore (StateT σ n)] (g : Generator)
    (dir : Except FileFault Unit) (es : List Entity) (s : σ) (os : List Outcome) (s₂ : σ)
    (stopped : Except GenerationFault (List Outcome)) (s' : σ) : Prop
  /-- Nothing fails, and the two are the same. -/
  | never (hall : ∀ o ∈ os, o.fault? = none) (hstopped : stopped = .ok os) (hstate : s' = s₂)
  /-- It ends with the first entity that fails, and what is before that one is done by both. -/
  | early (before after : List Entity) (e : Entity) (done more : List Outcome)
      (fault : GenerationFault) (s₁ : σ) (hes : es = before ++ e :: after)
      (hbefore : Comes (n := n) (g.outcomes dir before) s done s₁)
      (hall : ∀ o ∈ done, o.fault? = none)
      (hos : os = done ++ ⟨e.name, .error fault⟩ :: more)
      (hfailed : Comes (n := n) (g.outcome dir e) s₁ ⟨e.name, .error fault⟩ s')
      (hstopped : stopped = .error fault)

theorem comes_outcome {result : Except GenerationFault Path}
    (h : Comes (n := n) (g.writeEntity e) s result s') :
    Comes (n := n) (g.outcome (.ok ()) e) s ⟨e.name, result⟩ s' :=
  h.bind (.pure _ _)

theorem comes_outcomes_cons {o : Outcome} (hfirst : Comes (n := n) (g.outcome dir e) s o s₁)
    (hrest : Comes (n := n) (g.outcomes dir es) s₁ os s₂) :
    Comes (n := n) (g.outcomes dir (e :: es)) s (o :: os) s₂ :=
  hfirst.bind (hrest.bind (.pure _ _))

theorem comes_writeOutcomes_cons {path : Path}
    (hfirst : Comes (n := n) (g.writeEntity e) s (.ok path) s₁)
    (hrest : Comes (n := n) (g.writeOutcomes es) s₁ stopped s₂) :
    Comes (n := n) (g.writeOutcomes (e :: es)) s (stopped.map (⟨e.name, .ok path⟩ :: ·)) s₂ := by
  refine hfirst.bind (hrest.bind ?_)
  cases stopped <;> exact .pure _ _

theorem comes_createOutputDir (hdir : Comes (n := n) (FileStore.makeDirs g.outputDir) s dir s₁) :
    Comes (n := n) g.createOutputDir s (dir.mapError (.createDir g.outputDir)) s₁ := by
  refine hdir.bind ?_
  cases dir <;> exact .pure _ _

theorem comes_generateEach (hdir : Comes (n := n) (FileStore.makeDirs g.outputDir) s dir s₁)
    (h : Comes (n := n) (g.outcomes dir es) s₁ os s₂) :
    Comes (n := n) (g.generateEach es) s ⟨os⟩ s₂ :=
  hdir.bind (h.bind (.pure _ _))

theorem comes_generateReport_of_noDir {fault : FileFault} (es : List Entity)
    (hdir : Comes (n := n) (FileStore.makeDirs g.outputDir) s (.error fault) s₁) :
    Comes (n := n) (g.generateReport es) s (.error (.createDir g.outputDir fault)) s₁ :=
  (comes_createOutputDir hdir).bind (.pure _ _)

theorem comes_generateReport_of_dir
    (hdir : Comes (n := n) (FileStore.makeDirs g.outputDir) s (.ok ()) s₁)
    (h : Comes (n := n) (g.writeOutcomes es) s₁ stopped s') :
    Comes (n := n) (g.generateReport es) s (stopped.map Report.mk) s' := by
  refine (comes_createOutputDir hdir).bind (h.bind ?_)
  cases stopped <;> exact .pure _ _

omit [LawfulMonad n] in
/-- A run that is not stopped has done what one does that goes on. -/
theorem Stops.eq_of_ok {tried : Report} (h : g.Stops n dir es s tried.outcomes s₂ (.ok os) s') :
    tried = ⟨os⟩ ∧ tried.isSuccess = true ∧ s' = s₂ := by
  cases h with
  | never hall hstopped hstate =>
    cases hstopped
    exact ⟨rfl, isSuccess_of_forall hall, hstate⟩
  | early before after e done more fault s₁ hes hbefore hall hos hfailed hstopped =>
    exact nomatch hstopped

variable [Stepwise n]

/-- The outcomes of entities are those of the first and of the rest. -/
theorem exists_of_comes_outcomes_cons
    (h : Comes (n := n) (g.outcomes dir (e :: es)) s os s₂) :
    ∃ o rest s₁, Comes (n := n) (g.outcome dir e) s o s₁
      ∧ Comes (n := n) (g.outcomes dir es) s₁ rest s₂ ∧ os = o :: rest := by
  obtain ⟨o, s₁, hfirst, h⟩ := Comes.of_bind h
  obtain ⟨rest, s₂', hrest, h⟩ := Comes.of_bind h
  obtain ⟨rfl, rfl⟩ := Comes.of_pure h
  exact ⟨o, rest, s₁, hfirst, hrest, rfl⟩

/-- With an output directory, what becomes of an entity is what it comes to to write it. -/
theorem comes_outcome_iff {o : Outcome} :
    Comes (n := n) (g.outcome (.ok ()) e) s o s'
      ↔ o.entity = e.name ∧ Comes (n := n) (g.writeEntity e) s o.result s' := by
  constructor
  · intro h
    obtain ⟨result, s₁, hwrite, h⟩ := Comes.of_bind h
    obtain ⟨rfl, rfl⟩ := Comes.of_pure h
    exact ⟨rfl, hwrite⟩
  · rintro ⟨hname, hwrite⟩
    obtain ⟨entity, result⟩ := o
    subst hname
    exact comes_outcome hwrite

/-- **While entities are written, stopping and going on are the same up to the first failure.** -/
theorem writeOutcomes_stops (h : Comes (n := n) (g.outcomes (.ok ()) es) s os s₂) :
    ∃ stopped s', Comes (n := n) (g.writeOutcomes es) s stopped s'
      ∧ g.Stops n (.ok ()) es s os s₂ stopped s' := by
  induction es generalizing s os with
  | nil =>
    obtain ⟨rfl, rfl⟩ := Comes.of_pure h
    exact ⟨.ok [], s₂, .pure _ _, .never nofun rfl rfl⟩
  | cons e es ih =>
    obtain ⟨⟨name, result⟩, rest, s₁, hfirst, hrest, rfl⟩ := exists_of_comes_outcomes_cons h
    obtain ⟨rfl, hwrite⟩ : name = e.name ∧ _ := comes_outcome_iff.mp hfirst
    cases result with
    | error fault =>
      -- the first entity fails, and before it there is nothing
      exact ⟨.error fault, s₁, hwrite.bind (.pure _ _),
        .early [] es e [] rest fault s rfl (.pure _ _) nofun rfl hfirst rfl⟩
    | ok path =>
      have hok : (⟨e.name, .ok path⟩ : Outcome).fault? = none := rfl
      obtain ⟨stopped, s', hstopped, hends⟩ := ih hrest
      refine ⟨_, s', comes_writeOutcomes_cons hwrite hstopped, ?_⟩
      cases hends with
      | never hall hstopped hstate =>
        subst hstopped
        exact .never (List.forall_mem_cons.mpr ⟨hok, hall⟩) rfl hstate
      | early before after e' done more fault s₃ hes hbefore hall hos hfailed hstopped =>
        subst hstopped hos
        exact .early (e :: before) after e' (⟨e.name, .ok path⟩ :: done) more fault s₃
          (congrArg (e :: ·) hes) (comes_outcomes_cons hfirst hbefore)
          (List.forall_mem_cons.mpr ⟨hok, hall⟩) rfl hfailed rfl

theorem length_of_comes_outcomes (h : Comes (n := n) (g.outcomes dir es) s os s') :
    os.length = es.length := by
  induction es generalizing s os with
  | nil =>
    obtain ⟨rfl, -⟩ := Comes.of_pure h
    rfl
  | cons e es ih =>
    obtain ⟨o, rest, s₁, -, hrest, rfl⟩ := exists_of_comes_outcomes_cons h
    rw [List.length_cons, List.length_cons, ih hrest]

/-! ## Whole runs -/

/-- A report tells of an output directory that was made or not, and of what became of the entities
then. -/
theorem exists_of_comes_generateEach {tried : Report}
    (h : Comes (n := n) (g.generateEach es) s tried s₂) :
    ∃ dir s₁, Comes (n := n) (FileStore.makeDirs g.outputDir) s dir s₁
      ∧ Comes (n := n) (g.outcomes dir es) s₁ tried.outcomes s₂ := by
  obtain ⟨dir, s₁, hdir, h⟩ := Comes.of_bind h
  obtain ⟨os, s₂', hos, h⟩ := Comes.of_bind h
  obtain ⟨rfl, rfl⟩ := Comes.of_pure h
  exact ⟨dir, s₁, hdir, hos⟩

/-- **How a whole run ends that stops at the first failure.** -/
theorem generateReport_stops {tried : Report} (hes : es ≠ [])
    (h : Comes (n := n) (g.generateEach es) s tried s₂) :
    ∃ dir s₁ stopped s', Comes (n := n) (FileStore.makeDirs g.outputDir) s dir s₁
      ∧ g.Stops n dir es s₁ tried.outcomes s₂ stopped s'
      ∧ Comes (n := n) (g.generateReport es) s (stopped.map Report.mk) s' := by
  obtain ⟨dir, s₁, hdir, hos⟩ := exists_of_comes_generateEach h
  cases dir with
  | ok u =>
    obtain ⟨stopped, s', hstopped, hstops⟩ := writeOutcomes_stops hos
    exact ⟨.ok u, s₁, stopped, s', hdir, hstops, comes_generateReport_of_dir hdir hstopped⟩
  | error fault =>
    obtain ⟨e, es, rfl⟩ := List.exists_cons_of_ne_nil hes
    -- without an output directory the first entity is the first to fail
    rw [outcomes_of_noDir] at hos
    obtain ⟨hfaults, rfl⟩ := Comes.of_pure hos
    exact ⟨.error fault, s₂, .error (.createDir g.outputDir fault), s₂, hdir,
      .early [] es e [] _ _ s₂ rfl (.pure _ _) nofun hfaults (.pure _ _) rfl,
      comes_generateReport_of_noDir _ hdir⟩

/-- What a run that stops is told by, in the words of the report. -/
theorem Stops.exists_of_error {tried : Report} {fault : GenerationFault}
    (h : g.Stops n dir es s tried.outcomes s₂ (.error fault) s') :
    ∃ before e after done s₁, es = before ++ e :: after
      ∧ (∀ o ∈ tried.outcomes.take before.length, o.fault? = none)
      ∧ tried.outcomes[before.length]? = some ⟨e.name, .error fault⟩
      ∧ Comes (n := n) (g.outcomes dir before) s done s₁
      ∧ Comes (n := n) (g.outcome dir e) s₁ ⟨e.name, .error fault⟩ s' := by
  cases h with
  | never hall hstopped hstate => exact nomatch hstopped
  | early before after e done more fault' s₁ hes hbefore hall hos hfailed hstopped =>
    cases hstopped
    -- the outcomes before the failure are those of the entities before it
    have hlength := length_of_comes_outcomes hbefore
    refine ⟨before, e, after, done, s₁, hes, ?_, ?_, hbefore, hfailed⟩
    · rw [hos, ← hlength, List.take_left]
      exact hall
    · rw [hos, ← hlength, List.getElem?_append_right (Nat.le_refl _), Nat.sub_self]
      rfl

/-- A run that gives a report does what one does that tries every entity. -/
theorem eq_of_generateReport_ok {r tried : Report}
    (h : Comes (n := n) (g.generateReport es) s (.ok r) s')
    (htried : Comes (n := n) (g.generateEach es) s tried s₂) : tried = r ∧ s₂ = s' := by
  obtain ⟨dir, s₁, hdir, hos⟩ := exists_of_comes_generateEach htried
  cases dir with
  | error fault => exact nomatch (h.unique (comes_generateReport_of_noDir es hdir)).1
  | ok u =>
    obtain ⟨stopped, s₃, hstopped, hstops⟩ := writeOutcomes_stops hos
    obtain ⟨hreport, rfl⟩ := h.unique (comes_generateReport_of_dir hdir hstopped)
    cases stopped with
    | error fault => exact nomatch hreport
    | ok os =>
      cases hreport
      obtain ⟨rfl, -, rfl⟩ := hstops.eq_of_ok
      exact ⟨rfl, rfl⟩

/-- What it does to the state to fail at an entity: nothing without an output directory, and
otherwise what it does to fail at writing it. -/
theorem eq_or_of_outcome_error {fault : GenerationFault}
    (h : Comes (n := n) (g.outcome dir e) s ⟨e.name, .error fault⟩ s') :
    s' = s ∨ Comes (n := n) (g.writeEntity e) s (.error fault) s' := by
  cases dir with
  | ok u => exact .inr (comes_outcome_iff.mp h).2
  | error f => exact .inl (Comes.of_pure h).2

/-- **In a store that writes whole files, a run that fails leaves behind what one does over the
entities before the failure.** -/
theorem exists_before_of_generateReport_error (hatomic : FileStore.Atomic σ n) {tried : Report}
    {fault : GenerationFault} (h : Comes (n := n) (g.generateReport es) s (.error fault) s')
    (htried : Comes (n := n) (g.generateEach es) s tried s₂) :
    ∃ before r, before <+: es ∧ Comes (n := n) (g.generateEach before) s r s' := by
  obtain ⟨dir, s₁, hdir, hos⟩ := exists_of_comes_generateEach htried
  cases dir with
  | error f =>
    obtain ⟨-, rfl⟩ := h.unique (comes_generateReport_of_noDir es hdir)
    exact ⟨[], _, List.nil_prefix, comes_generateEach hdir (.pure _ _)⟩
  | ok u =>
    obtain ⟨stopped, s₃, hstopped, hstops⟩ := writeOutcomes_stops hos
    obtain ⟨hreport, rfl⟩ := h.unique (comes_generateReport_of_dir hdir hstopped)
    cases stopped with
    | ok os => exact nomatch hreport
    | error f =>
      obtain ⟨before, e, after, done, s₄, hes, -, -, hbefore, hfailed⟩ :=
        hstops.exists_of_error
      obtain rfl := eq_of_writeEntity_error hatomic (comes_outcome_iff.mp hfailed).2
      exact ⟨before, _, ⟨e :: after, hes.symm⟩, comes_generateEach hdir hbefore⟩

end Runs

/-! ## Runs on a disk -/

section OnDisk

variable {d d₁ : Disk}

end OnDisk

/-! ## The three ways -/

/-- **The three ways to generate agree.** A run with a report does what one without it does. One
that tries every entity and comes to a report, as it does on a machine with room for the classes,
agrees with them about the first failure and about all that is done before it. -/
theorem generate_agrees (g : Generator) (es : List Entity) :
    (∀ (m : Type → Type) [Monad m] [LawfulMonad m] [FileStore m],
      (Except.map Report.written) <$> (g.generateReport es : m _) = g.generate es)
    ∧ (∀ (σ : Type) (n : Type → Type) [Monad n] [LawfulMonad n] [Stepwise n]
        [FileStore (StateT σ n)] (s s₂ : σ) (tried : Report), es ≠ [] →
      Comes (n := n) (g.generateEach es) s tried s₂ →
      ∃ stopped s', Comes (n := n) (g.generate es) s stopped s'
        ∧ ((∃ paths, stopped = .ok paths) ↔ tried.isSuccess = true)
        ∧ (∀ paths, stopped = .ok paths → paths = tried.written ∧ s' = s₂)
        ∧ ∀ fault, stopped = .error fault → ∃ before e after r s₁,
          es = before ++ e :: after
          ∧ (∀ o ∈ tried.outcomes.take before.length, o.fault? = none)
          ∧ tried.outcomes[before.length]? = some ⟨e.name, .error fault⟩
          ∧ tried.failures.head? = some (e.name, fault)
          ∧ Comes (n := n) (g.generateEach before) s r s₁
          ∧ (s' = s₁ ∨ Comes (n := n) (g.writeEntity e) s₁ (.error fault) s')
          ∧ (FileStore.Atomic σ n → s' = s₁))
    ∧ ((∀ e ∈ es, Java.HasRoom g.options e) → ∀ d : Disk, ∃ tried d',
      Comes (n := Option) (g.generateEach es) d tried d') := by
  refine ⟨fun m => generateReport_written g es, ?_, fun hroom => answered_generateEach hroom⟩
  intro σ n _ _ _ _ s s₂ tried hes htried
  obtain ⟨dir, s₁, stopped, s', hdir, hstops, hreport⟩ := generateReport_stops hes htried
  -- the two runs that stop differ in what they tell only
  have hgenerate : Comes (n := n) (g.generate es) s
      ((stopped.map Report.mk).map Report.written) s' := by
    rw [← generateReport_written]
    exact hreport.map _
  refine ⟨_, s', hgenerate, ?_⟩
  cases stopped with
  | ok os =>
    obtain ⟨rfl, hsuccess, hstate⟩ := hstops.eq_of_ok
    refine ⟨⟨fun _ => hsuccess, fun _ => ⟨_, rfl⟩⟩, ?_, nofun⟩
    intro paths hpaths
    cases hpaths
    exact ⟨rfl, hstate⟩
  | error fault =>
    obtain ⟨before, e, after, done, s₃, hsplit, hall, hfailed, hbefore, hfailing⟩ :=
      hstops.exists_of_error
    have hfaulty : tried.isSuccess = false := isSuccess_of_failure hfailed
    refine ⟨⟨nofun, ?_⟩, nofun, ?_⟩
    · intro hsuccess
      rw [hfaulty] at hsuccess
      exact nomatch hsuccess
    · intro fault' hfault
      cases hfault
      have hends := eq_or_of_outcome_error hfailing
      refine ⟨before, e, after, ⟨done⟩, s₃, hsplit, hall, hfailed,
        failures_head?_of_failure hall hfailed, comes_generateEach hdir hbefore, hends, ?_⟩
      intro hatomic
      cases hends with
      | inl hsame => exact hsame
      | inr hwrite => exact eq_of_writeEntity_error hatomic hwrite

/-- A directory stands where the file of the second entity is to go. It fails the run, and is the
first failure of one that goes on. -/
theorem generate_agrees_of_blocked :
    let g : Generator := ⟨⟨"out"⟩, {}⟩
    let d : Disk := ⟨[(["out"], .directory), (["out", "Order.java"], .directory)], []⟩
    let es : List Entity := [⟨"User", []⟩, ⟨"Order", []⟩, ⟨"Item", []⟩]
    let fault : GenerationFault := .write ⟨"out/Order.java"⟩ .isDirectory
    ∃ tried d₂ d', Comes (n := Option) (g.generateEach es) d tried d₂
      ∧ Comes (n := Option) (g.generate es) d (.error fault) d'
      ∧ ∃ before e after r, es = before ++ e :: after
        ∧ tried.failures.head? = some (e.name, fault)
        ∧ Comes (n := Option) (g.generateEach before) d r d' := by
  intro g d es fault
  have hes : es ≠ [] := by decide
  have hroom : ∀ e ∈ es, Java.HasRoom g.options e := by decide +kernel
  have hgenerate : ((g.generate es : StateT Disk Option _).run d).map Prod.fst
      = some (.error fault) := by decide +kernel
  obtain ⟨tried, d₂, htried⟩ := (generate_agrees g es).2.2 hroom d
  obtain ⟨stopped, d', hstopped, -, -, hfailure⟩ :=
    (generate_agrees g es).2.1 Disk Option d d₂ tried hes htried
  rw [Comes.run_some hstopped] at hgenerate
  cases hgenerate
  obtain ⟨before, e, after, r, s₁, hsplit, -, -, hfirst, hbefore, -, hstate⟩ := hfailure fault rfl
  obtain rfl := hstate (Disk.atomic Option)
  exact ⟨tried, d₂, d', htried, hstopped, before, e, after, r, hsplit, hfirst, hbefore⟩

/-- A run that stops does not get to a class that is too large for the machine, and one that goes on
ends there without a report. And on a disk that is full a run leaves a part of a class behind, where
one over the entities before leaves nothing. -/
theorem generate_not_agrees :
    (∃ d', Comes (n := Option)
      (Generator.generate ⟨⟨"out"⟩, { indent := 18446744073709551615 }⟩ [⟨"", []⟩, ⟨"A", []⟩])
      (Disk.empty []) (.error (.schema "" .emptyEntityName)) d')
    ∧ ((Generator.generateEach ⟨⟨"out"⟩, { indent := 18446744073709551615 }⟩
      [⟨"", []⟩, ⟨"A", []⟩] : StateT Disk Option _).run (Disk.empty [])).isNone = true
    ∧ ((Generator.generate ⟨⟨""⟩, {}⟩ [⟨"A", []⟩] : StateM Volume _).run ⟨Disk.empty [], 7⟩).1
      = .error (.write ⟨"A.java"⟩ Volume.full)
    ∧ ((Generator.generate ⟨⟨""⟩, {}⟩ [⟨"A", []⟩] : StateM Volume _).run ⟨Disk.empty [], 7⟩).2
      ≠ ((Generator.generateEach ⟨⟨""⟩, {}⟩ [] : StateM Volume _).run ⟨Disk.empty [], 7⟩).2 := by
  refine ⟨⟨_, rfl⟩, ?_, ?_, ?_⟩
  · decide +kernel
  · decide +kernel
  · decide +kernel

end Generator

end EntitySchema
