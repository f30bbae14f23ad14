import EntitySchema.Proofs.Keys
import EntitySchema.Proofs.Looking

/-!
# Which file decides the settings

A command may name a settings file, and then this file decides, whether it is there or not. Else the
first of the candidates that is there decides (`Settings.Decides`). Nothing behind that file in the
order of the candidates is looked at, and what is wrong with the file is not made good by another
one: what is read of it settles the result (`Settings.Settles`). Only where no file decides there
are defaults for everything (`Settings.load_decided`).
-/

namespace EntitySchema

open SteadyStore

namespace Settings

variable {env env' : Environment} {d d' : Disk} {file : Option Path} {p q : Path}
  {paths before after : List Path}

/-- The files that may decide, the first one first: the one that a command names and no other, or
else the one that the environment names, that of the project, and those of the user. -/
def candidates (env : Environment) : Option Path → List Path
  | some p => [p]
  | none =>
    (env.settingsFile.map Variable.path).toList
      ++ ⟨"config.toml"⟩
      :: (env.configHome.map fun dir => (Path.mk dir).join "entity-forge/config.toml").toList
      ++ (env.home.map fun dir => (Path.mk dir).join ".config/entity-forge/config.toml").toList

/-- The environment names its settings file in Unicode, if it names one. -/
def NamesText (env : Environment) : Prop := ∀ p, env.settingsFile ≠ some (.raw p)

/-- The file decides which settings there are. -/
inductive Decides (env : Environment) (d : Disk) : Option Path → Path → Prop
  /-- A file that is named decides. -/
  | named (p : Path) : Decides env d (some p) p
  /-- If none is named, then the first candidate decides that is there. -/
  | found {before after : List Path} {p : Path} :
      candidates env none = before ++ p :: after → (∀ q ∈ before, d.kind? q = none) →
      (d.kind? p).isSome → Decides env d none p

/-- What is read of the file at the path comes to this result. -/
inductive Settles (p : Path) : Except FileFault ByteArray → Except Failure Settings → Prop
  /-- The file can not be read. -/
  | unreadable (fault : FileFault) : Settles p (.error fault) (.error (.file p fault))
  /-- It is not UTF-8. -/
  | notUtf8 {content : ByteArray} :
      String.fromUTF8? content = none → Settles p (.ok content) (.error (.file p .notUtf8))
  /-- It is no document that states settings. -/
  | invalid {text : String} :
      (∀ s, ¬ States text s) → Settles p (.ok text.toUTF8) (.error (.settings p))
  | stated {text : String} {s : Settings} : States text s → Settles p (.ok text.toUTF8) (.ok s)

/-! ## The deciding file -/

/-- The candidates are the files that are looked for, where the variable can be taken as a text. -/
theorem candidates_none (henv : NamesText env) : candidates env none = env.settingsFiles := by
  unfold candidates Environment.settingsFiles
  cases hfile : env.settingsFile with
  | none => simp
  | some v =>
    cases v with
    | raw p => exact absurd hfile (henv p)
    | text value => simp [Variable.text?, Variable.path]

theorem Decides.unique (hp : Decides env d file p) (hq : Decides env d file q) : p = q := by
  cases hp with
  | named => cases hq; rfl
  | found hfiles hmissing hthere =>
    cases hq with
    | found hfiles' hmissing' hthere' =>
      have hfirst : (candidates env none).find? (fun p => (d.kind? p).isSome) = some p :=
        List.find?_eq_some_iff_append.mpr ⟨hthere, _, _, hfiles, by simpa using hmissing⟩
      have hfirst' : (candidates env none).find? (fun p => (d.kind? p).isSome) = some q :=
        List.find?_eq_some_iff_append.mpr ⟨hthere', _, _, hfiles', by simpa using hmissing'⟩
      exact Option.some.inj (hfirst.symm.trans hfirst')

/-- No file decides exactly if none is named and no candidate is there. -/
theorem not_decides_iff :
    (∀ p, ¬ Decides env d file p) ↔ file = none ∧ ∀ p ∈ candidates env none, d.kind? p = none := by
  refine ⟨?_, ?_⟩
  · intro h
    cases file with
    | some p => exact absurd (.named p) (h p)
    | none =>
      refine ⟨rfl, ?_⟩
      cases hfirst : (candidates env none).find? (fun p => (d.kind? p).isSome) with
      | none => simpa using hfirst
      | some p =>
        obtain ⟨hthere, before, after, hfiles, hmissing⟩ := List.find?_eq_some_iff_append.mp hfirst
        exact absurd (.found hfiles (by simpa using hmissing) hthere) (h p)
  · rintro ⟨rfl, hmissing⟩ p hdecides
    cases hdecides with
    | found hfiles _ hthere =>
      have hmem : p ∈ candidates env none := by rw [hfiles]; simp
      rw [hmissing p hmem] at hthere
      exact nomatch hthere

/-- The same file decides where all is the same up to this file. -/
theorem Decides.of_agree (h : Decides env d file p) {upTo : List Path}
    (hpre : upTo <+: candidates env file) (hpre' : upTo <+: candidates env' file) (hp : p ∈ upTo)
    (hsame : ∀ q ∈ upTo, d.kind? q = d'.kind? q) : Decides env' d' file p := by
  cases h with
  | named => exact .named p
  | @found before after _ hfiles hmissing hthere =>
    have hfirst : before ++ [p] <+: candidates env none := ⟨after, by rw [hfiles]; simp⟩
    have hreached : before ++ [p] <+: upTo := by
      rcases List.prefix_or_prefix_of_prefix hfirst hpre with hle | hge
      · exact hle
      · -- a shorter part would not have the file in it
        rcases List.prefix_concat_iff.mp hge with rfl | hbefore
        · exact List.prefix_rfl
        · rw [hmissing p (hbefore.subset hp)] at hthere
          exact nomatch hthere
    obtain ⟨after', hfiles'⟩ := hreached.trans hpre'
    rw [List.append_assoc, List.singleton_append] at hfiles'
    have hthere' : (d'.kind? p).isSome := by rw [← hsame p hp]; exact hthere
    refine .found hfiles'.symm ?_ hthere'
    intro q hq
    rw [← hsame q (hreached.subset (List.mem_append_left _ hq))]
    exact hmissing q hq

/-! ## The result -/

section Results

variable {σ : Type} [FileStore (StateM σ)] [SteadyStore σ] {s : σ}

/-- Candidates are passed by as long as they are not there. -/
theorem loadFirst_append (h : ∀ q ∈ before, ((FileStore.kind? q : StateM σ _).run s).1 = none) :
    ((loadFirst (before ++ paths) : StateM σ _).run s).1
      = ((loadFirst paths : StateM σ _).run s).1 := by
  induction before with
  | nil => rfl
  | cons q before ih =>
    obtain ⟨hq, hbefore⟩ := List.forall_mem_cons.mp h
    have hmissing : ((FileStore.exists? q : StateM σ _).run s).1 = false := by
      unfold FileStore.exists?
      rw [(keeps_kind? q).run_bind, hq]
      rfl
    rw [List.cons_append, loadFirst, (FileStore.keeps_exists? q).run_bind, hmissing]
    exact ih hbefore

/-- A candidate that is there is loaded. -/
theorem loadFirst_cons (h : ((FileStore.kind? p : StateM σ _).run s).1.isSome) :
    ((loadFirst (p :: paths) : StateM σ _).run s).1
      = ((loadFile p : StateM σ _).run s).1 := by
  have hthere : ((FileStore.exists? p : StateM σ _).run s).1 = true := by
    unfold FileStore.exists?
    rw [(keeps_kind? p).run_bind]
    exact h
  rw [loadFirst, (FileStore.keeps_exists? p).run_bind, hthere]
  rfl

/-- The settings in a file, from its text. -/
def ofText (p : Path) : Except FileFault String → Except Failure Settings
  | .error fault => .error (.file p fault)
  | .ok text =>
    match parse? text with
    | some settings => .ok settings
    | none => .error (.settings p)

/-- What is loaded from a file depends on what is read of it and on nothing else. -/
theorem run_loadFile (p : Path) :
    ((loadFile p : StateM σ _).run s).1
      = ofText p (FileStore.utf8Text ((FileStore.read p : StateM σ _).run s).1) := by
  unfold loadFile
  rw [(FileStore.keeps_readText p).run_bind, FileStore.run_readText]
  cases FileStore.utf8Text ((FileStore.read p : StateM σ _).run s).1 with
  | error fault => rfl
  | ok text =>
    dsimp only [ofText]
    cases parse? text with
    | none => rfl
    | some settings => rfl

end Results

theorem load_of_decides (henv : NamesText env) (h : Decides env d file p) :
    ((load env file : StateM Disk _).run d).1 = ((loadFile p : StateM Disk _).run d).1 := by
  cases h with
  | named => rfl
  | found hfiles hmissing hthere =>
    have hthere' : ((FileStore.kind? p : StateM Disk _).run d).1.isSome := hthere
    unfold load
    rw [← candidates_none henv, hfiles, loadFirst_append hmissing, loadFirst_cons hthere']

/-- If no file decides, then everything has its default. -/
theorem load_of_not_decides (henv : NamesText env) (h : ∀ p, ¬ Decides env d file p) :
    ((load env file : StateM Disk _).run d).1 = .ok {} := by
  obtain ⟨rfl, hmissing⟩ := not_decides_iff.mp h
  show ((loadFirst env.settingsFiles : StateM Disk _).run d).1 = _
  rw [← candidates_none henv, ← List.append_nil (candidates env none), loadFirst_append hmissing]
  rfl

/-- What is read of a file settles what is loaded from it. -/
theorem loadFile_settles (p : Path) (d : Disk) :
    Settles p (d.read p) ((loadFile p : StateM Disk _).run d).1 := by
  rw [run_loadFile]
  show Settles p (d.read p) (ofText p (FileStore.utf8Text (d.read p)))
  cases d.read p with
  | error fault => exact .unreadable fault
  | ok content =>
    cases htext : String.fromUTF8? content with
    | none =>
      rw [FileStore.utf8Text, htext]
      exact .notUtf8 htext
    | some text =>
      obtain rfl := Text.toUTF8_of_fromUTF8? htext
      rw [FileStore.utf8Text, htext]
      cases hstated : parse? text with
      | none =>
        rw [ofText, hstated]
        refine .invalid fun s hs => ?_
        have hsome := parse?_eq_some_iff.mpr hs
        rw [hstated] at hsome
        cases hsome
      | some settings =>
        rw [ofText, hstated]
        exact .stated (parse?_eq_some_iff.mp hstated)

/-- **One file decides the settings.** At most one does, and what is read of it settles the result.
Where all is the same up to this file, the result is the same, whatever there is behind it. No file
decides only if none is named and no candidate is there, and then everything has its default. -/
theorem load_decided (henv : NamesText env) (d : Disk) (file : Option Path) :
    let result (env : Environment) (d : Disk) := ((load env file : StateM Disk _).run d).1
    (∀ p q, Decides env d file p → Decides env d file q → p = q)
    ∧ ((∀ p, ¬ Decides env d file p) ↔ file = none ∧ ∀ p ∈ candidates env none, d.kind? p = none)
    ∧ ((∀ p, ¬ Decides env d file p) → result env d = .ok {})
    ∧ ∀ p, Decides env d file p →
      Settles p (d.read p) (result env d)
      ∧ ∀ (env' : Environment) (d' : Disk) (upTo : List Path), NamesText env' →
        upTo <+: candidates env file → upTo <+: candidates env' file → p ∈ upTo →
        (∀ q ∈ upTo, d.kind? q = d'.kind? q) → d.read p = d'.read p →
        result env' d' = result env d := by
  intro result
  refine ⟨fun p q hp hq => hp.unique hq, not_decides_iff, ?_, ?_⟩
  · exact load_of_not_decides henv
  · intro p hdecides
    have hresult : result env d = ((loadFile p : StateM Disk _).run d).1 :=
      load_of_decides henv hdecides
    refine ⟨hresult ▸ loadFile_settles p d, ?_⟩
    intro env' d' upTo henv' hpre hpre' hp hsame hread
    have hresult' : result env' d' = ((loadFile p : StateM Disk _).run d').1 :=
      load_of_decides henv' (hdecides.of_agree hpre hpre' hp hsame)
    rw [hresult, hresult', run_loadFile, run_loadFile]
    exact congrArg (fun content => ofText p (FileStore.utf8Text content)) hread.symm

/-- A directory is in the place of the project's settings file. It decides, and what the user has
set does not come in. -/
theorem load_decided_directory :
    let d : Disk := ⟨[(["config.toml"], .directory)], []⟩
    let d' : Disk := ⟨[(["config.toml"], .directory), (["home"], .directory)], []⟩
    let result (env : Environment) (d : Disk) := ((load env none : StateM Disk _).run d).1
    result {} d = .error (.file ⟨"config.toml"⟩ .isDirectory)
      ∧ result { home := some "home" } d' = .error (.file ⟨"config.toml"⟩ .isDirectory) := by
  intro d d' result
  have hdecides : Decides {} d none ⟨"config.toml"⟩ :=
    @Decides.found _ _ [] _ _ rfl nofun (by decide +kernel)
  have hread : d.read ⟨"config.toml"⟩ = .error .isDirectory := by decide +kernel
  have hread' : d'.read ⟨"config.toml"⟩ = .error .isDirectory := by decide +kernel
  have hkind : d.kind? ⟨"config.toml"⟩ = d'.kind? ⟨"config.toml"⟩ := by decide +kernel
  have henv : NamesText {} := nofun
  obtain ⟨-, -, -, hdecided⟩ := load_decided henv d none
  obtain ⟨hsettles, hsame⟩ := hdecided _ hdecides
  have hresult : result {} d = .error (.file ⟨"config.toml"⟩ .isDirectory) := by
    rw [hread] at hsettles
    generalize ((load {} none : StateM Disk _).run d).1 = r at hsettles
    cases hsettles
    rfl
  refine ⟨hresult, ?_⟩
  rw [← hresult]
  exact hsame { home := some "home" } d' [⟨"config.toml"⟩] nofun ⟨[], rfl⟩ ⟨_, rfl⟩
    List.mem_cons_self (List.forall_mem_singleton.mpr hkind) (hread.trans hread'.symm)

/-- An array is taken in place of a table, and what it starts with as the one setting of it; a date
is taken as a table that sets nothing. And a file is passed by which the environment names otherwise
than in Unicode. -/
theorem load_not_decided :
    let project (text : String) : Disk := ⟨[(["config.toml"], .file text.toUTF8)], []⟩
    let named : Disk := ⟨[(["config.toml"], .file "".toUTF8), (["named.toml"], .directory)], []⟩
    let result (env : Environment) (d : Disk) := ((load env none : StateM Disk _).run d).1
    result {} (project "cli = [\"dsl/\"]\n") = .ok { schemaDir := "dsl/" }
      ∧ result {} (project "generator = 1979-05-27\n") = .ok {}
      ∧ Decides { settingsFile := some (.raw ⟨"named.toml"⟩) } named none ⟨"named.toml"⟩
      ∧ result { settingsFile := some (.raw ⟨"named.toml"⟩) } named = .ok {} := by
  intro project named result
  refine ⟨by decide +kernel, by decide +kernel, ?_, by decide +kernel⟩
  exact @Decides.found _ _ [] _ _ rfl nofun (by decide +kernel)

end Settings

end EntitySchema
