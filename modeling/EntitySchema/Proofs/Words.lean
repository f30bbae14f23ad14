import EntitySchema.CommandLine.Reading
import EntitySchema.Proofs.Walking

/-!
# Command lines with and without the variable

A command line is read word by word, and what is taken is looked at before it is there: so every
option with a value has one, at each moment (`Intake.Valued`), and an option that comes to no value
was not given. The variable that names a settings file enters only at the end of a level, where an
empty value is an error, and at the end of the line, where it stands in for the option
(`read_of_unset`, `read_of_empty`).
-/

namespace EntitySchema

open Disk (bind_eq_ok_iff)

/-- The environment without the variable that names a settings file. -/
def Environment.unset (env : Environment) : Environment := { env with settingsFile := none }

namespace CommandLine

variable {env : Environment} {s s' : Intake} {a : Arg} {l : Level} {verb verb' : Verb} {w : String}
  {ws : List String}

/-! ## Options and their values -/

namespace Intake

/-- Every argument that takes a value has one. -/
def Valued (s : Intake) : Prop := ∀ g ∈ s.given, g.1.takesValue → g.2 ≠ []

theorem valued_start : start.Valued := nofun

/-- What is taken goes behind what is there, and it has a value if it takes one. -/
theorem of_accept {values : List String} (h : s.accept a values = .ok s') :
    (a.takesValue → values ≠ []) ∧ s' = { s with given := s.given ++ [(a, values)] } := by
  unfold accept at h
  split at h
  · exact nomatch h
  · next hvalue =>
    split at h
    · exact nomatch h
    · split at h
      · exact nomatch h
      · split at h
        · exact nomatch h
        · split at h
          · exact ⟨by simpa using hvalue, (Except.ok.inj h).symm⟩
          · exact nomatch h

theorem Valued.accept {values : List String} (h : s.Valued) (haccept : s.accept a values = .ok s') :
    s'.Valued := by
  obtain ⟨hvalue, rfl⟩ := of_accept haccept
  intro g hg
  rcases List.mem_append.mp hg with hg | hg
  · exact h g hg
  · obtain rfl := List.mem_singleton.mp hg
    exact hvalue

/-- What is set aside is not there yet. -/
theorem Valued.aside (h : s.Valued) (pending : Option (Arg × List String)) :
    Valued { s with pending := pending } := h

theorem Valued.settle (h : s.Valued) (hsettle : s.settle = .ok s') : s'.Valued := by
  unfold Intake.settle at hsettle
  split at hsettle
  · cases hsettle
    exact h
  · exact (h.aside none).accept hsettle

theorem Valued.take {values : List String} (h : s.Valued) (htake : s.take a values = .ok s') :
    s'.Valued := by
  obtain ⟨settled, hsettle, haccept⟩ := bind_eq_ok_iff.mp htake
  exact (h.settle hsettle).accept haccept

theorem Valued.await (h : s.Valued) (hawait : s.await a = .ok s') : s'.Valued := by
  obtain ⟨settled, hsettle, hok⟩ := bind_eq_ok_iff.mp hawait
  cases hok
  exact (h.settle hsettle).aside _

/-- An argument that takes a value and comes to none is not there. -/
theorem Valued.has_eq_false (h : s.Valued) (ha : a.takesValue) (hnone : s.value? a = none) :
    s.has a = false := by
  rw [Bool.eq_false_iff]
  intro hhas
  obtain ⟨g, hg, hsame⟩ := List.any_eq_true.mp hhas
  obtain rfl := eq_of_beq hsame
  have hvalues : s.values g.1 = [] := List.head?_eq_none_iff.mp hnone
  exact h g hg ha (List.flatMap_eq_nil_iff.mp hvalues g (List.mem_filter.mpr ⟨hg, hsame⟩))

end Intake

open Intake

/-! ## Reading keeps the values -/

theorem valued_readLong {name : String} {value : Option String} (h : s.Valued)
    (hread : readLong l s name value = .ok s') : s'.Valued := by
  unfold readLong at hread
  split at hread
  · exact nomatch hread
  · split at hread
    · exact h.take hread
    · exact nomatch hread
  · split at hread
    · exact h.await hread
    · exact h.take hread

theorem valued_readShort {letters : List Char} (h : s.Valued)
    (hread : readShort l s letters = .ok s') : s'.Valued := by
  induction letters generalizing s with
  | nil =>
    cases hread
    exact h
  | cons c cs ih =>
    unfold readShort at hread
    split at hread
    · exact nomatch hread
    · split at hread
      · split at hread
        · exact h.await hread
        · exact h.take hread
        · exact h.take hread
      · obtain ⟨taken, htake, hrest⟩ := bind_eq_ok_iff.mp hread
        exact ih (h.take htake) hrest

theorem valued_readValue {afterRest : Bool} (h : s.Valued)
    (hread : readValue l afterRest s w = .ok s') : s'.Valued := by
  unfold readValue at hread
  split at hread
  · split at hread <;> exact nomatch hread
  · split at hread
    · exact nomatch hread
    · split at hread
      · split at hread
        · cases hread
          exact h.aside _
        · obtain ⟨settled, hsettle, hok⟩ := bind_eq_ok_iff.mp hread
          cases hok
          exact (h.settle hsettle).aside _
      · cases hread
        exact h.aside _

theorem valued_readWord (h : s.Valued) (hread : readWord l s w = .ok s') : s'.Valued := by
  unfold readWord at hread
  split at hread
  · exact valued_readLong h hread
  · exact valued_readShort h hread
  · split at hread
    · cases hread
      exact h.aside _
    · exact valued_readValue h hread

theorem valued_readRest (h : s.Valued) (hread : readRest l s ws = .ok s') : s'.Valued := by
  induction ws generalizing s with
  | nil =>
    cases hread
    exact h
  | cons w ws ih =>
    obtain ⟨next, hword, hrest⟩ := bind_eq_ok_iff.mp hread
    exact ih (valued_readValue h hword) hrest

theorem valued_readAfter (h : s.Valued) (hread : readAfter verb s ws = .ok s') : s'.Valued := by
  induction ws generalizing s with
  | nil =>
    cases hread
    exact h
  | cons w ws ih =>
    unfold readAfter at hread
    split at hread
    · exact valued_readRest h hread
    · obtain ⟨next, hword, hrest⟩ := bind_eq_ok_iff.mp hread
      exact ih (valued_readWord h hword) hrest

theorem valued_complete (h : s.Valued) (hcomplete : complete env s = .ok s') : s'.Valued := by
  obtain ⟨settled, hsettle, hchecked⟩ := bind_eq_ok_iff.mp hcomplete
  obtain ⟨-, -, hchecked⟩ := bind_eq_ok_iff.mp hchecked
  obtain ⟨-, -, hok⟩ := bind_eq_ok_iff.mp hchecked
  cases hok
  exact h.settle hsettle

/-- Every option after the command has a value if it takes one. -/
theorem valued_readCommand (hread : readCommand env verb ws = .ok s') : s'.Valued := by
  obtain ⟨taken, htaken, hcompleted⟩ := bind_eq_ok_iff.mp hread
  obtain ⟨completed, hcomplete, hchecked⟩ := bind_eq_ok_iff.mp hcompleted
  obtain ⟨-, -, hok⟩ := bind_eq_ok_iff.mp hchecked
  cases hok
  exact valued_complete (valued_readAfter valued_start htaken) hcomplete

/-! ## The variable at the end of a level -/

/-- Without the variable only colors are looked at, which are the same with it. -/
theorem complete_unset_eq_ok_iff :
    complete env.unset s = .ok s' ↔ s.settle = .ok s'
      ∧ checkEnvironment s' .noColor env.noColor (fun v => v == "true" || v == "false")
        = .ok () := by
  refine ⟨?_, ?_⟩
  · intro h
    obtain ⟨settled, hsettle, hchecked⟩ := bind_eq_ok_iff.mp h
    obtain ⟨-, -, hchecked⟩ := bind_eq_ok_iff.mp hchecked
    obtain ⟨⟨⟩, hcolors, hok⟩ := bind_eq_ok_iff.mp hchecked
    cases hok
    exact ⟨hsettle, hcolors⟩
  · rintro ⟨hsettle, hcolors⟩
    exact bind_eq_ok_iff.mpr ⟨s', hsettle, bind_eq_ok_iff.mpr ⟨(), rfl,
      bind_eq_ok_iff.mpr ⟨(), hcolors, rfl⟩⟩⟩

/-- A variable that is not empty changes nothing at the end of a level. -/
theorem complete_of_unset (h : complete env.unset s = .ok s') (hset : env.settingsFile ≠ some (.text "")) :
    complete env s = .ok s' := by
  obtain ⟨hsettle, hcolors⟩ := complete_unset_eq_ok_iff.mp h
  have haccepted : checkEnvironment s' .config env.settingsFile
      (acceptsVariable Arg.config.accepts) = .ok () := by
    cases hfile : env.settingsFile with
    | none => rfl
    | some v =>
      cases v with
      | raw p => exact if_pos (by simp [acceptsVariable])
      | text value =>
        have hvalue : value ≠ "" := by
          rintro rfl
          exact hset hfile
        exact if_pos (by simp [acceptsVariable, Arg.accepts, hvalue])
  exact bind_eq_ok_iff.mpr ⟨s', hsettle, bind_eq_ok_iff.mpr ⟨(), haccepted,
    bind_eq_ok_iff.mpr ⟨(), hcolors, rfl⟩⟩⟩

/-- An empty variable is no value, which only the option makes good. -/
theorem complete_of_empty (h : complete env.unset s = .ok s') (hempty : env.settingsFile = some (.text ""))
    (hno : s'.has .config = false) : complete env s = .error .badValue := by
  obtain ⟨hsettle, -⟩ := complete_unset_eq_ok_iff.mp h
  have hrefused : checkEnvironment s' .config env.settingsFile
      (acceptsVariable Arg.config.accepts) = .error .badValue := by
    rw [hempty, checkEnvironment, hno]
    rfl
  unfold complete
  rw [hsettle]
  show (do checkEnvironment s' .config env.settingsFile (acceptsVariable Arg.config.accepts); _) = _
  rw [hrefused]
  rfl

theorem readCommand_of_unset (h : readCommand env.unset verb ws = .ok s')
    (hset : env.settingsFile ≠ some (.text "")) : readCommand env verb ws = .ok s' := by
  obtain ⟨taken, htaken, hcompleted⟩ := bind_eq_ok_iff.mp h
  obtain ⟨completed, hcomplete, hchecked⟩ := bind_eq_ok_iff.mp hcompleted
  exact bind_eq_ok_iff.mpr ⟨taken, htaken,
    bind_eq_ok_iff.mpr ⟨completed, complete_of_unset hcomplete hset, hchecked⟩⟩

theorem readCommand_of_empty (h : readCommand env.unset verb ws = .ok s')
    (hempty : env.settingsFile = some (.text "")) (hno : s'.has .config = false) :
    readCommand env verb ws = .error .badValue := by
  obtain ⟨taken, htaken, hcompleted⟩ := bind_eq_ok_iff.mp h
  obtain ⟨completed, hcomplete, hchecked⟩ := bind_eq_ok_iff.mp hcompleted
  obtain ⟨-, -, hok⟩ := bind_eq_ok_iff.mp hchecked
  cases hok
  unfold readCommand
  rw [htaken]
  show (do let s ← complete env taken; _) = _
  rw [complete_of_empty hcomplete hempty hno]
  rfl

/-! ## The variable and the whole line -/

variable {front own : Intake}

/-- Reads the arguments of a command after its name, and takes what was set aside in front of it. -/
def readNamed (env : Environment) (s : Intake) (verb : Verb) (ws : List String) :
    Except Usage (Intake × Verb × Intake) := do
  let own ← readCommand env verb ws
  let s ← complete env s
  check .front s
  return (s, verb, own)

theorem readNamed_eq_ok_iff :
    readNamed env s verb ws = .ok (front, verb', own) ↔ verb' = verb
      ∧ readCommand env verb ws = .ok own ∧ complete env s = .ok front
      ∧ check .front front = .ok () := by
  refine ⟨?_, ?_⟩
  · intro h
    obtain ⟨own, hown, h⟩ := bind_eq_ok_iff.mp h
    obtain ⟨front, hfront, h⟩ := bind_eq_ok_iff.mp h
    obtain ⟨⟨⟩, hcheck, hok⟩ := bind_eq_ok_iff.mp h
    cases hok
    exact ⟨rfl, hown, hfront, hcheck⟩
  · rintro ⟨rfl, hown, hfront, hcheck⟩
    exact bind_eq_ok_iff.mpr ⟨own, hown, bind_eq_ok_iff.mpr ⟨front, hfront,
      bind_eq_ok_iff.mpr ⟨(), hcheck, rfl⟩⟩⟩

/-- In a line with a command, a word is the name of the command, or it is taken and reading goes
on; and which of the two it is does not depend on the environment. -/
theorem readFront_cons {r : Intake × Verb × Intake} (h : readFront env s (w :: ws) = .ok r) :
    (∃ verb, ∀ env, readFront env s (w :: ws) = readNamed env s verb ws)
      ∨ ∃ s', ∀ env, readFront env s (w :: ws) = readFront env s' ws := by
  unfold readFront at h
  split at h
  · next verb hverb =>
    refine .inl ⟨verb, fun env => ?_⟩
    rw [readFront, hverb]
    rfl
  · next hverb =>
    split at h
    · exact nomatch h
    · next hhelp =>
      split at h
      · -- words of which none is an option name no command
        obtain ⟨_, -, h⟩ := bind_eq_ok_iff.mp h
        obtain ⟨_, -, h⟩ := bind_eq_ok_iff.mp h
        exact nomatch h
      · next hrest =>
        obtain ⟨s', hword, -⟩ := bind_eq_ok_iff.mp h
        refine .inr ⟨s', fun env => ?_⟩
        rw [readFront, hverb]
        dsimp only
        rw [if_neg hhelp, if_neg hrest, hword]
        rfl

/-- A line without words has no command. -/
theorem readFront_nil {r : Intake × Verb × Intake} : readFront env s [] ≠ .ok r := by
  intro h
  obtain ⟨_, -, h⟩ := bind_eq_ok_iff.mp h
  exact nomatch h

theorem readFront_of_unset (h : readFront env.unset s ws = .ok (front, verb, own))
    (hset : env.settingsFile ≠ some (.text "")) : readFront env s ws = .ok (front, verb, own) := by
  induction ws generalizing s with
  | nil => exact absurd h readFront_nil
  | cons w ws ih =>
    rcases readFront_cons h with ⟨named, hword⟩ | ⟨s', hword⟩
    · rw [hword] at h ⊢
      obtain ⟨rfl, hown, hfront, hcheck⟩ := readNamed_eq_ok_iff.mp h
      exact readNamed_eq_ok_iff.mpr
        ⟨rfl, readCommand_of_unset hown hset, complete_of_unset hfront hset, hcheck⟩
    · rw [hword] at h ⊢
      exact ih h

theorem readFront_of_empty (h : readFront env.unset s ws = .ok (front, verb, own))
    (hempty : env.settingsFile = some (.text "")) (hno : own.has .config = false) :
    readFront env s ws = .error .badValue := by
  induction ws generalizing s with
  | nil => exact absurd h readFront_nil
  | cons w ws ih =>
    rcases readFront_cons h with ⟨named, hword⟩ | ⟨s', hword⟩
    · rw [hword] at h ⊢
      obtain ⟨rfl, hown, -⟩ := readNamed_eq_ok_iff.mp h
      rw [readNamed, readCommand_of_empty hown hempty hno]
      rfl
    · rw [hword] at h ⊢
      exact ih h

/-- Every option after the command has a value if it takes one. -/
theorem valued_readFront (h : readFront env s ws = .ok (front, verb, own)) : own.Valued := by
  induction ws generalizing s with
  | nil => exact absurd h readFront_nil
  | cons w ws ih =>
    rcases readFront_cons h with ⟨named, hword⟩ | ⟨s', hword⟩
    · rw [hword] at h
      exact valued_readCommand (readNamed_eq_ok_iff.mp h).2.1
    · rw [hword] at h
      exact ih h

/-- The command line that has been read, from the arguments in front of the command and after it. -/
def invocationOf (env : Environment) (front : Intake) (verb : Verb) (own : Intake) :
    Invocation where
  command := commandOf verb own
  settingsFile := (own.value? .config <|> front.value? .config).map Path.mk
    <|> env.settingsFile.map Variable.path
  format := ((own.value? .format <|> front.value? .format).bind Format.ofName?).getD .human
  quiet := own.has .quiet || front.has .quiet

variable {i : Invocation}

theorem read_eq_ok_iff :
    read env ws = .ok i ↔ ∃ front verb own,
      readFront env .start ws = .ok (front, verb, own) ∧ i = invocationOf env front verb own := by
  refine ⟨?_, ?_⟩
  · intro h
    obtain ⟨⟨front, verb, own⟩, hfront, hok⟩ := bind_eq_ok_iff.mp h
    cases hok
    exact ⟨front, verb, own, hfront, rfl⟩
  · rintro ⟨front, verb, own, hfront, rfl⟩
    exact bind_eq_ok_iff.mpr ⟨(front, verb, own), hfront, rfl⟩

/-- Without the variable, a settings file is named by an option or not at all. -/
theorem value?_of_unnamed (hunnamed : (invocationOf env.unset front verb own).settingsFile = none) :
    own.value? .config = none ∧ front.value? .config = none := by
  unfold invocationOf at hunnamed
  cases hown : own.value? .config with
  | some v =>
    rw [hown] at hunnamed
    exact nomatch hunnamed
  | none =>
    rw [hown] at hunnamed
    cases hfront : front.value? .config with
    | some v =>
      rw [hfront] at hunnamed
      exact nomatch hunnamed
    | none => exact ⟨rfl, rfl⟩

/-- A line that names no settings file gets the one of the variable, and nothing else changes. -/
theorem read_of_unset (h : read env.unset ws = .ok i) (hunnamed : i.settingsFile = none)
    (hset : env.settingsFile ≠ some (.text "")) :
    read env ws = .ok { i with settingsFile := env.settingsFile.map Variable.path } := by
  obtain ⟨front, verb, own, hfront, rfl⟩ := read_eq_ok_iff.mp h
  refine read_eq_ok_iff.mpr ⟨front, verb, own, readFront_of_unset hfront hset, ?_⟩
  obtain ⟨hown, hbefore⟩ := value?_of_unnamed hunnamed
  unfold invocationOf
  rw [hown, hbefore]
  rfl

/-- An empty variable ends a line that names no settings file. -/
theorem read_of_empty (h : read env.unset ws = .ok i) (hunnamed : i.settingsFile = none)
    (hempty : env.settingsFile = some (.text "")) : read env ws = .error .badValue := by
  obtain ⟨front, verb, own, hfront, rfl⟩ := read_eq_ok_iff.mp h
  have hno : own.has .config = false :=
    (valued_readFront hfront).has_eq_false rfl (value?_of_unnamed hunnamed).1
  unfold read
  rw [readFront_of_empty hfront hempty hno]
  rfl

end CommandLine

end EntitySchema
