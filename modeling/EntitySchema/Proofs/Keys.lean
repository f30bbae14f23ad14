import EntitySchema.Settings

/-!
# What a settings file sets

There are five things that a settings file can set, each under a key of its own. A document comes to
settings if its two tables are tables and what stands under each key is of the right kind, and then
each of the five is what stands under its key, or its own default if nothing does. So nothing under
one key matters for another (`Settings.parse?_eq_some_iff`).
-/

namespace EntitySchema

namespace Settings

/-- What a settings file can set. -/
inductive Key
  | outputDir
  | package
  | extension
  | indent
  | schemaDir
  deriving DecidableEq, Repr

namespace Key

/-- The table in which the key stands. -/
def table : Key → String
  | schemaDir => "cli"
  | _ => "generator"

/-- What holds where nothing is set. -/
def default : Key → Toml
  | outputDir => .str "generated/"
  | package => .str "com.example.generated"
  | extension => .str "java"
  | indent => .int 4
  | schemaDir => .str "schemas/"

/-- The key as it is written in its table. -/
def name : Key → String
  | outputDir => "output_dir"
  | package => "package"
  | extension => "extension"
  | indent => "indent"
  | schemaDir => "default_schema_dir"

end Key

/-- What the settings have under the key. -/
def get (s : Settings) : Key → Toml
  | .outputDir => .str s.outputDir
  | .package => .str s.options.package
  | .extension => .str s.options.extension
  | .indent => .int s.options.indent.toNat
  | .schemaDir => .str s.schemaDir

/-- What stands under the name in a table, or at the start of an array in place of a table. -/
def member? (name : String) : Toml → Option Toml
  | .table members => members.lookup name
  | .arr items => items.head?
  | _ => none

/-- A value that is taken as a table. A date or a time is taken as a table with nothing in it. -/
inductive IsTable : Toml → Prop
  | table (members : List (String × Toml)) : IsTable (.table members)
  | moment (literal : String) : IsTable (.moment literal)

/-- What a document sets under the key, if anything. -/
def given? (members : List (String × Toml)) (k : Key) : Option Toml :=
  (members.lookup k.table).bind (member? k.name)

/-- The two tables of settings are tables in the document, where they are there. Only the second one
may be an array. -/
structure Tabled (members : List (String × Toml)) : Prop where
  generator : ∀ t, members.lookup "generator" = some t → IsTable t
  cli : ∀ t, members.lookup "cli" = some t → IsTable t ∨ ∃ items, t = .arr items

/-- The text is a document that comes to the settings: each of them is what it sets, or else the
default. -/
def States (text : String) (s : Settings) : Prop :=
  ∃ members, Toml.parse? text = some members ∧ Tabled members
    ∧ ∀ k, s.get k = (given? members k).getD k.default

/-! ## One key -/

section OneKey

variable {key : String} {members : List (String × Toml)}

theorem textAt?_eq_some_iff {default text : String} :
    textAt? key default members = some text
      ↔ .str text = (members.lookup key).getD (.str default) := by
  unfold textAt?
  split
  · next h => rw [h]; simp [eq_comm]
  · next h => rw [h]; simp [eq_comm]
  · next v hv h =>
    rw [h]
    exact iff_of_false nofun fun heq => hv text heq.symm

theorem numberAt?_eq_some_iff {default n : UInt64} :
    numberAt? key default members = some n
      ↔ .int n.toNat = (members.lookup key).getD (.int default.toNat) := by
  have hinj {k k' : UInt64} : Toml.int k.toNat = .int k'.toNat ↔ k' = k := by
    rw [Toml.int.injEq, Int.natCast_inj, UInt64.toNat_inj, eq_comm]
  unfold numberAt?
  split
  · next h => rw [h, Option.some.injEq, Option.getD_none, hinj]
  · next m h =>
    rw [h, Option.getD_some, Toml.int.injEq, Int.ofNat_eq_natCast, Int.natCast_inj]
    have hbound := n.toNat_lt
    split
    · next hfits =>
      -- a number that fits is the one that the machine has for it
      rw [Option.some.injEq, ← UInt64.toNat_inj, UInt64.toNat_ofNat_of_lt' hfits, eq_comm]
    · next hlarge =>
      refine iff_of_false nofun ?_
      intro hm
      exact hlarge (hm ▸ hbound)
  · next v hv h =>
    rw [h]
    exact iff_of_false nofun fun heq => hv n.toNat heq.symm

theorem isSome_members?_iff {t : Toml} : (members? t).isSome ↔ IsTable t := by
  constructor
  · intro h
    cases t with
    | table members => exact .table members
    | moment literal => exact .moment literal
    | str | int | real | bool | arr => exact nomatch h
  · intro h
    cases h with
    | table members => rfl
    | moment literal => rfl

theorem member?_of_members? {t : Toml} (h : members? t = some members) :
    member? key t = members.lookup key := by
  cases t with
  | table ms =>
    cases h
    rfl
  | moment literal =>
    cases h
    rfl
  | str | int | real | bool | arr => exact nomatch h

end OneKey

/-! ## One table -/

variable {members : List (String × Toml)} {s s' : Settings} {t : Toml}

/-- Settings are what they have under their keys. -/
theorem get_inj : s.get = s'.get ↔ s = s' := by
  refine ⟨?_, fun h => h ▸ rfl⟩
  intro h
  have houtput := congrFun h .outputDir
  have hpackage := congrFun h .package
  have hextension := congrFun h .extension
  have hindent : s.options.indent = s'.options.indent :=
    UInt64.toNat_inj.mp (Int.ofNat.inj (Toml.int.inj (congrFun h .indent)))
  have hschema := congrFun h .schemaDir
  obtain ⟨outputDir, ⟨package, extension, indent⟩, schemaDir⟩ := s
  obtain ⟨outputDir', ⟨package', extension', indent'⟩, schemaDir'⟩ := s'
  simp_all [get]

/-- The settings are those before them but for the keys of one table, which hold what the table
has. -/
def Follows (table : String) (t : Toml) (s s' : Settings) : Prop :=
  ∀ k, s'.get k = if k.table = table then (member? k.name t).getD (s.get k) else s.get k

theorem withGenerator?_eq_some_iff :
    s.withGenerator? t = some s' ↔ IsTable t ∧ Follows "generator" t s s' := by
  rw [← isSome_members?_iff]
  unfold withGenerator?
  cases hmembers : members? t with
  | none => exact iff_of_false nofun fun h => nomatch h.1
  | some members =>
    have hmember (name : String) : member? name t = members.lookup name :=
      member?_of_members? hmembers
    simp only [Option.bind_eq_bind, Option.bind_some, Option.bind_eq_some_iff,
      textAt?_eq_some_iff, numberAt?_eq_some_iff, Option.isSome_some, true_and, Follows, hmember]
    refine ⟨?_, ?_⟩
    · rintro ⟨outputDir, houtput, package, hpackage, extension, hextension, indent, hindent, heq⟩ k
      cases heq
      cases k with
      | outputDir => exact houtput
      | package => exact hpackage
      | extension => exact hextension
      | indent => exact hindent
      | schemaDir => rfl
    · intro h
      refine ⟨_, h .outputDir, _, h .package, _, h .extension, _, h .indent, ?_⟩
      have hschema : s'.schemaDir = s.schemaDir := Toml.str.inj (h .schemaDir)
      rw [← hschema]

theorem follows_cli_iff :
    Follows "cli" t s s'
      ↔ ∃ dir, .str dir = (member? "default_schema_dir" t).getD (.str s.schemaDir)
        ∧ { s with schemaDir := dir } = s' := by
  refine ⟨?_, ?_⟩
  · intro h
    refine ⟨s'.schemaDir, h .schemaDir, get_inj.mp (funext fun k => ?_)⟩
    cases k with
    | schemaDir => rfl
    | outputDir => exact (h .outputDir).symm
    | package => exact (h .package).symm
    | extension => exact (h .extension).symm
    | indent => exact (h .indent).symm
  · rintro ⟨dir, hdir, rfl⟩ k
    cases k with
    | schemaDir => exact hdir
    | outputDir | package | extension | indent => rfl

theorem withSchemaDir?_eq_some_iff :
    s.withSchemaDir? t = some s'
      ↔ (IsTable t ∨ ∃ items, t = .arr items) ∧ Follows "cli" t s s' := by
  rw [follows_cli_iff, ← isSome_members?_iff]
  unfold withSchemaDir?
  split
  · simp [member?]
  · simp [member?]
  · next hempty htext =>
    cases hmembers : members? t with
    | none =>
      -- an array that does not start with a text
      refine iff_of_false nofun ?_
      rintro ⟨hshape, dir, hdir, -⟩
      obtain ⟨items, rfl⟩ := hshape.resolve_left (by simp)
      cases items with
      | nil => exact hempty rfl
      | cons item items => exact htext dir items (by rw [show item = .str dir from hdir.symm])
    | some members =>
      simp only [Option.bind_eq_bind, Option.bind_some, Option.bind_eq_some_iff,
        textAt?_eq_some_iff, member?_of_members? hmembers, Option.isSome_some, true_or, true_and,
        Option.some.injEq]

/-! ## A document -/

/-- The settings are those before them but for the keys of one table, which hold what the document
has for them. -/
def Adopts (table : String) (members : List (String × Toml)) (s s' : Settings) : Prop :=
  ∀ k, s'.get k = if k.table = table then (given? members k).getD (s.get k) else s.get k

theorem adopts_of_some {table : String} (h : members.lookup table = some t) :
    Adopts table members s s' ↔ Follows table t s s' := by
  refine forall_congr' fun k => ?_
  by_cases hk : k.table = table
  · have hgiven : given? members k = member? k.name t := by
      unfold given?
      rw [hk, h]
      rfl
    rw [if_pos hk, if_pos hk, hgiven]
  · rw [if_neg hk, if_neg hk]

theorem adopts_of_none {table : String} (h : members.lookup table = none) :
    Adopts table members s s' ↔ s = s' := by
  rw [← get_inj, funext_iff]
  refine forall_congr' fun k => ?_
  by_cases hk : k.table = table
  · have hgiven : given? members k = none := by
      unfold given?
      rw [hk, h]
      rfl
    rw [if_pos hk, hgiven]
    exact eq_comm
  · rw [if_neg hk]
    exact eq_comm

/-- The settings with those of a table, if the document has it. -/
def withTable? (step : Settings → Toml → Option Settings) (s : Settings) :
    Option Toml → Option Settings
  | some t => step s t
  | none => some s

theorem ofToml?_eq (members : List (String × Toml)) :
    ofToml? members = (withTable? withGenerator? {} (members.lookup "generator")).bind
      fun s => withTable? withSchemaDir? s (members.lookup "cli") := by
  unfold ofToml?
  cases members.lookup "generator" with
  | none => rfl
  | some t => rfl

/-- A step that takes tables of some shape, and its own keys from them, does the same with what the
document has. -/
theorem withTable?_eq_some_iff {table : String} {step : Settings → Toml → Option Settings}
    {Shape : Toml → Prop}
    (hstep : ∀ {t s s'}, step s t = some s' ↔ Shape t ∧ Follows table t s s') :
    withTable? step s (members.lookup table) = some s'
      ↔ (∀ t, members.lookup table = some t → Shape t) ∧ Adopts table members s s' := by
  cases h : members.lookup table with
  | none => simp [withTable?, adopts_of_none h]
  | some t => simp [withTable?, adopts_of_some h, hstep]

theorem ofToml?_eq_some_iff_adopts :
    ofToml? members = some s
      ↔ Tabled members ∧ ∃ s₁, Adopts "generator" members {} s₁ ∧ Adopts "cli" members s₁ s := by
  rw [ofToml?_eq, Option.bind_eq_some_iff]
  refine ⟨?_, ?_⟩
  · rintro ⟨s₁, hgenerator, hcli⟩
    obtain ⟨hgenerator, hfirst⟩ := (withTable?_eq_some_iff withGenerator?_eq_some_iff).mp hgenerator
    obtain ⟨hcli, hsecond⟩ := (withTable?_eq_some_iff withSchemaDir?_eq_some_iff).mp hcli
    exact ⟨⟨hgenerator, hcli⟩, s₁, hfirst, hsecond⟩
  · rintro ⟨htabled, s₁, hfirst, hsecond⟩
    exact ⟨s₁, (withTable?_eq_some_iff withGenerator?_eq_some_iff).mpr ⟨htabled.generator, hfirst⟩,
      (withTable?_eq_some_iff withSchemaDir?_eq_some_iff).mpr ⟨htabled.cli, hsecond⟩⟩

/-- The defaults are those of the keys. -/
theorem get_default (k : Key) : ({} : Settings).get k = k.default := by
  cases k <;> rfl

/-- **What a document sets.** Each setting is what the document has under its key, or its default,
whatever the document has under the other keys. -/
theorem ofToml?_eq_some_iff :
    ofToml? members = some s
      ↔ Tabled members ∧ ∀ k, s.get k = (given? members k).getD k.default := by
  simp only [ofToml?_eq_some_iff_adopts, ← get_default]
  refine and_congr_right fun _ => ⟨?_, ?_⟩
  · rintro ⟨s₁, hfirst, hsecond⟩ k
    have hgenerator := hfirst k
    have hcli := hsecond k
    by_cases hk : k.table = "cli"
    · rw [if_pos hk] at hcli
      rw [if_neg (by rw [hk]; decide)] at hgenerator
      rw [hcli, hgenerator]
    · have hother : k.table = "generator" := by cases k <;> first | rfl | exact absurd rfl hk
      rw [if_neg hk] at hcli
      rw [if_pos hother] at hgenerator
      rw [hcli, hgenerator]
  · intro h
    refine ⟨{ s with schemaDir := ({} : Settings).schemaDir }, fun k => ?_, fun k => ?_⟩
    · cases k with
      | schemaDir => rfl
      | outputDir => exact h .outputDir
      | package => exact h .package
      | extension => exact h .extension
      | indent => exact h .indent
    · cases k with
      | schemaDir => exact h .schemaDir
      | outputDir | package | extension | indent => rfl

theorem parse?_eq_some_iff {text : String} : parse? text = some s ↔ States text s := by
  unfold parse? States
  simp only [Option.bind_eq_bind, Option.bind_eq_some_iff, ofToml?_eq_some_iff]

end Settings

end EntitySchema
