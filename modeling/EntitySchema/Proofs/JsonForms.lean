import Mathlib.Data.List.Forall2
import Mathlib.Data.List.Nodup
import EntitySchema.Json.Codec
import EntitySchema.Proofs.JsonText

/-!
# Entities as JSON, read back

An object may show a record in many ways: its members stand in any order, members of other keys
stand among them, and a member that has its default may be missing (`Json.Shows`). What is read from
such an object depends on the record alone, and the texts of a value are read as that value. So
entities, fields, options and field types are read back from their JSON (`decode_encode`).
-/

namespace EntitySchema

namespace Json

/-! ## Records -/

/-- The member of an object with this key. -/
def member? (key : String) : Json → Option Json
  | .obj members => members.lookup key
  | _ => none

/-- The members are those of a record as they may be written: in any order, with members of other
keys among them, and without some of those that have their default. -/
structure Shows (full defaults members : List (String × Json)) : Prop where
  /-- A member of the record is there as it is, or has its default and is left out. -/
  shown : ∀ m ∈ full, m ∈ members ∨ m ∈ defaults ∧ m.1 ∉ members.map Prod.fst
  /-- No key of the record stands twice. -/
  once : ∀ m ∈ full, (members.map Prod.fst).count m.1 ≤ 1

theorem lookup_of_mem {members : List (String × Json)} {m : String × Json} (hm : m ∈ members)
    (honce : (members.map Prod.fst).count m.1 ≤ 1) : members.lookup m.1 = some m.2 := by
  induction members with
  | nil => exact absurd hm List.not_mem_nil
  | cons n members ih =>
    obtain ⟨key, j⟩ := n
    rw [List.map_cons, List.count_cons] at honce
    by_cases hkey : m.1 = key
    -- the key does not stand behind this member, so that it can only be the one that is looked up
    · have hnot : m.1 ∉ members.map Prod.fst := by
        rw [if_pos (by simp [hkey])] at honce
        exact List.count_eq_zero.mp (by omega)
      rcases List.mem_cons.mp hm with rfl | hm
      · exact List.lookup_cons_self
      · exact absurd (List.mem_map_of_mem hm) hnot
    · have hmem : m ∈ members := by
        rcases List.mem_cons.mp hm with rfl | hm
        · exact absurd rfl hkey
        · exact hm
      rw [List.lookup_cons, beq_false_of_ne hkey]
      exact ih hmem (by omega)

section

variable {full defaults members : List (String × Json)} (h : Shows full defaults members)

include h

theorem Shows.record?_eq :
    (Json.obj members).record? (full.map Prod.fst) = some fun key => members.lookup key := by
  have honce : ∀ key ∈ full.map Prod.fst, (members.filter (·.1 == key)).length ≤ 1 := by
    intro key hkey
    obtain ⟨m, hm, rfl⟩ := List.mem_map.mp hkey
    have hcount := h.once m hm
    rwa [List.count, List.countP_map, List.countP_eq_length_filter] at hcount
  exact if_pos (List.all_eq_true.mpr fun key hkey => decide_eq_true (honce key hkey))

/-- A member with a default is there, or is left out and has its default. -/
theorem Shows.lookup_eq (key : String) (j : Json) (hm : (key, j) ∈ full) :
    members.lookup key = some j ∨ members.lookup key = none ∧ (key, j) ∈ defaults := by
  rcases h.shown _ hm with hmem | ⟨hdefault, hnot⟩
  · exact .inl (lookup_of_mem hmem (h.once _ hm))
  · refine .inr ⟨List.lookup_eq_none_iff.mpr fun n hn => ?_, hdefault⟩
    have hne : key ≠ n.1 := fun heq => hnot (List.mem_map.mpr ⟨n, hn, heq.symm⟩)
    simpa using hne

/-- A member without a default is there. -/
theorem Shows.lookup_of_required {key : String} {j : Json} (hm : (key, j) ∈ full)
    (hkey : key ∉ defaults.map Prod.fst) : members.lookup key = some j := by
  rcases h.lookup_eq key j hm with hsome | ⟨-, hdefault⟩
  · exact hsome
  · exact absurd (List.mem_map_of_mem hdefault) hkey

/-- What is read for a member with a default, there or not. -/
theorem Shows.read_eq {α : Type} {read : Json → Option α} {x default : α} (key : String) (j : Json)
    (hm : (key, j) ∈ full) (hread : read j = some x)
    (hdefault : (key, j) ∈ defaults → default = x) :
    (match members.lookup key with
      | some value => read value
      | none => some default) = some x := by
  rcases h.lookup_eq key j hm with hthere | ⟨hleft, hmem⟩
  · rw [hthere]
    exact hread
  · rw [hleft, hdefault hmem]

end

theorem shows_self {full : List (String × Json)} (h : (full.map Prod.fst).Nodup)
    (defaults : List (String × Json)) : Shows full defaults full where
  shown := fun _ hm => .inl hm
  once := fun m _ => List.nodup_iff_count_le_one.mp h m.1

/-- A last member that has its default may be left out. -/
theorem shows_withoutLast (lead : List (String × Json)) (m : String × Json)
    (h : ((lead ++ [m]).map Prod.fst).Nodup) : Shows (lead ++ [m]) [m] lead := by
  rw [List.map_append, List.nodup_append] at h
  obtain ⟨hlead, -, hdisjoint⟩ := h
  constructor
  · intro n hn
    rcases List.mem_append.mp hn with hn | hn
    · exact .inl hn
    · obtain rfl := List.mem_singleton.mp hn
      have hnot : n.1 ∉ lead.map Prod.fst := fun hkey =>
        hdisjoint n.1 hkey n.1 (List.mem_singleton_self n.1) rfl
      exact .inr ⟨hn, hnot⟩
  · exact fun n _ => List.nodup_iff_count_le_one.mp hlead n.1

theorem list?_of_forall₂ {α : Type} {read : Json → Option α} {xs : List α} {js : List Json}
    (h : List.Forall₂ (fun x j => read j = some x) xs js) :
    (Json.arr js).list? read = some xs := by
  change js.mapM read = some xs
  induction h with
  | nil => rfl
  | cons hx _ ih => rw [List.mapM_cons, hx, ih]; rfl

end Json

open Json

/-! ## Fields and entities -/

namespace Field

/-- All members of a field. -/
def members (f : Field) : List (String × Json) :=
  [("name", .str f.name), ("type", .str f.typeName),
    ("annotations", .arr (f.annotations.map Annotation.toJson))]

/-- The value is an object for the field. -/
def Form (f : Field) (j : Json) : Prop :=
  ∃ ms, j = .obj ms ∧ Shows f.members [("annotations", .arr [])] ms

theorem form_toJson (f : Field) : f.Form f.toJson := by
  obtain ⟨name, typeName, annotations⟩ := f
  cases annotations with
  | nil =>
    exact ⟨_, rfl, shows_withoutLast [("name", .str name), ("type", .str typeName)]
      ("annotations", .arr []) (by simp)⟩
  | cons a as => exact ⟨_, rfl, shows_self (by simp [members]) _⟩

theorem list?_annotations (f : Field) :
    (Json.arr (f.annotations.map Annotation.toJson)).list? Annotation.ofJson?
      = some f.annotations :=
  list?_of_forall₂ (List.forall₂_map_right_iff.mpr (List.forall₂_same.mpr fun _ _ => rfl))

theorem ofJson?_of_form {f : Field} {j : Json} (h : f.Form j) : ofJson? j = some f := by
  obtain ⟨ms, rfl, hshows⟩ := h
  have hrecord : (Json.obj ms).record? ["name", "type", "annotations"]
      = some fun key => ms.lookup key := hshows.record?_eq
  have hname : ms.lookup "name" = some (.str f.name) :=
    hshows.lookup_of_required (by simp [members]) (by decide)
  have htype : ms.lookup "type" = some (.str f.typeName) :=
    hshows.lookup_of_required (by simp [members]) (by decide)
  unfold ofJson?
  simp only [hrecord, Option.bind_eq_bind, Option.bind_some, hname, htype, Json.string?]
  refine hshows.read_eq "annotations" (.arr (f.annotations.map Annotation.toJson))
    (by simp [members]) ?_ fun hdefault => ?_
  · rw [list?_annotations, Option.bind_some]
  · have hnil : f.annotations = [] := by simpa using hdefault
    rw [← hnil]

end Field

namespace Entity

/-- The value is an object for the entity, with an object for each of its fields. -/
def Form (e : Entity) (j : Json) : Prop :=
  ∃ fields ms, List.Forall₂ Field.Form e.fields fields ∧ j = .obj ms
    ∧ Shows [("name", .str e.name), ("fields", .arr fields)] [("fields", .arr [])] ms

theorem form_toJson (e : Entity) : e.Form e.toJson := by
  refine ⟨e.fields.map Field.toJson, _, ?_, rfl, shows_self (by simp) _⟩
  exact List.forall₂_map_right_iff.mpr (List.forall₂_same.mpr fun f _ => f.form_toJson)

theorem ofJson?_of_form {e : Entity} {j : Json} (h : e.Form j) : ofJson? j = some e := by
  obtain ⟨fields, ms, hforms, rfl, hshows⟩ := h
  have hrecord : (Json.obj ms).record? ["name", "fields"] = some fun key => ms.lookup key :=
    hshows.record?_eq
  have hname : ms.lookup "name" = some (.str e.name) :=
    hshows.lookup_of_required (by simp) (by decide)
  have hread : (Json.arr fields).list? Field.ofJson? = some e.fields :=
    list?_of_forall₂ (hforms.imp fun _ _ => Field.ofJson?_of_form)
  unfold ofJson?
  simp only [hrecord, Option.bind_eq_bind, Option.bind_some, hname, Json.string?]
  refine hshows.read_eq "fields" (.arr fields) (by simp) ?_ fun hdefault => ?_
  · rw [hread, Option.bind_some]
  · obtain rfl : fields = [] := by simpa using hdefault
    have hnil : e.fields = [] := List.forall₂_nil_right_iff.mp hforms
    rw [← hnil]

end Entity

/-! ## Options -/

namespace Java.Options

/-- All members of the options. -/
def members (o : Options) : List (String × Json) :=
  [("package", .str o.package), ("extension", .str o.extension),
    ("indent", .nat o.indent.toNat)]

/-- The value is an object for the options. -/
def Form (o : Options) (j : Json) : Prop :=
  ∃ ms, j = .obj ms ∧ Shows o.members ({} : Options).members ms

theorem form_toJson (o : Options) : o.Form o.toJson :=
  ⟨_, rfl, shows_self (show (o.members.map Prod.fst).Nodup by simp [members]) _⟩

/-- A number of the machine is read as itself. -/
theorem word?_nat (k : UInt64) : (Json.nat k.toNat).word? = some k := by
  refine (if_pos k.toNat_lt).trans ?_
  rw [UInt64.ofNat_toNat]

theorem ofJson?_of_form {o : Options} {j : Json} (h : o.Form j) : ofJson? j = some o := by
  obtain ⟨ms, rfl, hshows⟩ := h
  have hrecord : (Json.obj ms).record? ["package", "extension", "indent"]
      = some fun key => ms.lookup key := hshows.record?_eq
  unfold ofJson?
  simp only [hrecord, Option.bind_eq_bind, Option.bind_some]
  refine Option.bind_eq_some_iff.mpr ⟨o.package, ?_,
    Option.bind_eq_some_iff.mpr ⟨o.extension, ?_, ?_⟩⟩
  · exact hshows.read_eq "package" (.str o.package) (by simp [members]) rfl
      (by simp +contextual [members])
  · exact hshows.read_eq "extension" (.str o.extension) (by simp [members]) rfl
      (by simp +contextual [members])
  · refine hshows.read_eq "indent" (.nat o.indent.toNat) (by simp [members]) ?_ fun hdefault => ?_
    · rw [word?_nat, Option.bind_some]
    · have hindent : (o.indent.toNat : Int) = (4 : Nat) := by
        simpa [members, Json.nat] using hdefault
      have hfour : o.indent = 4 := UInt64.toNat_inj.mp (Int.ofNat_inj.mp hindent)
      rw [← hfour]

end Java.Options

/-! ## Field types -/

namespace FieldType

theorem ofJson?_toJson (t : FieldType) : ofJson? t.toJson = some t := by
  cases t <;> rfl

end FieldType

/-! ## Texts -/

namespace Json

/-- What a text denotes, read from its value. -/
def decode? {α : Type} (read : Json → Option α) (text : String) : Option α :=
  (parse? text).bind read

/-- The texts of the value, on one line and over several, denote `x`. -/
def RoundTrips {α : Type} (read : Json → Option α) (j : Json) (x : α) : Prop :=
  decode? read (compact j) = some x ∧ decode? read (pretty j) = some x

theorem roundTrips_of_exact {α : Type} {read : Json → Option α} {j : Json} {x : α}
    (hexact : j.Exact) (hread : read j = some x) : RoundTrips read j x := by
  constructor
  · rw [decode?, parse?_compact hexact, Option.bind_some, hread]
  · rw [decode?, parse?_pretty hexact, Option.bind_some, hread]

theorem exactItems_map {α : Type} {write : α → Json} (h : ∀ x, (write x).Exact) (xs : List α) :
    ExactItems (xs.map write) := by
  induction xs with
  | nil => trivial
  | cons x xs ih => exact ⟨h x, ih⟩

end Json

theorem FieldType.exact_toJson (t : FieldType) : t.toJson.Exact := by
  cases t <;> simp [toJson, Exact, ExactMembers]

theorem Annotation.exact_toJson (a : Annotation) : a.toJson.Exact := trivial

theorem Field.exact_toJson (f : Field) : f.toJson.Exact := by
  have hannotations : ExactItems (f.annotations.map Annotation.toJson) :=
    exactItems_map Annotation.exact_toJson f.annotations
  unfold toJson
  split <;> simp [Exact, ExactMembers, hannotations]

theorem Entity.exact_toJson (e : Entity) : e.toJson.Exact := by
  have hfields : ExactItems (e.fields.map Field.toJson) :=
    exactItems_map Field.exact_toJson e.fields
  simp [toJson, Exact, ExactMembers, hfields]

theorem Java.Options.exact_toJson (o : Options) : o.toJson.Exact := by
  simp [toJson, Exact, ExactMembers, Json.nat]

/-- **Reading undoes writing.** The text that is written for a field type, a field, an entity or
options is read as just that. So is every text for an object that shows a field, an entity or
options: with the members in any order, members of other keys among them, and members that have
their default left out. -/
theorem decode_encode :
    (∀ t : FieldType, RoundTrips FieldType.ofJson? t.toJson t)
      ∧ (∀ f : Field, RoundTrips Field.ofJson? f.toJson f
        ∧ ∀ j text, f.Form j → parse? text = some j → decode? Field.ofJson? text = some f)
      ∧ (∀ e : Entity, RoundTrips Entity.ofJson? e.toJson e
        ∧ ∀ j text, e.Form j → parse? text = some j → decode? Entity.ofJson? text = some e)
      ∧ ∀ o : Java.Options, RoundTrips Java.Options.ofJson? o.toJson o
        ∧ ∀ j text, o.Form j → parse? text = some j →
          decode? Java.Options.ofJson? text = some o := by
  have htext {α : Type} {read : Json → Option α} {x : α} {j : Json} {text : String}
      (hread : read j = some x) (hparse : parse? text = some j) : decode? read text = some x := by
    rw [decode?, hparse, Option.bind_some, hread]
  refine ⟨fun t => ?_, fun f => ⟨?_, ?_⟩, fun e => ⟨?_, ?_⟩, fun o => ⟨?_, ?_⟩⟩
  · exact roundTrips_of_exact t.exact_toJson t.ofJson?_toJson
  · exact roundTrips_of_exact f.exact_toJson (Field.ofJson?_of_form f.form_toJson)
  · exact fun j text hform hparse => htext (Field.ofJson?_of_form hform) hparse
  · exact roundTrips_of_exact e.exact_toJson (Entity.ofJson?_of_form e.form_toJson)
  · exact fun j text hform hparse => htext (Entity.ofJson?_of_form hform) hparse
  · exact roundTrips_of_exact o.exact_toJson (Java.Options.ofJson?_of_form o.form_toJson)
  · exact fun j text hform hparse => htext (Java.Options.ofJson?_of_form hform) hparse

/-- An entity whose name has to be escaped, read from an object with a member too many, with its own
members in another order and without its annotations; and options with the widest indent, without
their extension. -/
theorem decode_encode_of_rearranged :
    let e : Entity := ⟨"\"\\\u0001😀", [⟨"f", "Long", []⟩]⟩
    let f : Json := .obj [("type", .str "Long"), ("name", .str "f")]
    let j : Json := .obj [("x", .arr [.null]), ("fields", .arr [f]), ("name", .str e.name)]
    let o : Java.Options := ⟨"", "java", 18446744073709551615⟩
    let k : Json := .obj [("indent", .nat 18446744073709551615), ("package", .str "")]
    e.Form j ∧ decode? Entity.ofJson? (compact j) = some e
      ∧ o.Form k ∧ decode? Java.Options.ofJson? (pretty k) = some o := by
  intro e f j o k
  obtain ⟨-, -, hentities, hoptions⟩ := decode_encode
  have hfield : (⟨"f", "Long", []⟩ : Field).Form f :=
    ⟨_, rfl, by simp [Field.members], by simp [Field.members]⟩
  have hform : e.Form j :=
    ⟨[f], _, .cons hfield .nil, rfl, by simp, by simp⟩
  have hexact : j.Exact := by simp [j, f, Exact, ExactMembers, ExactItems]
  have hform' : o.Form k :=
    ⟨_, rfl, by simp [o, Java.Options.members], by simp [o, Java.Options.members]⟩
  have hexact' : k.Exact := by simp [k, Exact, ExactMembers, Json.nat]
  exact ⟨hform, (hentities e).2 j _ hform (parse?_compact hexact), hform',
    (hoptions o).2 k _ hform' (parse?_pretty hexact')⟩

end EntitySchema
