import Mathlib.Data.List.Nodup
import Mathlib.Data.Option.Basic
import EntitySchema.Proofs.Checks

/-!
# The accessors of a class

Behind its constructor a class holds methods and nothing else, a getter and a setter for each field
(`Java.render_eq_methods`). The checks of an entity compare the names of fields as they are
written, the methods have them with a capital letter, and different names can have the same capital
form. So methods of an entity without a fault may clash (`Java.accessors_clash`), and it is known
when they do (`Java.accessors_distinct_iff`).
-/

namespace EntitySchema

/-! ## Capital letters -/

namespace Text

open Upper

/-- The small letters `a` to `z`. -/
def IsSmallLetter (c : Char) : Prop := 'a' ≤ c ∧ c ≤ 'z'

instance (c : Char) : Decidable (IsSmallLetter c) := inferInstanceAs (Decidable (_ ∧ _))

theorem IsSmallLetter.toNat {c : Char} (h : IsSmallLetter c) :
    97 ≤ c.toNat ∧ c.toNat ≤ 122 := h

/-- A small letter becomes the capital letter that lies thirty-two characters before it. -/
theorem upper_of_smallLetter {c : Char} (h : IsSmallLetter c) :
    upper c = [Char.ofNat (65 + (c.toNat - 97))] := by
  obtain ⟨hlow, hhigh⟩ := h.toNat
  have hlong : expansions.lookup c.toNat = none := by
    have hfirst : ∀ p ∈ expansions, 122 < p.1 := by decide +kernel
    rw [List.lookup_eq_none_iff]
    intro p hp
    have := hfirst p hp
    simpa using by omega
  have hrun : pairs.find? (·.covers c.toNat) = some ⟨0x61, 0x7A, 1, 0x41⟩ := by
    have hcovers : Run.covers ⟨0x61, 0x7A, 1, 0x41⟩ c.toNat = true := by
      simp [Run.covers, hlow, hhigh, Nat.mod_one]
    exact List.find?_cons_of_pos hcovers
  unfold upper
  rw [hlong, hrun]
  rfl

/-- Words that start with a small letter are told apart by their capital forms. -/
theorem capitalize_inj_of_smallLetter {c d : Char} {cs ds : List Char} (hc : IsSmallLetter c)
    (hd : IsSmallLetter d) (h : capitalize (c :: cs) = capitalize (d :: ds)) :
    c :: cs = d :: ds := by
  have hcode : ∀ n < 26, (Char.ofNat (65 + n)).toNat = 65 + n := by decide
  simp only [capitalize, upper_of_smallLetter hc, upper_of_smallLetter hd, List.cons_append,
    List.nil_append, List.cons.injEq] at h
  obtain ⟨hhead, htail⟩ := h
  have hsame : c.toNat = d.toNat := by
    obtain ⟨hc, hc'⟩ := hc.toNat
    obtain ⟨hd, hd'⟩ := hd.toNat
    have hcodes := congrArg Char.toNat hhead
    rw [hcode _ (by omega), hcode _ (by omega)] at hcodes
    omega
  rw [Char.toNat_inj.mp hsame, htail]

end Text

/-- The name starts with a small letter. -/
def Name.StartsSmall (name : String) : Prop :=
  ∃ c cs, name.toList = c :: cs ∧ Text.IsSmallLetter c

theorem Name.capitalized?_inj {m n : String} (hm : StartsSmall m) (hn : StartsSmall n)
    (h : capitalized? m = capitalized? n) : m = n := by
  obtain ⟨c, cs, hmc, hc⟩ := hm
  obtain ⟨d, ds, hnd, hd⟩ := hn
  have hempty (s : String) (x : Char) (xs : List Char) (hs : s.toList = x :: xs) :
      s.isEmpty = false := by
    rw [String.isEmpty_eq_false_iff]
    intro hnil
    simp [hnil] at hs
  unfold capitalized? at h
  rw [hempty m c cs hmc, hempty n d ds hnd, hmc, hnd] at h
  have hchars := String.ofList_inj.mp (Option.some.inj h)
  rw [← String.toList_inj, hmc, hnd]
  exact Text.capitalize_inj_of_smallLetter hc hd hchars

namespace Java

/-! ## Methods -/

/-- A public method of one statement. -/
structure Method where
  result : String
  name : String
  parameters : String
  statement : String

/-- The method after an empty line. -/
def Method.text (indent : String) (m : Method) : String :=
  "\n"
    ++ indent ++ "public " ++ m.result ++ " " ++ m.name ++ "(" ++ m.parameters ++ ") \x7b\n"
    ++ indent ++ indent ++ m.statement ++ ";\n"
    ++ indent ++ "\x7d\n"

namespace Member

/-- The method that gives the value of the member. -/
def getter (m : Member) : Method := ⟨m.type, "get" ++ m.accessor, "", "return " ++ m.name⟩

/-- The method that changes the value of the member. -/
def setter (m : Member) : Method :=
  ⟨"void", "set" ++ m.accessor, m.type ++ " " ++ m.name, "this." ++ m.name ++ " = " ++ m.name⟩

theorem accessors_eq (indent : String) (m : Member) :
    m.accessors indent = m.getter.text indent ++ m.setter.text indent := by
  have hget : " get" = " " ++ "get" := rfl
  have hopen : "() \x7b\n" = "(" ++ ("" ++ ") \x7b\n") := rfl
  have hset : "public void set" = "public " ++ ("void" ++ (" " ++ "set")) := rfl
  unfold accessors Method.text getter setter
  rw [hget, hopen, hset]
  simp only [String.append_assoc]

end Member

/-- The members for the fields that have a name. -/
def members (fs : List Field) : List Member := fs.filterMap Member.ofField?

/-- The getters and the setters of the fields that have a name. -/
def accessors (fs : List Field) : List Method :=
  (members fs).flatMap fun m => [m.getter, m.setter]

/-- The names of the getters and setters. -/
def accessorNames (fs : List Field) : List String := (accessors fs).map Method.name

/-- The text of a class from its comment to its constructor. -/
def classOpening (indent name : String) (members : List Member) : String :=
  "/**\n * " ++ name ++ " entity.\n */\n"
    ++ "public class " ++ name ++ " \x7b\n"
    ++ String.join (members.map (·.declaration indent))
    ++ (if members.isEmpty then "" else "\n")
    ++ indent ++ "public " ++ name ++ "() \x7b\x7d\n"

theorem members_of_mapM {fs : List Field} {ms : List Member}
    (h : fs.mapM Member.ofField? = some ms) : members fs = ms := by
  induction fs generalizing ms with
  | nil => cases h; rfl
  | cons f fs ih =>
    simp only [List.mapM_cons, Option.bind_eq_bind, Option.bind_eq_some_iff] at h
    obtain ⟨m, hm, ms', hms, hout⟩ := h
    cases hout
    unfold members
    rw [List.filterMap_cons_some hm]
    exact congrArg (m :: ·) (ih hms)

theorem join_accessors (indent : String) (ms : List Member) :
    String.join (ms.map (·.accessors indent))
      = String.join ((ms.flatMap fun m => [m.getter, m.setter]).map (·.text indent)) := by
  induction ms with
  | nil => rfl
  | cons m ms ih =>
    rw [List.map_cons, String.join_cons, ih, Member.accessors_eq, List.flatMap_cons,
      List.map_append, String.join_append]
    simp [String.append_assoc]

theorem classPart_eq (indent name : String) (ms : List Member) :
    classPart indent name ms
      = classOpening indent name ms
        ++ String.join ((ms.flatMap fun m => [m.getter, m.setter]).map (·.text indent))
        ++ "\x7d\n" := by
  unfold classPart classOpening
  rw [join_accessors]

/-- **A class is its opening, the accessors of its fields, and a closing brace.** -/
theorem render_eq_methods {o : Options} {e : Entity} {code : String} (h : render o e = .ok code) :
    let indent := String.ofList (List.replicate o.indent.toNat ' ')
    code = packagePart o.package ++ importPart e.fields
      ++ classOpening indent e.name (members e.fields)
      ++ String.join ((accessors e.fields).map (·.text indent)) ++ "\x7d\n" := by
  intro indent
  obtain ⟨ms, hms, rfl⟩ := exists_members_of_render h
  rw [classPart_eq, members_of_mapM hms, accessors, members_of_mapM hms]
  simp only [String.append_assoc, indent]

/-! ## Names of methods -/

theorem getterName_ne_setterName (a b : String) : "get" ++ a ≠ "set" ++ b := by
  intro heq
  have hchars := congrArg String.toList heq
  simp at hchars

/-- The accessors of two members do not clash as long as the members have different capital
forms. -/
theorem disjoint_names_iff {m n : Member} :
    List.Disjoint ["get" ++ m.accessor, "set" ++ m.accessor]
        ["get" ++ n.accessor, "set" ++ n.accessor]
      ↔ m.accessor ≠ n.accessor := by
  have hcancel (lead a b : String) : lead ++ a = lead ++ b ↔ a = b := by
    rw [← String.toList_inj, String.toList_append, String.toList_append, List.append_cancel_left_eq,
      String.toList_inj]
  simp [List.disjoint_left, hcancel, getterName_ne_setterName,
    (getterName_ne_setterName _ _).symm]

theorem accessorNames_eq (fs : List Field) :
    accessorNames fs
      = (members fs).flatMap fun m => ["get" ++ m.accessor, "set" ++ m.accessor] := by
  unfold accessorNames accessors
  rw [List.map_flatMap]
  rfl

/-- The accessors have different names exactly if the members have different capital forms. -/
theorem nodup_accessorNames_iff (fs : List Field) :
    (accessorNames fs).Nodup ↔ ((members fs).map Member.accessor).Nodup := by
  have hown (m : Member) : ["get" ++ m.accessor, "set" ++ m.accessor].Nodup := by
    simp
  have hpairs : (members fs).Pairwise
        (Function.onFun List.Disjoint fun m => ["get" ++ m.accessor, "set" ++ m.accessor])
      ↔ ((members fs).map Member.accessor).Nodup := by
    rw [List.Nodup, List.pairwise_map]
    exact List.Pairwise.iff fun _ _ => disjoint_names_iff
  rw [accessorNames_eq, List.nodup_flatMap, hpairs]
  exact and_iff_right fun m _ => hown m

/-- Fields that all have a name have the capital forms of their names in their members. -/
theorem map_accessor_members {fs : List Field} (h : ∀ f ∈ fs, f.name ≠ "") :
    ((members fs).map Member.accessor).map some = fs.map fun f => Name.capitalized? f.name := by
  induction fs with
  | nil => rfl
  | cons f fs ih =>
    obtain ⟨hf, hfs⟩ := List.forall_mem_cons.mp h
    have hname : Name.capitalized? f.name
        = some (String.ofList (Text.capitalize f.name.toList)) := by
      simp [Name.capitalized?, hf]
    have hmember : Member.ofField? f
        = some ⟨f.name, String.ofList (Text.capitalize f.name.toList), typeName f.type⟩ := by
      rw [Member.ofField?, hname]
      rfl
    have htail := ih hfs
    unfold members at htail ⊢
    rw [List.filterMap_cons_some hmember, List.map_cons, List.map_cons, htail, List.map_cons, hname]

/-- **When the accessors of a class have different names.** An entity that passes its check has a
class. Its methods have pairwise different names exactly if the names of the fields have pairwise
different capital forms, which holds where every field name starts with a small letter. -/
theorem accessors_distinct_iff (o : Options) (e : Entity) (h : e.check = .ok ()) :
    let indent := String.ofList (List.replicate o.indent.toNat ' ')
    render o e
        = .ok (packagePart o.package ++ importPart e.fields
          ++ classOpening indent e.name (members e.fields)
          ++ String.join ((accessors e.fields).map (·.text indent)) ++ "\x7d\n")
      ∧ ((accessorNames e.fields).Nodup
        ↔ (e.fields.map fun f => Name.capitalized? f.name).Nodup)
      ∧ ((∀ f ∈ e.fields, Name.StartsSmall f.name) → (accessorNames e.fields).Nodup) := by
  have hfault := Entity.check_eq_ok_iff.mp h
  obtain ⟨-, hfields, hdistinct⟩ := Entity.fault?_eq_none_iff.mp hfault
  obtain ⟨code, hcode⟩ := exists_render_of_fault? hfault o
  have hiff : (accessorNames e.fields).Nodup
      ↔ (e.fields.map fun f => Name.capitalized? f.name).Nodup := by
    rw [nodup_accessorNames_iff, ← map_accessor_members hfields,
      List.nodup_map_iff (Option.some_injective _)]
  refine ⟨by rw [hcode, render_eq_methods hcode], hiff, fun hsmall => hiff.mpr ?_⟩
  have hinj : ∀ m ∈ e.fieldNames, ∀ n ∈ e.fieldNames,
      Name.capitalized? m = Name.capitalized? n → m = n := by
    have hnames : ∀ n ∈ e.fieldNames, Name.StartsSmall n := List.forall_mem_map.mpr hsmall
    exact fun m hm n hn => Name.capitalized?_inj (hnames m hm) (hnames n hn)
  have hmap := List.Nodup.map_on hinj hdistinct
  rwa [Entity.fieldNames, List.map_map] at hmap

/-- Two fields with small letters in front have four accessors. -/
theorem accessors_distinct_of_small :
    let e : Entity := ⟨"User", [⟨"age", "integer", []⟩, ⟨"ago", "long", []⟩]⟩
    e.check = .ok () ∧ (∃ code, render {} e = .ok code)
      ∧ accessorNames e.fields = ["getAge", "setAge", "getAgo", "setAgo"]
      ∧ (accessorNames e.fields).Nodup := by
  intro e
  have hcheck : e.check = .ok () := Entity.check_eq_ok_iff.mpr (by decide +kernel)
  have hsmall : ∀ f ∈ e.fields, Name.StartsSmall f.name := by
    rintro f (_ | ⟨_, _ | ⟨_, ⟨⟩⟩⟩)
    · exact ⟨'a', ['g', 'e'], rfl, by decide⟩
    · exact ⟨'a', ['g', 'o'], rfl, by decide⟩
  obtain ⟨hrender, -, hnodup⟩ := accessors_distinct_iff {} e hcheck
  exact ⟨hcheck, ⟨_, hrender⟩, by decide +kernel, hnodup hsmall⟩

/-- Fields `age` and `Age` pass the check, and their class has each of its methods twice. -/
theorem accessors_clash :
    let e : Entity := ⟨"User", [⟨"age", "integer", []⟩, ⟨"Age", "integer", []⟩]⟩
    e.check = .ok ()
      ∧ (∃ opening, render {} e
        = .ok (opening ++ String.join ((accessors e.fields).map (·.text "    ")) ++ "\x7d\n"))
      ∧ accessorNames e.fields = ["getAge", "setAge", "getAge", "setAge"]
      ∧ ¬ (accessorNames e.fields).Nodup := by
  intro e
  have hfault : e.fault? = none := by decide +kernel
  obtain ⟨code, hcode⟩ := exists_render_of_fault? hfault {}
  have hindent : String.ofList (List.replicate ({} : Options).indent.toNat ' ') = "    " := rfl
  have hmethods := render_eq_methods hcode
  rw [hindent] at hmethods
  refine ⟨Entity.check_eq_ok_iff.mpr hfault, ⟨_, by rw [hcode, hmethods]⟩, ?_⟩
  constructor <;> decide +kernel

end Java

end EntitySchema
