import EntitySchema.Disk.Basic
import EntitySchema.Proofs.Actions
import EntitySchema.Proofs.Utf8
import EntitySchema.Run
import Mathlib.Data.List.Forall2

/-!
# Looking changes nothing

A project is loaded by looking only: what stands at a path, what a file holds, which names a
directory has. In a store where a look changes nothing (`SteadyStore`), to load a project changes
nothing either (`Invocation.keeps_loadProject`), and so whatever is done with it starts from the
files that were loaded.
-/

namespace EntitySchema

variable {σ : Type}

/-- A file store in which a look changes nothing. -/
class SteadyStore (σ : Type) [FileStore (StateM σ)] : Prop where
  keeps_kind? : ∀ p : Path, Keeps (FileStore.kind? p : StateM σ _)
  keeps_read : ∀ p : Path, Keeps (FileStore.read p : StateM σ _)
  keeps_list : ∀ p : Path, Keeps (FileStore.list p : StateM σ _)

instance : SteadyStore Disk where
  keeps_kind? _ _ := rfl
  keeps_read _ _ := rfl
  keeps_list _ _ := rfl

open SteadyStore

/-! ## One look -/

namespace FileStore

variable [FileStore (StateM σ)] [SteadyStore σ]

theorem keeps_exists? (p : Path) : Keeps (exists? p : StateM σ _) :=
  (keeps_kind? p).bind fun _ => .pure _

theorem keeps_isDir (p : Path) : Keeps (isDir p : StateM σ _) :=
  (keeps_kind? p).bind fun _ => .pure _

theorem keeps_readText (p : Path) : Keeps (readText p : StateM σ _) := by
  refine (keeps_read p).bind fun
    | .error _ => .pure _
    | .ok content => ?_
  dsimp only
  cases String.fromUTF8? content with
  | none => exact .pure _
  | some text => exact .pure _

/-- The text in a file, from what is read of it. -/
def utf8Text : Except FileFault ByteArray → Except FileFault String
  | .error fault => .error fault
  | .ok content =>
    match String.fromUTF8? content with
    | some text => .ok text
    | none => .error .notUtf8

theorem utf8Text_eq_ok_iff {content : Except FileFault ByteArray} {text : String} :
    utf8Text content = .ok text ↔ content = .ok text.toUTF8 := by
  refine ⟨?_, ?_⟩
  · intro h
    cases content with
    | error fault => exact nomatch h
    | ok bytes =>
      rw [utf8Text] at h
      cases hutf8 : String.fromUTF8? bytes with
      | none => rw [hutf8] at h; exact nomatch h
      | some found =>
        rw [hutf8] at h
        cases Except.ok.inj h
        exact congrArg Except.ok (Text.toUTF8_of_fromUTF8? hutf8).symm
  · rintro rfl
    rw [utf8Text, Text.fromUTF8?_toUTF8]

theorem run_readText (p : Path) (s : σ) :
    ((readText p : StateM σ _).run s).1 = utf8Text ((FileStore.read p : StateM σ _).run s).1 := by
  unfold readText
  rw [(keeps_read p).run_bind]
  cases ((FileStore.read p : StateM σ _).run s).1 with
  | error fault => rfl
  | ok content =>
    dsimp only [utf8Text]
    cases String.fromUTF8? content with
    | none => rfl
    | some text => rfl

end FileStore

/-! ## Searching by pattern -/

namespace Glob

theorem keeps_concat (searches : List (StateM σ (Except SearchFault (List Path))))
    (h : ∀ a ∈ searches, Keeps a) : Keeps (concat searches) := by
  induction searches with
  | nil => exact .pure _
  | cons search searches ih =>
    refine (h search List.mem_cons_self).bind fun
      | .error _ => .pure _
      | .ok paths => (ih fun a ha => h a (List.mem_cons_of_mem _ ha)).bind fun
        | .error _ => .pure _
        | .ok _ => .pure _

/-! A search goes on below a directory by a search that it is given; these lemmas are about one
that changes nothing. -/

section GoingOn

variable {searchIn : List Pattern → Path → StateM σ (Except SearchFault (List Path))}

theorem keeps_goOn (h : ∀ ps p, Keeps (searchIn ps p)) (patterns : List Pattern) (path : Path) :
    Keeps (goOn searchIn patterns path) := by
  unfold goOn
  split
  · exact .pure _
  · exact h _ _

variable [FileStore (StateM σ)] [SteadyStore σ]

theorem keeps_searchEntry (h : ∀ ps p, Keeps (searchIn ps p)) (patterns : List Pattern)
    (name : String) (path : Path) : Keeps (searchEntry searchIn patterns name path) := by
  unfold searchEntry
  lift_lets
  intro byName
  have hbyName : ∀ ps, Keeps (byName ps)
    | [] => .pure _
    | p :: rest => by
      show Keeps (if p.accepts name.toList then goOn searchIn rest path else Pure.pure (.ok []))
      split
      · exact keeps_goOn h rest path
      · exact .pure _
  clear_value byName
  cases patterns with
  | nil => exact .pure _
  | cons p rest =>
    dsimp only
    split
    · refine (FileStore.keeps_isDir path).bind fun found => ?_
      split
      · -- any depth is this directory itself, or something below it
        refine keeps_concat _ fun a ha => ?_
        obtain rfl | ha := List.mem_cons.mp ha
        · split
          · exact .pure _
          · exact hbyName _
        · rw [List.mem_singleton.mp ha]
          exact h _ _
      · exact hbyName _
    · exact hbyName _

end GoingOn

variable [FileStore (StateM σ)] [SteadyStore σ]

/-- A step of a search looks at one directory, and the steps after it change nothing. -/
theorem keeps_searchIn : ∀ (fuel : Nat) (patterns : List Pattern) (dir : Path),
    Keeps (searchIn fuel patterns dir : StateM σ _)
  | 0, _, _ => .pure _
  | _ + 1, [], _ => .pure _
  | fuel + 1, p :: rest, dir => by
    -- a search goes on only by searches with less fuel
    have ih := keeps_searchIn fuel
    unfold searchIn
    cases p.name? with
    | some name =>
      dsimp only
      have goes (found : Bool) : Keeps
          (if found then goOn (searchIn fuel) rest (entryPath dir name)
            else Pure.pure (.ok []) : StateM σ _) := by
        split
        · exact keeps_goOn ih rest _
        · exact .pure _
      split
      · exact (FileStore.keeps_isDir _).bind goes
      · exact (FileStore.keeps_exists? _).bind goes
    | none =>
      refine (FileStore.keeps_isDir dir).bind fun found => ?_
      split
      · refine (keeps_list dir).bind fun
          | .error _ => .pure _
          | .ok names => keeps_concat _ fun a ha => ?_
        -- the dot names come before the entries, and both are searched alike
        obtain ha | ha := List.mem_append.mp ha
        · obtain ⟨name, -, rfl⟩ := List.mem_map.mp ha
          exact keeps_goOn ih rest _
        · obtain ⟨name, -, rfl⟩ := List.mem_map.mp ha
          exact keeps_searchEntry ih _ _ _
      · exact .pure _

theorem keeps_search (pattern : Path) : Keeps (search pattern : StateM σ _) := by
  unfold search
  split
  · exact .pure _
  · exact keeps_searchIn _ _ _

end Glob

/-! ## Loading a project -/

section Loading

variable [FileStore (StateM σ)] [SteadyStore σ] {path : Path} {paths : List Path} {s : σ}
  {file : SchemaFile} {loaded : List SchemaFile}

namespace Discovery

theorem keeps_filesAt (path : Path) : Keeps (filesAt path : StateM σ _) :=
  (keeps_kind? path).bind fun
    | none => .pure _
    | some .file => .pure _
    | some .directory => (Glob.keeps_search _).bind fun
      | .error _ => .pure _
      | .ok _ => .pure _

theorem keeps_filesAtAll : ∀ paths : List Path, Keeps (filesAtAll paths : StateM σ _)
  | [] => .pure _
  | path :: paths => (keeps_filesAt path).bind fun
    | .error _ => .pure _
    | .ok _ => (keeps_filesAtAll paths).bind fun
      | .error _ => .pure _
      | .ok _ => .pure _

end Discovery

theorem keeps_discover (paths : List Path) : Keeps (discover paths : StateM σ _) :=
  (Discovery.keeps_filesAtAll paths).bind fun
    | .error _ => .pure _
    | .ok [] => .pure _
    | .ok (_ :: _) => .pure _

/-- Discovery puts what it has found in order, and fails if that is nothing. -/
theorem run_discover {all : List Path}
    (hall : ((Discovery.filesAtAll paths : StateM σ _).run s).1 = .ok all) :
    ((discover paths : StateM σ _).run s).1
      = if all = [] then .error (.noSchemaFiles (paths.head?.getD ⟨"schemas/"⟩))
        else .ok (Discovery.inOrder all) := by
  unfold discover
  rw [(Discovery.keeps_filesAtAll paths).run_bind, hall]
  cases all <;> rfl

/-- A file stands for itself. -/
theorem discover_file (h : ((FileStore.kind? path : StateM σ _).run s).1 = some .file) :
    ((discover [path] : StateM σ _).run s).1 = .ok [path] := by
  have hat : ((Discovery.filesAt path : StateM σ _).run s).1 = .ok [path] := by
    unfold Discovery.filesAt
    rw [(keeps_kind? path).run_bind, h]
    rfl
  have hall : ((Discovery.filesAtAll [path] : StateM σ _).run s).1 = .ok [path] := by
    unfold Discovery.filesAtAll
    rw [(Discovery.keeps_filesAt path).run_bind, hat]
    rfl
  rw [run_discover hall, if_neg (List.cons_ne_nil _ _), Discovery.inOrder, List.mergeSort_singleton]
  rfl

namespace SchemaFile

theorem keeps_load (path : Path) : Keeps (load path : StateM σ _) :=
  (FileStore.keeps_readText path).bind fun
    | .error _ => .pure _
    | .ok _ => .pure _

theorem keeps_loadAll : ∀ paths : List Path, Keeps (loadAll paths : StateM σ _)
  | [] => .pure _
  | path :: paths => (keeps_load path).bind fun
    | .error _ => .pure _
    | .ok _ => (keeps_loadAll paths).bind fun
      | .error _ => .pure _
      | .ok _ => .pure _

theorem keeps_loadFrom (paths : List Path) : Keeps (loadFrom paths : StateM σ _) :=
  (keeps_discover paths).bind fun
    | .error _ => .pure _
    | .ok files => keeps_loadAll files

theorem load_eq_ok_iff :
    ((load path : StateM σ _).run s).1 = .ok file
      ↔ ∃ text : String, ((FileStore.read path : StateM σ _).run s).1 = .ok text.toUTF8
        ∧ file = ⟨path, EntitySchema.read text⟩ := by
  unfold load
  rw [(FileStore.keeps_readText path).run_bind, FileStore.run_readText]
  simp only [← FileStore.utf8Text_eq_ok_iff]
  cases FileStore.utf8Text ((FileStore.read path : StateM σ _).run s).1 with
  | error fault => exact ⟨nofun, fun ⟨_, h, _⟩ => nomatch h⟩
  | ok text =>
    refine ⟨?_, ?_⟩
    · intro h
      exact ⟨text, rfl, (Except.ok.inj h).symm⟩
    · rintro ⟨_, htext, rfl⟩
      cases htext
      rfl

theorem load_of_read {text : String}
    (hcontent : ((FileStore.read path : StateM σ _).run s).1 = .ok text.toUTF8) :
    ((load path : StateM σ _).run s).1 = .ok ⟨path, EntitySchema.read text⟩ :=
  load_eq_ok_iff.mpr ⟨text, hcontent, rfl⟩

/-- Files are loaded one for each path. -/
theorem loadAll_eq_ok_iff :
    ((loadAll paths : StateM σ _).run s).1 = .ok loaded
      ↔ List.Forall₂ (fun p file => ((load p : StateM σ _).run s).1 = .ok file) paths loaded := by
  induction paths generalizing loaded with
  | nil =>
    rw [List.forall₂_nil_left_iff]
    exact ⟨fun h => (Except.ok.inj h).symm, fun h => h ▸ rfl⟩
  | cons p paths ih =>
    rw [loadAll, (keeps_load p).run_bind, List.forall₂_cons_left_iff]
    cases ((load p : StateM σ _).run s).1 with
    | error failure => exact ⟨nofun, fun ⟨_, _, h, _⟩ => nomatch h⟩
    | ok file =>
      dsimp only
      rw [(keeps_loadAll paths).run_bind]
      refine ⟨?_, ?_⟩
      · intro h
        cases hmore : ((loadAll paths : StateM σ _).run s).1 with
        | error failure => rw [hmore] at h; exact nomatch h
        | ok more =>
          rw [hmore] at h
          exact ⟨file, more, rfl, ih.mp hmore, (Except.ok.inj h).symm⟩
      · rintro ⟨_, more, hfile, hmore, rfl⟩
        cases hfile
        rw [ih.mpr hmore]
        rfl

theorem loadFrom_of_discover {files : List Path}
    (h : ((discover paths : StateM σ _).run s).1 = .ok files) :
    ((loadFrom paths : StateM σ _).run s).1 = ((loadAll files : StateM σ _).run s).1 := by
  unfold loadFrom
  rw [(keeps_discover paths).run_bind, h]

theorem loadFrom_file {text : String}
    (hkind : ((FileStore.kind? path : StateM σ _).run s).1 = some .file)
    (hcontent : ((FileStore.read path : StateM σ _).run s).1 = .ok text.toUTF8) :
    ((loadFrom [path] : StateM σ _).run s).1 = .ok [⟨path, EntitySchema.read text⟩] := by
  rw [loadFrom_of_discover (discover_file hkind)]
  exact loadAll_eq_ok_iff.mpr (.cons (load_of_read hcontent) .nil)

end SchemaFile

namespace Settings

theorem keeps_loadFile (path : Path) : Keeps (loadFile path : StateM σ _) := by
  refine (FileStore.keeps_readText path).bind fun
    | .error _ => .pure _
    | .ok text => ?_
  dsimp only
  cases parse? text with
  | none => exact .pure _
  | some settings => exact .pure _

theorem keeps_loadFirst : ∀ paths : List Path, Keeps (loadFirst paths : StateM σ _)
  | [] => .pure _
  | path :: paths => (FileStore.keeps_exists? path).bind fun
    | true => keeps_loadFile path
    | false => keeps_loadFirst paths

theorem keeps_load (env : Environment) : ∀ file : Option Path, Keeps (load env file : StateM σ _)
  | some path => keeps_loadFile path
  | none => keeps_loadFirst env.settingsFiles

end Settings

/-- **To load a project changes nothing.** -/
theorem Invocation.keeps_loadProject (i : Invocation) (env : Environment) (paths : List Path) :
    Keeps (i.loadProject env paths : StateM σ _) :=
  (Settings.keeps_load env i.settingsFile).bind fun
    | .error _ => .pure _
    | .ok _ => (SchemaFile.keeps_loadFrom _).bind fun
      | .error _ => .pure _
      | .ok _ => .pure _

end Loading

end EntitySchema
