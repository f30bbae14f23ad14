import EntitySchema.Discovery
import EntitySchema.Proofs.Entries

/-!
# The pattern for the schema files below a directory

A text without wildcards and brackets is read as a pattern for itself. So the pattern below a
directory with such a path is a pattern for each name of that path, then `**`, and then `*.dsl`
(`Discovery.namePatterns_patternBelow`), and the last of these stands for the names that end in
`.dsl`.
-/

namespace EntitySchema

namespace Glob

variable {cs rest : List Char}

/-! ## Plain texts -/

/-- The text has no characters that are special in a pattern. -/
def PlainText (cs : List Char) : Prop := ∀ c ∈ cs, c ≠ '*' ∧ c ≠ '?' ∧ c ≠ '['

instance (cs : List Char) : Decidable (PlainText cs) :=
  List.decidableBAll (fun c => c ≠ '*' ∧ c ≠ '?' ∧ c ≠ '[') cs

/-- The pattern that stands for one name only. -/
def literal (name : String) : Pattern := name.toList.map .char

theorem tokens_cons_plain {c : Char} (h : c ≠ '*' ∧ c ≠ '?' ∧ c ≠ '[') (position : Nat)
    (before : Option Char) (rest : List Char) :
    tokens position before (c :: rest)
      = (tokens (position + 1) (some c) rest).map (.char c :: ·) := by
  obtain ⟨hstar, hmark, hbracket⟩ := h
  rw [tokens.eq_def]
  split <;> simp_all

/-- A plain text is read as its characters, whatever follows. -/
theorem tokens_plain_append (h : PlainText cs) (position : Nat) (before : Option Char)
    (rest : List Char) :
    tokens position before (cs ++ rest)
      = (tokens (position + cs.length) (cs.getLast?.or before) rest).map (cs.map .char ++ ·) := by
  induction cs generalizing position before with
  | nil =>
    show tokens position before rest = (tokens position before rest).map id
    cases tokens position before rest <;> rfl
  | cons c cs ih =>
    obtain ⟨hc, hcs⟩ := List.forall_mem_cons.mp h
    have hlast : (c :: cs).getLast?.or before = cs.getLast?.or (some c) := by
      rw [List.getLast?_cons]
      cases cs.getLast? <;> rfl
    have hlength : position + (c :: cs).length = position + 1 + cs.length := by
      rw [List.length_cons]
      omega
    rw [List.cons_append, tokens_cons_plain hc, ih hcs, hlast, hlength]
    cases tokens (position + 1 + cs.length) (cs.getLast?.or (some c)) rest <;> rfl

theorem ofChars_plain {name : String} (h : PlainText name.toList) :
    Pattern.ofChars name.toList = .ok (literal name) := by
  have htokens := tokens_plain_append h 0 none []
  rw [List.append_nil, tokens] at htokens
  rw [Pattern.ofChars, htokens]
  exact congrArg Except.ok (List.append_nil _)

theorem name?_literal (name : String) : (literal name).name? = some name := by
  have hchars (cs : List Char) : (cs.map Token.char).mapM Token.char? = some cs := by
    induction cs with
    | nil => rfl
    | cons c cs ih => simp [List.mapM_cons, Token.char?, ih]
  unfold Pattern.name? literal
  rw [hchars]
  exact congrArg some (String.ofList_toList)

/-! ## Names that end in `.dsl` -/

/-- The pattern for any depth of directories. -/
def anyDepth : Pattern := [.anyDepth]

/-- The pattern for the names of schema files. -/
def schemaNames : Pattern := .anyRow :: literal ".dsl"

theorem accepts_chars (cs name : List Char) :
    Pattern.accepts (cs.map .char) name = true ↔ name = cs := by
  induction cs generalizing name with
  | nil => cases name <;> simp [Pattern.accepts]
  | cons c cs ih =>
    cases name with
    | nil => simp [Pattern.accepts]
    | cons x name => simp [Pattern.accepts, Token.accepts, ih]

theorem accepts_anyRow (p : Pattern) (name : List Char) :
    Pattern.accepts (.anyRow :: p) name = true ↔ ∃ tail, tail <:+ name ∧ p.accepts tail = true := by
  rw [Pattern.accepts, List.any_eq_true]
  constructor
  · rintro ⟨n, -, hn⟩
    exact ⟨name.drop n, List.drop_suffix n name, hn⟩
  · rintro ⟨tail, ⟨start, rfl⟩, htail⟩
    refine ⟨start.length, ?_, ?_⟩
    · rw [List.mem_range, List.length_append]
      omega
    · rw [List.drop_left]
      exact htail

theorem accepts_schemaNames (name : List Char) :
    schemaNames.accepts name = true ↔ ".dsl".toList <:+ name := by
  unfold schemaNames
  rw [accepts_anyRow]
  constructor
  · rintro ⟨tail, htail, haccepts⟩
    rw [← (accepts_chars _ _).mp haccepts]
    exact htail
  · intro h
    exact ⟨_, h, (accepts_chars _ _).mpr rfl⟩

end Glob

namespace Discovery

open Glob

/-! ## The whole pattern -/

/-- What the pattern has behind the directory. -/
def belowText : List Char := "**/*.dsl".toList

theorem tokens_belowText (position : Nat) :
    tokens position (some '/') belowText = .ok (.anyDepth :: schemaNames) := by
  show tokens position (some '/') ['*', '*', '/', '*', '.', 'd', 's', 'l'] = _
  simp [tokens, startsName, Except.map]
  rfl

theorem ofChars_anyDepth : Pattern.ofChars ['*', '*'] = .ok anyDepth := by
  simp [Pattern.ofChars, tokens, startsName]
  rfl

theorem ofChars_schemaNames : Pattern.ofChars ['*', '.', 'd', 's', 'l'] = .ok schemaNames := by
  simp [Pattern.ofChars, tokens, Except.map]
  rfl

section Below

variable {dir : Path}

theorem isSegment_stars : IsSegment "**" ∧ IsSegment "*.dsl" :=
  ⟨⟨by decide, by decide⟩, ⟨by decide, by decide⟩⟩

theorem toList_patternBelow (dir : Path) :
    (patternBelow dir).text.toList = dir.front ++ belowText := by
  have hdepth := Path.toList_join (Path.isAbsolute_of_noSlash isSegment_stars.1.noSlash) dir
  unfold patternBelow
  rw [Path.toList_join (by decide), Path.front_of_text isSegment_stars.1 hdepth,
    List.append_assoc, List.append_assoc]
  rfl

theorem isAbsolute_patternBelow (dir : Path) : (patternBelow dir).isAbsolute = dir.isAbsolute := by
  unfold patternBelow
  rw [Path.isAbsolute_join isSegment_stars.2, Path.isAbsolute_join isSegment_stars.1]

theorem plainText_front (h : PlainText dir.text.toList) : PlainText dir.front := by
  intro c hc
  by_cases hslash : c = '/'
  · rw [hslash]
    decide
  · exact h c (Path.mem_of_mem_front hc hslash)

/-- The pattern is one as a whole. -/
theorem ofChars_patternBelow (hne : dir.text ≠ "") (hplain : PlainText dir.text.toList) :
    ∃ pattern, Pattern.ofChars (dir.front ++ belowText) = .ok pattern := by
  obtain ⟨cs, hcs⟩ := Path.front_eq_concat hne
  have hlast : dir.front.getLast?.or none = some '/' := by rw [hcs]; simp
  refine ⟨dir.front.map .char ++ (.anyDepth :: schemaNames), ?_⟩
  unfold Pattern.ofChars
  rw [tokens_plain_append (plainText_front hplain), hlast, tokens_belowText]
  rfl

theorem mapM_ofChars {names : List String} (h : ∀ n ∈ names, PlainText n.toList) :
    (names.map String.toList).mapM Pattern.ofChars = .ok (names.map literal) := by
  induction names with
  | nil => rfl
  | cons n names ih =>
    obtain ⟨hn, hnames⟩ := List.forall_mem_cons.mp h
    rw [List.map_cons, List.mapM_cons, ofChars_plain hn, ih hnames]
    rfl

/-- **The names of the pattern below a directory** are those of its path, as they are written, any
depth, and the names of schema files. -/
theorem namePatterns_patternBelow {names : List String} (hne : dir.text ≠ "")
    (hplain : PlainText dir.text.toList) (hnames : ∀ n ∈ names, '/' ∉ n.toList)
    (hfront : dir.front = (if dir.isAbsolute then ['/'] else []) ++ Path.slashed names) :
    namePatterns (patternBelow dir) = .ok (names.map literal ++ [anyDepth, schemaNames]) := by
  obtain ⟨pattern, hwhole⟩ := ofChars_patternBelow hne hplain
  have hbody : (if dir.isAbsolute then (dir.front ++ belowText).tail else dir.front ++ belowText)
      = Path.slashed names ++ belowText := by
    rw [hfront]
    cases dir.isAbsolute <;> rfl
  have hcut : (Path.slashed names ++ belowText).splitOn '/'
      = names.map String.toList ++ [['*', '*'], ['*', '.', 'd', 's', 'l']] :=
    splitOn_closed_append (by simpa using hnames) belowText
  have hpieces : ∀ n ∈ names, PlainText n.toList := by
    intro n hn c hc
    refine plainText_front hplain c ?_
    rw [hfront]
    exact List.mem_append_right _ (Path.mem_slashed hn hc)
  unfold namePatterns
  rw [toList_patternBelow, isAbsolute_patternBelow]
  refine Disk.bind_eq_ok_iff.mpr ⟨pattern, hwhole, ?_⟩
  rw [hbody, hcut, List.mapM_append, mapM_ofChars hpieces]
  simp only [List.mapM_cons, ofChars_anyDepth, ofChars_schemaNames]
  rfl

end Below

end Discovery

end EntitySchema
