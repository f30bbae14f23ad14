import EntitySchema.FileStore
import EntitySchema.Glob.Pattern

/-!
# Searching by pattern

The names of a path pattern are patterns of their own. A name without wildcards is looked up, any
other is compared with the names in the directory, and `**` goes down to every depth. What a
search finds has an order: a path comes before those below it, and the names of a directory come
in their own order.
-/

namespace EntitySchema.Glob

/-- Why a search fails: its pattern, or a directory that can not be listed. -/
inductive SearchFault
  | pattern (fault : PatternFault)
  | listing (path : Path) (fault : FileFault)
  deriving DecidableEq, Repr

namespace SearchFault

/-- The fault in one line. -/
def message : SearchFault → String
  | pattern fault => fault.message
  | listing path fault =>
    "attempting to read `" ++ path.text ++ "` resulted in an error: " ++ fault.message

end SearchFault

/-- The working directory. -/
def here : Path := ⟨"."⟩

/-- The path of an entry of a directory that a search has come to; the working directory is not
mentioned. -/
def entryPath (dir : Path) (name : String) : Path := if dir = here then ⟨name⟩ else dir.join name

/-- The dot names that a pattern stands for. Only a pattern that starts with a dot can stand for
one. -/
def dotNames (p : Pattern) : List String :=
  if p.head? = some (.char '.') then ["..", "."].filter fun name => p.accepts name.toList else []

variable {m : Type → Type} [Monad m] [FileStore m]

/-- What several searches find together, up to the first that fails. -/
def concat : List (m (Except SearchFault (List Path))) → m (Except SearchFault (List Path))
  | [] => return .ok []
  | search :: searches => do
    match ← search with
    | .error fault => return .error fault
    | .ok paths =>
      match ← concat searches with
      | .error fault => return .error fault
      | .ok more => return .ok (paths ++ more)

/-- Where a search goes from a path that the first of its patterns led to: on from there with the
other patterns, or nowhere if there are none. -/
def goOn (searchIn : List Pattern → Path → m (Except SearchFault (List Path)))
    (patterns : List Pattern) (path : Path) : m (Except SearchFault (List Path)) :=
  if patterns.isEmpty then return .ok [path] else searchIn patterns path

/-- What a search finds at an entry with this name and this path and below it. -/
def searchEntry (searchIn : List Pattern → Path → m (Except SearchFault (List Path)))
    (patterns : List Pattern) (name : String) (path : Path) :
    m (Except SearchFault (List Path)) := do
  let byName : List Pattern → m (Except SearchFault (List Path)) := fun
    | [] => return .ok []
    | p :: rest => if p.accepts name.toList then goOn searchIn rest path else return .ok []
  match patterns with
  | [] => return .ok []
  | p :: rest =>
    if p.isAnyDepth then
      let others := rest.dropWhile Pattern.isAnyDepth
      if ← FileStore.isDir path then
        let itself := if others.isEmpty then return .ok [path] else byName others
        concat [itself, searchIn (p :: others) path]
      else byName others
    else byName (p :: rest)

/-- What a search with these patterns finds in the directory at the path. Every step takes a
pattern or goes down by one directory, and the fuel bounds how many steps there are. -/
def searchIn : Nat → List Pattern → Path → m (Except SearchFault (List Path))
  | 0, _, _ => return .ok []
  | _, [], _ => return .ok []
  | fuel + 1, p :: rest, dir => do
    match p.name? with
    | some name =>
      let path := entryPath dir name
      let found ←
        if name = "." || name = ".." then FileStore.isDir dir else FileStore.exists? path
      if found then goOn (searchIn fuel) rest path else return .ok []
    | none =>
      if ← FileStore.isDir dir then
        match ← FileStore.list dir with
        | .error fault => return .error (.listing dir fault)
        | .ok names =>
          let dots := (dotNames p).map fun name => goOn (searchIn fuel) rest (dir.join name)
          let entries := (names.mergeSort (· ≤ ·)).map fun name =>
            searchEntry (searchIn fuel) (p :: rest) name (entryPath dir name)
          concat (dots ++ entries)
      else return .ok []

/-- The patterns for the names of a path pattern. The pattern has to be one as a whole as well. -/
def namePatterns (pattern : Path) : Except PatternFault (List Pattern) := do
  let text := pattern.text.toList
  let _ ← Pattern.ofChars text
  ((if pattern.isAbsolute then text.tail else text).splitOn '/').mapM Pattern.ofChars

/-- All paths that a path pattern stands for. Each directory that a search goes down makes its path
longer, so no search is deeper than the longest path. -/
def search (pattern : Path) : m (Except SearchFault (List Path)) := do
  match namePatterns pattern with
  | .error fault => return .error (.pattern fault)
  | .ok patterns =>
    let root := if pattern.isAbsolute then ⟨"/"⟩ else here
    searchIn (Path.maxSize + patterns.length) patterns root

end EntitySchema.Glob
