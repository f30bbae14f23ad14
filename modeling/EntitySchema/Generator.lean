import EntitySchema.Java.Class
import EntitySchema.Stream

/-!
# Generating files

A generator writes one file per entity into its output directory. `generate` stops at the first
entity that fails, `generateEach` goes on and reports every outcome. An entity is rendered before
its file is touched, so a failure to render changes nothing on disk. A failure to write may leave a
file behind that holds a part of its class or nothing.
-/

namespace EntitySchema

/-- Why generation fails. -/
inductive GenerationFault
  /-- An entity has no class. -/
  | schema (entity : String) (fault : SchemaFault)
  /-- The output directory can not be made. -/
  | createDir (path : Path) (fault : FileFault)
  /-- The file of an entity can not be written. -/
  | write (path : Path) (fault : FileFault)
  /-- The schema can not be read. -/
  | read (fault : ReadFault)
  deriving DecidableEq, Repr

namespace GenerationFault

/-- The fault in one line. -/
def message : GenerationFault → String
  | schema entity fault => "cannot generate entity '" ++ entity ++ "': " ++ fault.message
  | createDir path fault =>
    "failed to create output directory " ++ path.text ++ ": " ++ fault.message
  | write path fault => "failed to write " ++ path.text ++ ": " ++ fault.message
  | read fault => fault.message

/-- The path that the fault is about, if it is about one. -/
def path? : GenerationFault → Option Path
  | schema _ _ => none
  | createDir path _ => some path
  | write path _ => some path
  | read fault => fault.path

end GenerationFault

/-- Where generated files go, and how they are written. -/
structure Generator where
  outputDir : Path
  options : Java.Options := {}
  deriving DecidableEq, Repr

/-- What became of one entity: the path of its file, or why there is none. -/
structure Outcome where
  entity : String
  result : Except GenerationFault Path

namespace Outcome

/-- The path of the file that was written, if it was. -/
def written? (o : Outcome) : Option Path :=
  match o.result with
  | .ok path => some path
  | .error _ => none

/-- The fault of the entity, if it failed. -/
def fault? (o : Outcome) : Option GenerationFault :=
  match o.result with
  | .ok _ => none
  | .error fault => some fault

end Outcome

/-- What became of each of several entities, in order. -/
structure Report where
  outcomes : List Outcome

namespace Report

/-- The paths of the files that were written. -/
def written (r : Report) : List Path := r.outcomes.filterMap Outcome.written?

/-- The entities that failed, each with its fault. -/
def failures (r : Report) : List (String × GenerationFault) :=
  r.outcomes.filterMap fun o => o.fault?.map fun fault => (o.entity, fault)

/-- Whether no entity failed. -/
def isSuccess (r : Report) : Bool := r.outcomes.all fun o => o.fault?.isNone

end Report

namespace Generator

/-- The path of the file for an entity. -/
def outputPath (g : Generator) (e : Entity) : Path :=
  g.outputDir.join (g.options.fileName e.name)

variable {m : Type → Type} [Monad m] [FileStore m]

/-- Makes the output directory and every missing one above it. -/
def createOutputDir (g : Generator) : m (Except GenerationFault Unit) := do
  match ← FileStore.makeDirs g.outputDir with
  | .ok () => return .ok ()
  | .error fault => return .error (.createDir g.outputDir fault)

/-- Writes the file for one entity, in place of any file that is there. -/
def writeEntity (g : Generator) (e : Entity) : m (Except GenerationFault Path) := do
  match Java.membersOf e with
  | .error fault => return .error (.schema e.name fault)
  | .ok members =>
    let code ← Java.textIn g.options e members
    let path := g.outputPath e
    match ← FileStore.saveText path code with
    | .ok () => return .ok path
    | .error fault => return .error (.write path fault)

/-- Writes the files for the entities in order, up to the first failure. -/
def writeAll (g : Generator) : List Entity → m (Except GenerationFault (List Path))
  | [] => return .ok []
  | e :: es => do
    match ← g.writeEntity e with
    | .error fault => return .error fault
    | .ok path =>
      match ← g.writeAll es with
      | .error fault => return .error fault
      | .ok paths => return .ok (path :: paths)

/-- Makes the output directory and writes the files for the entities, up to the first failure.
Files written before it stay. -/
def generate (g : Generator) (es : List Entity) : m (Except GenerationFault (List Path)) := do
  match ← g.createOutputDir with
  | .error fault => return .error fault
  | .ok () => g.writeAll es

/-- What becomes of an entity once it is known whether there is an output directory. -/
def outcome (g : Generator) (dir : Except FileFault Unit) (e : Entity) : m Outcome := do
  match dir with
  | .ok () => return ⟨e.name, ← g.writeEntity e⟩
  | .error fault => return ⟨e.name, .error (.createDir g.outputDir fault)⟩

/-- What becomes of the entities in order, each of them tried. -/
def outcomes (g : Generator) (dir : Except FileFault Unit) : List Entity → m (List Outcome)
  | [] => return []
  | e :: es => do
    let first ← g.outcome dir e
    return first :: (← g.outcomes dir es)

/-- Makes the output directory and tries every entity. Without an output directory every entity
fails for that reason. -/
def generateEach (g : Generator) (es : List Entity) : m Report := do
  let dir ← FileStore.makeDirs g.outputDir
  return ⟨← g.outcomes dir es⟩

/-- The outcomes of the entities in order, up to the first that fails, which fails the whole. -/
def writeOutcomes (g : Generator) : List Entity → m (Except GenerationFault (List Outcome))
  | [] => return .ok []
  | e :: es => do
    match ← g.writeEntity e with
    | .error fault => return .error fault
    | .ok path =>
      match ← g.writeOutcomes es with
      | .error fault => return .error fault
      | .ok more => return .ok (⟨e.name, .ok path⟩ :: more)

/-- Makes the output directory and writes the files for the entities, up to the first failure, with
a report of every file. -/
def generateReport (g : Generator) (es : List Entity) : m (Except GenerationFault Report) := do
  match ← g.createOutputDir with
  | .error fault => return .error fault
  | .ok () =>
    match ← g.writeOutcomes es with
    | .error fault => return .error fault
    | .ok outcomes => return .ok ⟨outcomes⟩

/-- Reads a schema file and generates its entities. -/
def generateFromFile (g : Generator) (schema : Path) :
    m (Except GenerationFault (List Path)) := do
  match ← FileStore.parseFile schema with
  | .error fault => return .error (.read fault)
  | .ok es => g.generate es

end Generator

end EntitySchema
