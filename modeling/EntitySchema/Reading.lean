import EntitySchema.Entity
import EntitySchema.Finding
import EntitySchema.Line

/-!
# Reading a schema

A schema is read in one pass over its lines. The state of the pass is a `Parser`: all entities so
far, at which of them the pass is, what is known of that one, and the findings. `Parser.feed` takes
one line; `read`, `parse`, `lint` and `parseStrict` run over a whole text.
-/

namespace EntitySchema

/-- The field that a field line declares. -/
def FieldLine.toField (f : FieldLine) : Field where
  name := String.ofList f.name
  typeName := String.ofList f.typeName
  annotations := f.annotations.map fun a => .ofName (String.ofList a)

/-! ## The state of the pass -/

/-- How far the reading of a schema has come. The entity that receives fields receives them up to
the next header: its closing brace is noted and does not end it. -/
structure Parser where
  entities : List Entity
  /-- The position of the entity that receives fields. -/
  current : Option Nat
  /-- Whether that entity has seen its closing brace. -/
  closed : Bool
  /-- The names of all entities. -/
  entityNames : List String
  /-- The names that the fields of that entity have used. -/
  fieldNames : List String
  findings : List Finding
  deriving DecidableEq, Repr

namespace Parser

/-- Nothing has been read. -/
def new : Parser := ⟨[], none, false, [], [], []⟩

/-- The name of the entity at a position. -/
def nameAt (p : Parser) (i : Nat) : String := (p.entities[i]?).elim "" Entity.name

/-- The state with one more finding, about the line at `span`. -/
def report (p : Parser) (span : Span) (issue : Issue) : Parser :=
  { p with findings := p.findings ++ [⟨issue, span⟩] }

/-- The state with one more finding, if there is a reason for it. -/
def reportIf (p : Parser) (reason : Bool) (span : Span) (issue : Issue) : Parser :=
  if reason then p.report span issue else p

/-- The state with the name of one more entity; a name that is taken is a finding. -/
def takeEntityName (p : Parser) (name : String) (span : Span) : Parser :=
  if p.entityNames.contains name then p.report span (.duplicateEntityName name)
  else { p with entityNames := name :: p.entityNames }

/-- The state after the header of an entity. -/
def startEntity (p : Parser) (name : String) (hasBrace : Bool) (span : Span) : Parser :=
  let p := p.reportIf name.isEmpty span .emptyEntityName
  let p := p.reportIf (!hasBrace) span (.missingOpenBrace name)
  let p := p.takeEntityName name span
  { p with
    entities := p.entities ++ [⟨name, []⟩]
    current := some p.entities.length
    closed := false
    fieldNames := [] }

/-- The state with the name of one more field of the entity; no name and a name that is taken are
findings. -/
def takeFieldName (p : Parser) (entity name : String) (span : Span) : Parser :=
  if name.isEmpty then p.report span (.emptyFieldName entity)
  else if p.fieldNames.contains name then p.report span (.duplicateFieldName entity name)
  else { p with fieldNames := name :: p.fieldNames }

/-- The state after a field, which stands on the line with this text. -/
def addField (p : Parser) (field : Field) (text : String) (span : Span) : Parser :=
  match p.current with
  | none => p.report span (.fieldOutsideEntity text)
  | some i =>
    let entity := p.nameAt i
    let p := p.reportIf p.closed span (.fieldAfterClose entity field.name)
    let p := p.takeFieldName entity field.name span
    let p := p.reportIf field.typeName.isEmpty span (.emptyFieldType entity field.name)
    let p := p.reportIf (field.annotations.any Annotation.isEmpty) span
      (.bareAnnotationSign field.name)
    { p with entities := p.entities.modify i (·.addField field) }

/-- The state after one line of the schema. -/
def feed (p : Parser) (line : SourceLine) : Parser :=
  let text := String.ofList line.text
  match Line.classify line.text with
  | .blank => p
  | .comment => p
  | .header name hasBrace => p.startEntity (String.ofList name) hasBrace line.span
  | .close =>
    if p.current.isSome then { p with closed := true }
    else p.report line.span (.unrecognizedLine text)
  | .field f => p.addField f.toField text line.span
  | .other =>
    match p.current with
    | some i => p.report line.span (.missingSeparator (p.nameAt i) text)
    | none => p.report line.span (.unrecognizedLine text)

/-- The state after several lines. -/
def feedAll (p : Parser) (ls : List SourceLine) : Parser := ls.foldl feed p

theorem feedAll_append (p : Parser) (as bs : List SourceLine) :
    p.feedAll (as ++ bs) = (p.feedAll as).feedAll bs := by
  simp [feedAll]

end Parser

/-! ## Whole texts -/

/-- The entities of a schema text, and what the reader tolerated. -/
structure Schema where
  entities : List Entity
  findings : List Finding
  deriving DecidableEq, Repr

/-- What has been read, taken as a whole. -/
def Parser.finish (p : Parser) : Schema := ⟨p.entities, p.findings⟩

/-- The entities of a schema text together with the findings. -/
def read (source : String) : Schema := (Parser.new.feedAll (lines source.toList)).finish

/-- The entities of a schema text. Reading never fails. -/
def parse (source : String) : List Entity := (read source).entities

/-- Every liberty that reading takes with the text, in the order of the lines. -/
def lint (source : String) : List Finding := (read source).findings

/-- The entities of a schema text that needs no liberties, or the findings. -/
def parseStrict (source : String) : Except (List Finding) (List Entity) :=
  let schema := read source
  if schema.findings.isEmpty then .ok schema.entities else .error schema.findings

end EntitySchema
