import EntitySchema.Text.Upper

/-!
# Entities

What a schema is about: entities with a name and fields, fields with a name, a type and
annotations. `Entity.check` says whether one entity can be generated, and `checkSchema` whether
several can be generated side by side.
-/

namespace EntitySchema

/-! ## Types of fields -/

/-- The types that the schema language knows, and any other word. -/
inductive FieldType
  | long
  | string
  | integer
  | dateTime
  | boolean
  | other (token : String)
  deriving DecidableEq, Repr

namespace FieldType

/-- The type that a word names. The known words are taken in any mix of ASCII cases. -/
def ofToken (token : String) : FieldType :=
  match String.ofList (token.toList.map Char.toLower) with
  | "long" => long
  | "string" => string
  | "integer" => integer
  | "datetime" => dateTime
  | "boolean" => boolean
  | _ => other token

end FieldType

/-! ## Names -/

namespace Name

/-- Whether the text can stand as the name of one file: it is not empty, holds no slash of either
kind, and is neither of the two directory links. -/
def isPlainFileName (name : String) : Bool :=
  !name.isEmpty && name.toList.all (fun c => c != '/' && c != '\\') && name != "." && name != ".."

/-- The name as accessors carry it, with its first character in upper case; an empty name has no
such form. -/
def capitalized? (name : String) : Option String :=
  if name.isEmpty then none else some (String.ofList (Text.capitalize name.toList))

/-- The names in the order of their characters. -/
def sorted (names : List String) : List String := names.mergeSort (· ≤ ·)

/-- The names in the order of their characters, each once. -/
def sortedDistinct (names : List String) : List String := (sorted names).eraseDups

end Name

/-! ## Annotations, fields, entities -/

/-- An annotation as it is written, normally with its `@`. -/
structure Annotation where
  text : String
  deriving DecidableEq, Repr

namespace Annotation

/-- The text without the `@` in front of it, if there is one. -/
def dropSign (text : String) : String :=
  match text.toList with
  | '@' :: cs => String.ofList cs
  | _ => text

/-- The annotation with this name. -/
def ofName (name : String) : Annotation := ⟨"@" ++ name⟩

/-- The name of the annotation. -/
def name (a : Annotation) : String := dropSign a.text

/-- Whether the annotation is a bare `@`. -/
def isEmpty (a : Annotation) : Bool := a.name.isEmpty

/-- Every name is the name of its annotation. -/
@[simp] theorem name_ofName (n : String) : (ofName n).name = n := by
  simp [ofName, name, dropSign]

theorem ofName_ofList (cs : List Char) :
    ofName (String.ofList cs) = ⟨String.ofList ('@' :: cs)⟩ := by
  have h : "@" ++ String.ofList cs = String.ofList ('@' :: cs) := String.toList_inj.mp (by simp)
  unfold ofName
  rw [h]

@[simp] theorem toList_text_ofName (n : String) : (ofName n).text.toList = '@' :: n.toList := by
  simp [ofName]

end Annotation

/-- A field of an entity. -/
structure Field where
  name : String
  typeName : String
  annotations : List Annotation := []
  deriving DecidableEq, Repr

namespace Field

/-- The type that the field's type word names. -/
def type (f : Field) : FieldType := .ofToken f.typeName

/-- Whether the field has the annotation with this name, which may be given with its `@`. -/
def hasAnnotation (f : Field) (name : String) : Bool :=
  f.annotations.any fun a => a.name == Annotation.dropSign name

end Field

/-- An entity: its name and its fields in order. -/
structure Entity where
  name : String
  fields : List Field := []
  deriving DecidableEq, Repr

namespace Entity

/-- The entity with one more field at the end. -/
def addField (e : Entity) (f : Field) : Entity := { e with fields := e.fields ++ [f] }

/-- The first field with this name. -/
def field? (e : Entity) (name : String) : Option Field := e.fields.find? (·.name == name)

/-- The names of the fields in order. -/
def fieldNames (e : Entity) : List String := e.fields.map Field.name

end Entity

/-! ## Checks -/

/-- Why entities cannot be generated. -/
inductive SchemaFault
  | emptyEntityName
  | invalidEntityName (name : String)
  | emptyFieldName (entity : String)
  | duplicateEntityName (name : String)
  | duplicateFieldName (entity field : String)
  deriving DecidableEq, Repr

namespace SchemaFault

/-- The fault in one line. -/
def message : SchemaFault → String
  | emptyEntityName => "entity name must not be empty"
  | invalidEntityName name => s!"entity name '{name}' is not a plain file name"
  | emptyFieldName entity => s!"field name must not be empty in entity '{entity}'"
  | duplicateEntityName name => s!"duplicate entity name '{name}'"
  | duplicateFieldName entity field => s!"duplicate field name '{field}' in entity '{entity}'"

end SchemaFault

namespace Entity

/-- The first fault of the name of the entity, if it has one. -/
def nameFault? (e : Entity) : Option SchemaFault :=
  if e.name.isEmpty then some .emptyEntityName
  else if Name.isPlainFileName e.name then none
  else some (.invalidEntityName e.name)

/-- The first fault of fields that follow fields with the names `seen`. -/
def fieldsFault? (entity : String) (seen : List String) : List Field → Option SchemaFault
  | [] => none
  | f :: fs =>
    if f.name.isEmpty then some (.emptyFieldName entity)
    else if seen.contains f.name then some (.duplicateFieldName entity f.name)
    else fieldsFault? entity (f.name :: seen) fs

/-- The first fault of the entity, if it has one: its name first, then its fields in order. -/
def fault? (e : Entity) : Option SchemaFault :=
  e.nameFault? <|> fieldsFault? e.name [] e.fields

/-- Whether the entity can be generated, with the first reason why not. -/
def check (e : Entity) : Except SchemaFault Unit :=
  match e.fault? with
  | some fault => .error fault
  | none => .ok ()

/-- The first fault of entities that follow entities with the names `seen`. An entity's own faults
come before the repetition of its name. -/
def schemaFault? (seen : List String) : List Entity → Option SchemaFault
  | [] => none
  | e :: es =>
    match e.fault? with
    | some fault => some fault
    | none =>
      if seen.contains e.name then some (.duplicateEntityName e.name)
      else schemaFault? (e.name :: seen) es

end Entity

/-- Whether the entities can be generated side by side, with the first reason why not. -/
def checkSchema (es : List Entity) : Except SchemaFault Unit :=
  match Entity.schemaFault? [] es with
  | some fault => .error fault
  | none => .ok ()

end EntitySchema
