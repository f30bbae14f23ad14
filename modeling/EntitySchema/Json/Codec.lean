import EntitySchema.Entity
import EntitySchema.Java.Options
import EntitySchema.Json.Basic

/-!
# Entities as JSON

The JSON forms of field types, fields, entities and options, and how they are read back. A member
that has a default may be missing, members with other keys do not count, and every record may also
be given as an array of its members.
-/

namespace EntitySchema

namespace FieldType

/-- The field type as a record of its kind and, for an unknown word, the word. -/
def toJson : FieldType → Json
  | long => .obj [("type", .str "Long")]
  | string => .obj [("type", .str "String")]
  | integer => .obj [("type", .str "Integer")]
  | dateTime => .obj [("type", .str "DateTime")]
  | boolean => .obj [("type", .str "Boolean")]
  | other token => .obj [("type", .str "Other"), ("token", .str token)]

/-- The kind that a value names: a string, or an object with that one key and nothing in it. -/
def kindOfJson? : Json → Option String
  | .str kind => some kind
  | .obj [(kind, .null)] => some kind
  | _ => none

/-- The field type of a kind without a word of its own. -/
def ofKind? : String → Option FieldType
  | "Long" => some long
  | "String" => some string
  | "Integer" => some integer
  | "DateTime" => some dateTime
  | "Boolean" => some boolean
  | _ => none

/-- The field type of a kind and what is given as its word. -/
def ofKindAndToken? (kind : String) (token : Option Json) : Option FieldType :=
  match kind, token with
  | "Other", some (.str token) => some (other token)
  | kind, none => ofKind? kind
  | kind, some .null => ofKind? kind
  | _, _ => none

/-- The field type that a value denotes. As an array it takes both of its members. -/
def ofJson? (j : Json) : Option FieldType :=
  match j with
  | .arr [kind, token] => do ofKindAndToken? (← kindOfJson? kind) (some token)
  | .obj _ => do
    let get ← j.record? ["type", "token"]
    ofKindAndToken? (← kindOfJson? (← get "type")) (get "token")
  | _ => none

end FieldType

namespace Annotation

/-- The annotation as the string that it is written as. -/
def toJson (a : Annotation) : Json := .str a.text

/-- The annotation that a value denotes. -/
def ofJson? (j : Json) : Option Annotation := j.string?.map Annotation.mk

end Annotation

namespace Field

/-- The field as an object; annotations are left out when there are none. -/
def toJson (f : Field) : Json :=
  .obj ([("name", .str f.name), ("type", .str f.typeName)]
    ++ (if f.annotations.isEmpty then []
        else [("annotations", .arr (f.annotations.map Annotation.toJson))]))

/-- The field that a value denotes. -/
def ofJson? (j : Json) : Option Field := do
  let get ← j.record? ["name", "type", "annotations"]
  let name ← (← get "name").string?
  let typeName ← (← get "type").string?
  let annotations ←
    match get "annotations" with
    | some annotations => annotations.list? Annotation.ofJson?
    | none => some []
  some ⟨name, typeName, annotations⟩

end Field

namespace Entity

/-- The entity as an object. -/
def toJson (e : Entity) : Json :=
  .obj [("name", .str e.name), ("fields", .arr (e.fields.map Field.toJson))]

/-- The entity that a value denotes. -/
def ofJson? (j : Json) : Option Entity := do
  let get ← j.record? ["name", "fields"]
  let name ← (← get "name").string?
  let fields ←
    match get "fields" with
    | some fields => fields.list? Field.ofJson?
    | none => some []
  some ⟨name, fields⟩

end Entity

namespace Java.Options

/-- The options as an object. -/
def toJson (o : Options) : Json :=
  .obj [("package", .str o.package), ("extension", .str o.extension),
    ("indent", .nat o.indent.toNat)]

/-- The options that a value denotes; what it leaves out has its default. -/
def ofJson? (j : Json) : Option Options := do
  let get ← j.record? ["package", "extension", "indent"]
  let defaults : Options := {}
  let text (key default : String) : Option String :=
    match get key with
    | some value => value.string?
    | none => some default
  let package ← text "package" defaults.package
  let extension ← text "extension" defaults.extension
  let indent ←
    match get "indent" with
    | some value => value.word?
    | none => some defaults.indent
  some ⟨package, extension, indent⟩

end Java.Options

end EntitySchema
