import EntitySchema.Entity

/-!
# Printing a schema

The canonical text of entities: one line for the header, one indented line per field, and a
closing brace, with an empty line between entities.
-/

namespace EntitySchema

/-- The line of a field, with its line feed. -/
def Field.print (f : Field) : String :=
  "    " ++ f.name ++ ": " ++ f.typeName
    ++ String.join (f.annotations.map fun a => " " ++ a.text) ++ "\n"

/-- The text of an entity. -/
def Entity.print (e : Entity) : String :=
  "entity " ++ e.name ++ " \x7b\n" ++ String.join (e.fields.map Field.print) ++ "\x7d\n"

/-- The text of a whole schema. -/
def printAll (es : List Entity) : String := "\n".intercalate (es.map Entity.print)

end EntitySchema
