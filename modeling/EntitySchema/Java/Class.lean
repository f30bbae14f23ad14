import EntitySchema.Entity
import EntitySchema.Java.Options
import EntitySchema.Memory

/-!
# Java classes

The Java class of an entity: its private members, a constructor without arguments, and a getter
and a setter for each member. `render` writes the class, or says why the entity has none; `renderIn`
does so in a memory that may not have the room for it.
-/

namespace EntitySchema.Java

/-! ## Types -/

/-- The Java type for a field type; unknown types become `Object`. -/
def typeName : FieldType → String
  | .long => "Long"
  | .string => "String"
  | .integer => "Integer"
  | .dateTime => "LocalDateTime"
  | .boolean => "Boolean"
  | .other _ => "Object"

/-- The class that the Java type of a field type has to import, if any. -/
def importOf : FieldType → Option String
  | .dateTime => some "java.time.LocalDateTime"
  | _ => none

/-! ## Members -/

/-- A member of a class: its name, its name in accessors, and its Java type. -/
structure Member where
  name : String
  accessor : String
  type : String
  deriving DecidableEq, Repr

/-- The member for a field; a field without a name has none. -/
def Member.ofField? (f : Field) : Option Member :=
  (Name.capitalized? f.name).map fun accessor => ⟨f.name, accessor, typeName f.type⟩

namespace Member

/-- The declaration of the member. -/
def declaration (indent : String) (m : Member) : String :=
  indent ++ "private " ++ m.type ++ " " ++ m.name ++ ";\n"

/-- The getter and the setter of the member, each after an empty line. -/
def accessors (indent : String) (m : Member) : String :=
  "\n"
    ++ indent ++ "public " ++ m.type ++ " get" ++ m.accessor ++ "() \x7b\n"
    ++ indent ++ indent ++ "return " ++ m.name ++ ";\n"
    ++ indent ++ "\x7d\n"
    ++ "\n"
    ++ indent ++ "public void set" ++ m.accessor ++ "(" ++ m.type ++ " " ++ m.name ++ ") \x7b\n"
    ++ indent ++ indent ++ "this." ++ m.name ++ " = " ++ m.name ++ ";\n"
    ++ indent ++ "\x7d\n"

end Member

/-! ## Classes -/

/-- The package line and the empty line after it; nothing for an empty package. -/
def packagePart (package : String) : String :=
  if package.isEmpty then "" else "package " ++ package ++ ";\n\n"

/-- The classes that the types of the fields import, each once and in order. -/
def imports (fields : List Field) : List String :=
  ((fields.filterMap fun f => importOf f.type).mergeSort (· ≤ ·)).eraseDups

/-- The import lines and the empty line after them; nothing when there are none. -/
def importPart (fields : List Field) : String :=
  match imports fields with
  | [] => ""
  | names => String.join (names.map fun name => "import " ++ name ++ ";\n") ++ "\n"

/-- The text of a class with this name and these members, without what stands before it. -/
def classPart (indent : String) (name : String) (members : List Member) : String :=
  "/**\n * " ++ name ++ " entity.\n */\n"
    ++ "public class " ++ name ++ " \x7b\n"
    ++ String.join (members.map (·.declaration indent))
    ++ (if members.isEmpty then "" else "\n")
    ++ indent ++ "public " ++ name ++ "() \x7b\x7d\n"
    ++ String.join (members.map (·.accessors indent))
    ++ "\x7d\n"

/-- The members of the class of an entity, or the first reason why it has no class: its name must be
a plain file name, and each of its fields must have a name. -/
def membersOf (e : Entity) : Except SchemaFault (List Member) :=
  match e.nameFault? with
  | some fault => .error fault
  | none =>
    match e.fields.mapM Member.ofField? with
    | none => .error (.emptyFieldName e.name)
    | some members => .ok members

/-- The text of the file for an entity whose class has these members. -/
def fileText (o : Options) (e : Entity) (members : List Member) : String :=
  let indent := String.ofList (List.replicate o.indent.toNat ' ')
  packagePart o.package ++ importPart e.fields ++ classPart indent e.name members

/-- The text of the file for an entity, or the reason why there is none. -/
def render (o : Options) (e : Entity) : Except SchemaFault String :=
  (membersOf e).map (fileText o e)

/-! ## Classes in memory -/

section Memory

variable {m : Type → Type} [Monad m] [Memory m]

/-- Makes the indentation, and then the text of the file for an entity whose class has these
members. -/
def textIn (o : Options) (e : Entity) (members : List Member) : m String := do
  Memory.allot o.indent.toNat
  let code := fileText o e members
  Memory.allot code.utf8ByteSize
  return code

/-- The text of the file for an entity, or the reason why there is none, in this memory. -/
def renderIn (o : Options) (e : Entity) : m (Except SchemaFault String) := do
  match membersOf e with
  | .error fault => return .error fault
  | .ok members => return .ok (← textIn o e members)

end Memory

/-- What it comes to on a machine to render an entity; nothing if the run ends for want of room. -/
def render? (o : Options) (e : Entity) : Option (Except SchemaFault String) := renderIn o e

end EntitySchema.Java
