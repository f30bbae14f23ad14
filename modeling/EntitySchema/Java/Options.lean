/-!
# Options of the generated classes

What the author can choose about the generated files: the package, the extension of the file
names, and how far one level of a class body is indented.
-/

namespace EntitySchema.Java

/-- The options of a generation run. -/
structure Options where
  /-- The package of the classes; an empty one is left out. -/
  package : String := "com.example.generated"
  /-- The extension of the files, without a dot; an empty one is left out. -/
  extension : String := "java"
  /-- How many blanks indent one level. -/
  indent : UInt64 := 4
  deriving DecidableEq, Repr

namespace Options

/-- The name of the file for an entity. -/
def fileName (o : Options) (entity : String) : String :=
  if o.extension.isEmpty then entity else entity ++ "." ++ o.extension

end Options

end EntitySchema.Java
