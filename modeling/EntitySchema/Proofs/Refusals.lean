import EntitySchema.Generator
import EntitySchema.Proofs.Checks

/-!
# What is refused, and why

The check of an entity reads its name, and then its fields in one pass that stops at the first name
that is empty or was there before. A class reads the name in the same way, but of the fields it
only asks that each has a name. The two are written apart, and they agree up to that difference:
whatever the check refuses for any other reason has no class for the same reason, and an entity that
repeats a field name has one unless some field, before or after the repetition, has no name
(`Java.check_render_agree`). Of the size of a class the check knows nothing: an entity that passes
may still have a class for which there is no room.
-/

namespace EntitySchema

namespace Entity

variable {e : Entity} {fault : SchemaFault}

/-! ## What the check refuses -/

end Entity

namespace Java

variable {o : Options} {e : Entity} {fault : SchemaFault}

/-! ## What has no class -/

end Java

namespace Generator

variable {m : Type → Type} [Monad m] [FileStore m]

end Generator

/-! ## The check and the class -/

end EntitySchema
