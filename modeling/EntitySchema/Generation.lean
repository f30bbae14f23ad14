import EntitySchema.Console
import EntitySchema.SchemaFile
import EntitySchema.Settings

/-!
# Generating from schema files

A generation run takes the entities of all schema files together. It stops at the first entity
that fails, or keeps going and fails at the end; either way it reports what it wrote.
-/

namespace EntitySchema

namespace Generation

/-- One outcome as a result in JSON. -/
def outcomeJson (o : Outcome) : Json :=
  match o.result with
  | .ok path => .obj [("entity", .str o.entity), ("path", .str path.text)]
  | .error fault => .obj [("entity", .str o.entity), ("error", .str fault.message)]

/-- One outcome as a line of fields. -/
def outcomeFields (o : Outcome) : String :=
  match o.result with
  | .ok path => Console.fields [o.entity, "ok", path.text]
  | .error fault => Console.fields [o.entity, "error", fault.message]

/-- The report on a run. -/
def report (c : Console) (g : Generator) (r : Report) : Output :=
  let written := r.written.length
  let failed := r.failures.length
  match c.format with
  | .human =>
    let text := toString written ++ " classes written to " ++ g.outputDir.text
    Output.concat (r.failures.map fun (entity, fault) =>
        c.warning (entity ++ ": " ++ fault.message))
      ++ if failed > 0 then c.warning text else c.success text
  | .json =>
    Console.json (.obj [("failed", .nat failed), ("output_dir", .str g.outputDir.text),
      ("results", .arr (r.outcomes.map outcomeJson)), ("written", .nat written)])
  | .plain => .out (String.join (r.outcomes.map outcomeFields))

/-- Whether the run as a whole succeeds. -/
def verdict (r : Report) : Except Failure Unit :=
  if r.isSuccess then .ok ()
  else .error (.partialGeneration r.failures.length r.outcomes.length)

variable {m : Type → Type} [Monad m] [FileStore m]

/-- Generates entities, and goes on after a failure or not. -/
def generate (g : Generator) (keepGoing : Bool) (es : List Entity) :
    m (Except GenerationFault Report) := do
  if keepGoing then return .ok (← g.generateEach es) else g.generateReport es

/-- Generates the entities of schema files, unless a strict run does not take the files. -/
def run (c : Console) (g : Generator) (strict keepGoing : Bool) (files : List SchemaFile) :
    m (Output × Except Failure Unit) := do
  let findings := Output.concat (files.map fun f => c.findings strict f.path f.findings)
  match if strict then enforceStrict files else .ok () with
  | .error failure => return (findings, .error failure)
  | .ok () =>
    match ← generate g keepGoing (allEntities files) with
    | .error fault => return (findings, .error (.generation fault))
    | .ok r => return (findings ++ report c g r, verdict r)

end Generation

end EntitySchema
