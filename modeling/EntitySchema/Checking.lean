import EntitySchema.Console
import EntitySchema.Printing
import EntitySchema.SchemaFile

/-!
# Checking schema files

The report on schema files: for each file how many entities it has and what is to say about it,
and then the totals.
-/

namespace EntitySchema

namespace Checking

/-- A number of entities in words. -/
def countText (n : Nat) : String := toString n ++ (if n = 1 then " entity" else " entities")

/-- One file as a result in JSON. -/
def fileJson (f : SchemaFile) : Json :=
  .obj [("entities", .arr (f.entities.map fun e => .str e.name)), ("file", .str f.path.text),
    ("findings", f.findingsJson)]

/-- The report on one file, perhaps with its entities printed. -/
def reportFile (c : Console) (strict print : Bool) (f : SchemaFile) : Output :=
  let count := f.entities.length
  c.findings strict f.path f.findings
    ++ (if print then .out (printAll f.entities) else .none)
    ++ match c.format with
      | .human => c.say ("  " ++ f.path.text ++ " .... " ++ countText count)
      | .json => .none
      | .plain =>
        .out (Console.fields [f.path.text, toString count, toString f.findings.length])

/-- The totals over all files. -/
def summary (c : Console) (strict : Bool) (files : List SchemaFile) : Output :=
  let entities := (allEntities files).length
  let findings := countFindings files
  let count := files.length
  match c.format with
  | .human =>
    let text := s!"{entities} entities parsed from {count} files, {findings} findings"
    if findings > 0 then c.warning text else c.success text
  | .json =>
    Console.json (.obj [("entities", .nat entities), ("files", .nat count),
      ("findings", .nat findings), ("results", .arr (files.map fileJson)),
      ("strict", .bool strict)])
  | .plain => .none

/-- The report on schema files. -/
def report (c : Console) (strict print : Bool) (files : List SchemaFile) : Output :=
  Output.concat (files.map (reportFile c strict print)) ++ summary c strict files

/-- Reports on schema files, and then fails in a strict run if it does not take them. -/
def run (c : Console) (strict print : Bool) (files : List SchemaFile) :
    Output × Except Failure Unit :=
  (report c strict print files, if strict then enforceStrict files else .ok ())

end Checking

end EntitySchema
