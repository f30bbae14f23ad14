import EntitySchema.Checking
import EntitySchema.CommandLine.Reading
import EntitySchema.Generation
import EntitySchema.Project

/-!
# Runs of the program

A run carries out one command line: it reads the line, then the settings, then the schema files
that the command needs, and ends with an exit code. `Invocation.run` carries out a command line
that has been read, and `run` one as it is given. What a run writes is without its log, which goes
to the error stream.
-/

namespace EntitySchema

namespace Invocation

/-- How the command speaks. -/
def console (i : Invocation) : Console := ⟨i.format, i.quiet⟩

variable {m : Type → Type} [Monad m] [FileStore m]

/-- The settings of the command, and the schema files that it names. -/
def loadProject (i : Invocation) (env : Environment) (paths : List Path) :
    m (Except Failure (Settings × List SchemaFile)) := do
  match ← Settings.load env i.settingsFile with
  | .error failure => return .error failure
  | .ok settings =>
    match ← SchemaFile.loadFrom (settings.schemaPaths paths) with
    | .error failure => return .error failure
    | .ok files => return .ok (settings, files)

/-- What the command writes and whether it succeeds, before it tells why it fails. -/
def perform (i : Invocation) (env : Environment) : m (Output × Except Failure Unit) := do
  match i.command with
  | .init name force => Project.init i.console name force
  | .parse schemas print =>
    match ← i.loadProject env schemas.paths with
    | .error failure => return (.none, .error failure)
    | .ok (_, files) => return Checking.run i.console schemas.strict print files
  | .generate schemas output package keepGoing =>
    match ← i.loadProject env schemas.paths with
    | .error failure => return (.none, .error failure)
    | .ok (settings, files) =>
      Generation.run i.console (settings.generator output package) schemas.strict keepGoing files
  | .completions _ => return (.none, .ok ())

end Invocation

/-- How a run ends. -/
inductive Ending
  /-- The command did what it was to do. -/
  | success
  /-- The command failed. -/
  | failure (f : Failure)
  /-- There was no command to carry out. -/
  | usage (u : CommandLine.Usage)
  deriving DecidableEq, Repr

/-- The exit code of a run that ends like this. -/
def Ending.exitCode : Ending → Nat
  | success => 0
  | failure f => f.exitCode
  | usage u => u.exitCode

variable {m : Type → Type} [Monad m] [FileStore m]

/-- Carries out a command line that has been read. Why a command fails is the last that it
tells. -/
def Invocation.run (i : Invocation) (env : Environment) : m (Output × Ending) := do
  let (output, verdict) ← i.perform env
  match verdict with
  | .ok () => return (output, .success)
  | .error f => return (output ++ i.console.failure f, .failure f)

/-- Carries out a command line. -/
def run (env : Environment) (words : List String) : m (Output × Ending) := do
  match CommandLine.read env words with
  | .error u => return (.none, .usage u)
  | .ok i => i.run env

end EntitySchema
