import EntitySchema.Run

/-!
# The program

The command line program: `run` on the real file system, with the real environment.
-/

namespace EntitySchema

/-- The fault that the operating system reports. -/
def FileFault.ofError : IO.Error → FileFault
  | .noFileOrDirectory _ _ _ => .notFound
  | .alreadyExists _ _ _ => .alreadyExists
  | .inappropriateType _ 20 _ => .notDirectory
  | .inappropriateType _ 21 _ => .isDirectory
  | .invalidArgument _ 36 _ => .nameTooLong
  | e => .other (toString e)

/-- The result of an action on the file system, or the fault that it ends with. -/
def attempt {α : Type} (action : IO α) : IO (Except FileFault α) := do
  match ← action.toBaseIO with
  | .ok a => return .ok a
  | .error e => return .error (.ofError e)

/-- The real file system. -/
instance : FileStore IO where
  kind? p := do
    match ← attempt (System.mkFilePath [p.text]).metadata with
    | .ok info =>
      match info.type with
      | .dir => return some .directory
      | .file => return some .file
      | _ => return none
    | .error _ => return none
  read p := attempt (IO.FS.readBinFile p.text)
  list p := attempt do
    return (← (System.mkFilePath [p.text]).readDir).toList.map fun entry => entry.fileName
  makeDir p := attempt (IO.FS.createDir p.text)
  create p := attempt (IO.FS.writeBinFile p.text ByteArray.empty)
  append p content := attempt do
    let file ← IO.FS.Handle.mk p.text .append
    file.write content
    file.flush
  flush _ := return .ok ()
  allot size := do if Text.maxSize < size then throw (IO.userError "no room for a text")

/-- The real environment. -/
def Environment.real : IO Environment := do
  return {
    settingsFile := (← IO.getEnv "ENTITY_FORGE_CONFIG").map .text
    configHome := ← IO.getEnv "XDG_CONFIG_HOME"
    home := ← IO.getEnv "HOME"
    noColor := ← IO.getEnv "NO_COLOR"
  }

/-- How the program is called. -/
def usageText : String :=
  "usage: entity-forge [-c FILE] [--format human|json|plain] [-q] COMMAND\n"
    ++ "  init NAME [-f]\n"
    ++ "  parse [PATH...] [--print] [--strict]\n"
    ++ "  generate [PATH...] [-o DIR] [--package NAME] [--strict] [-k]\n"
    ++ "  completions SHELL\n"

end EntitySchema

/-- Carries out the command line and ends with its exit code. -/
def main (words : List String) : IO UInt32 := do
  let (output, ending) ← EntitySchema.run (← EntitySchema.Environment.real) words
  IO.print output.stdout
  IO.eprint output.stderr
  match ending with
  | .usage u =>
    if u.exitCode = 0 then IO.print EntitySchema.usageText else IO.eprint EntitySchema.usageText
  | _ => pure ()
  return ending.exitCode.toUInt32
