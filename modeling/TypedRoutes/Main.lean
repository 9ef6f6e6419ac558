import TypedRoutes.Command.Run

/-!
# The command line

* `Console.disk` : the files of the system;
* `main` : carry out the command of the arguments.
-/

namespace TypedRoutes.Console

open Command

/-- The text of a file. -/
def read? (path : String) : IO (Option String) := do
  try
    return some (← IO.FS.readFile path)
  catch _ =>
    return none

def isFile (path : String) : IO Bool := do
  try
    let place ← IO.FS.realPath path
    return (← place.metadata).type == .file
  catch _ =>
    return false

/-- A name for a new file in a directory. -/
def freshName (directory : String) : IO String := do
  let n ← IO.rand 0 UInt32.size
  return inside directory s!".tmp{n}"

/-- What kept a file from being moved. -/
def moveError : IO.Error → MoveError
  | .noFileOrDirectory .. => .notFound
  | .resourceBusy .. => .busy
  | .inappropriateType _ code _ | .otherError code _ =>
    if code = 20 then .notDirectory else .isDirectory
  | _ => .isDirectory

/-- Write a new file beside the old one, then move it there. -/
def replace (path text : String) : IO (Except WriteError Unit) := do
  let fresh ← freshName (directoryOf path)
  try
    let file ← IO.FS.Handle.mk fresh .writeNew
    file.putStr text
    file.flush
  catch _ =>
    return .error .noDirectory
  try
    IO.FS.rename fresh path
    return .ok ()
  catch e =>
    IO.FS.removeFile fresh
    return .error (.unmoved (moveError e))

/-- The files of the system. -/
def disk : Disk IO where
  read? := read?
  isFile := isFile
  replace := replace

/-- How the command is used. -/
def usage : String :=
  "Usage: routegen [OPTIONS] <COMMAND>\n\n" ++
  "Commands:\n" ++
  "  generate  Generate code for every declaration in the input\n" ++
  "  check     Validate every declaration without writing anything\n" ++
  "  help      Print this message\n\n" ++
  "Options:\n" ++
  "  -i, --input <JSON>   JSON document with types and declarations\n" ++
  "  -c, --config <TOML>  Generator config; defaults to routegen.toml next to the input\n" ++
  "  -o, --output <FILE>  Output file; stdout when omitted\n" ++
  "  -j, --jobs <JOBS>    Worker threads; 0 uses one per core\n" ++
  "  -v, --verbose        Accepted everywhere; changes no answer\n" ++
  "  -h, --help           Print help\n"

end TypedRoutes.Console

open TypedRoutes in
/-- Carry out the command of the arguments. -/
def main (arguments : List String) : IO UInt32 := do
  match Command.ofArguments arguments with
  | .error .help =>
    IO.print Console.usage
    return 0
  | .error _ =>
    IO.eprint Console.usage
    return 2
  | .ok command =>
    let outcome ← Command.run Console.disk command
    IO.print outcome.output
    IO.eprint outcome.errors
    return outcome.status
