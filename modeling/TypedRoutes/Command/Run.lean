import TypedRoutes.Command.Arguments
import TypedRoutes.Command.Disk
import TypedRoutes.Document
import TypedRoutes.Emission.Library
import TypedRoutes.Toml.Settings

/-!
# Running commands

* `Workers` : how the work on declarations is shared out;
* `Command.load` : the document and the settings of a source;
* `Command.report` : what is written about a fault;
* `Command.run` : what a command does, on any disk and with any workers;
* `Outcome` : what it answers.

A fault in one declaration leaves the others alone: their code is written all the same. Code without
a layout is no fault of a declaration but breaks the command off, before anything is written.
-/

namespace TypedRoutes

namespace Command

/-- How a command ends. -/
inductive Ending
  /-- All went well. -/
  | clean
  /-- Something went wrong, and is reported. -/
  | faulty
  /-- The command broke off. -/
  | broken
  deriving DecidableEq, Repr, Inhabited

/-- The status of a command that ends so. -/
def Ending.status : Ending → UInt32
  | clean => 0
  | faulty => 1
  | broken => 101

/-- What a command answers: how it ends, and what it writes to its two streams. What the layout says
of the code it broke off at is left out of `errors`. -/
structure Outcome where
  ending : Ending
  output : String := ""
  errors : String := ""
  deriving DecidableEq, Repr, Inhabited

/-- The status with which a command ends. -/
def Outcome.status (o : Outcome) : UInt32 :=
  o.ending.status

/-- Why a command cannot be carried out. -/
inductive Obstacle
  | inputUnreadable (path : String)
  | inputInvalid (path : String)
  | configUnreadable (path : String)
  | configInvalid (path : String) (error : SettingsError)
  | workersUnstarted (cause : String)
  | outputUnwritten (path : String) (error : WriteError)
  deriving DecidableEq, Repr

namespace Obstacle

def message : Obstacle → String
  | inputUnreadable path => "failed to read input " ++ path
  | inputInvalid path => s!"failed to parse input {path}: input is not a valid route document"
  | configUnreadable path => "failed to read config " ++ path
  | configInvalid path e => s!"invalid config {path}: {e.message}"
  | workersUnstarted cause => "failed to start worker threads: " ++ cause
  | outputUnwritten path .noDirectory => "failed to create a temp file in " ++ directoryOf path
  | outputUnwritten path (.unmoved cause) =>
    s!"failed to move output into {path}: failed to persist temporary file: " ++
      s!"{cause.message}: {cause.message}"

/-- The line about an obstacle. -/
def line (o : Obstacle) : String :=
  s!"error: {o.message}\n"

end Obstacle

/-! ## Loading -/

/-- The file that holds the settings for the documents beside it. -/
def defaultConfig : String :=
  "routegen.toml"

/-- The path of the settings beside an input. -/
def configBeside (input : String) : String :=
  inside ((parent? input).getD ".") defaultConfig

/-- The code of declarations comes of a document and settings. -/
structure Job where
  document : Document
  settings : Settings

section

variable {m : Type → Type} [Monad m]

/-- The path of the settings: the one given, else the one beside the input if there is a file. -/
def configPath? (disk : Disk m) (source : Source) : m (Option String) := do
  match source.config? with
  | some path => return some path
  | none =>
    let beside := configBeside source.input
    return if ← disk.isFile beside then some beside else none

/-- The document of a source. -/
def loadDocument (disk : Disk m) (source : Source) : m (Except Obstacle Document) := do
  match ← disk.read? source.input with
  | none => return .error (.inputUnreadable source.input)
  | some text =>
    match Document.parse text with
    | none => return .error (.inputInvalid source.input)
    | some document => return .ok document

/-- The settings of a source. -/
def loadSettings (disk : Disk m) (source : Source) : m (Except Obstacle Settings) := do
  match ← configPath? disk source with
  | none => return .ok {}
  | some path =>
    match ← disk.read? path with
    | none => return .error (.configUnreadable path)
    | some text =>
      match Settings.ofToml text with
      | .error e => return .error (.configInvalid path e)
      | .ok settings => return .ok settings

/-- The document and the settings of a source, the document first. -/
def load (disk : Disk m) (source : Source) : m (Except Obstacle Job) := do
  match ← loadDocument disk source with
  | .error e => return .error e
  | .ok document =>
    match ← loadSettings disk source with
    | .error e => return .error e
    | .ok settings => return .ok ⟨document, settings⟩

end

/-! ## Working -/

/-- How work on the items of a list is shared out. -/
structure Workers (α β : Type) where
  /-- What workers of a number do with a function and a list, or why they cannot be started. As many
  as there are cores are started if the number is zero. -/
  start : UInt64 → Except String ((α → β) → List α → List β)

/-- One item after the other. -/
def Workers.single {α β : Type} : Workers α β :=
  ⟨fun _ => .ok List.map⟩

/-- What comes of a declaration. -/
abbrev Result :=
  Except Failure Emission.Output

/-- The workers of a command. -/
abbrev Crew :=
  Workers Declaration Result

/-- What comes of every declaration, in order. For a single worker none is started. -/
def Job.results (job : Job) (crew : Crew) (jobs : UInt64) : Except Obstacle (List Result) :=
  if jobs = 1 then
    .ok (Emission.generateAll job.document.types job.settings job.document.declarations)
  else
    match crew.start jobs with
    | .error cause => .error (.workersUnstarted cause)
    | .ok work =>
      .ok (work (Emission.generate job.document.types job.settings) job.document.declarations)

/-- What went well. -/
def successes {ε α : Type} (rs : List (Except ε α)) : List α :=
  rs.filterMap fun
    | .ok a => some a
    | .error _ => none

/-- What went wrong. -/
def failures {ε α : Type} (rs : List (Except ε α)) : List ε :=
  rs.filterMap fun
    | .ok _ => none
    | .error e => some e

/-- Whether a command breaks off at a failure. -/
def isFatal : Failure → Bool
  | ⟨.unwritableCode, _⟩ => true
  | _ => false

/-- How a command ends that meets no obstacle. -/
def Ending.ofResults (rs : List Result) : Ending :=
  if (failures rs).any isFatal then .broken
  else if (failures rs).isEmpty then .clean
  else .faulty

/-- What is written about a fault in an input. -/
def report (input : String) (f : Failure) : String :=
  let d := f.report
  s!"error[{d.category.name}]: {d.message}\n  --> {d.place.display}\n  in {input}\n"

/-- What is written about all faults. -/
def reports (input : String) (rs : List Result) : String :=
  String.join ((failures rs).map (report input))

/-- What a command answers that meets an obstacle. -/
def Outcome.ofObstacle (o : Obstacle) : Outcome :=
  { ending := .faulty, errors := o.line }

/-- Where a command finds what it works on. -/
def source : Command → Source
  | generate source _ _ => source
  | check source => source

/-- How many workers a command has. -/
def jobs : Command → UInt64
  | generate _ _ jobs => jobs
  | check _ => 1

section

variable {m : Type → Type} [Monad m]

/-- Write what a command was to make of the results, which did not break it off. -/
def deliver (disk : Disk m) (rs : List Result) : Command → m Outcome
  | check source =>
    return { ending := .ofResults rs, errors := reports source.input rs }
  | generate source output? _ => do
    let errors := reports source.input rs
    let code := Emission.assemble (successes rs)
    match output? with
    | none => return { ending := .ofResults rs, output := code, errors }
    | some path =>
      match ← disk.replace path code with
      | .ok () => return { ending := .ofResults rs, errors }
      | .error e =>
        return { ending := .faulty, errors := errors ++ (Obstacle.outputUnwritten path e).line }

/-- What a command does. -/
def run (disk : Disk m) (command : Command) (crew : Crew := .single) : m Outcome := do
  match ← load disk command.source with
  | .error e => return .ofObstacle e
  | .ok job =>
    match job.results crew command.jobs with
    | .error e => return .ofObstacle e
    | .ok rs =>
      if Ending.ofResults rs = .broken then return { ending := .broken }
      else deliver disk rs command

end

end Command

end TypedRoutes
