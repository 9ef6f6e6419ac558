import TypedRoutes.Text.Decimal

/-!
# Arguments of the command line

* `Command` : what is asked for;
* `Stop` : why nothing is asked for;
* `Reader.step` : what is known after one more argument;
* `Command.ofArguments` : the command of a list of arguments.

A verb may have `--verbose` or `-v` in front of it. Behind it stand settings in any order, each at
most once: `--word value`, `--word=value`, `-l value`, `-l=value` or `-lvalue`. Switches of one
letter may be run together, with a setting at the end. A value that follows its setting does not
begin with a dash unless it is one.
-/

namespace TypedRoutes

namespace Command

/-! ## Vocabulary -/

inductive Verb
  | generate
  | check
  deriving DecidableEq, Repr

/-- What has a value. -/
inductive Setting
  | input
  | config
  | output
  | jobs
  deriving DecidableEq, Repr

/-- What has no value. -/
inductive Switch
  | verbose
  | help
  deriving DecidableEq, Repr

namespace Verb

def all : List Verb :=
  [generate, check]

def name : Verb → String
  | generate => "generate"
  | check => "check"

def ofName? (n : String) : Option Verb :=
  all.find? fun v => v.name = n

/-- The settings that a verb takes. -/
def settings : Verb → List Setting
  | generate => [.input, .config, .output, .jobs]
  | check => [.input, .config]

end Verb

/-- The word of a setting; its letter is the first of the word. -/
def Setting.word : Setting → String
  | input => "input"
  | config => "config"
  | output => "output"
  | jobs => "jobs"

def Switch.all : List Switch :=
  [verbose, help]

/-- The word of a switch; its letter is the first of the word. -/
def Switch.word : Switch → String
  | verbose => "verbose"
  | help => "help"

def startsWith (c : Char) (word : String) : Bool :=
  word.toList.head? = some c

/-- Whether a setting can have a value: a count for the jobs, and a path for all others. -/
def Setting.accepts (k : Setting) (value : String) : Bool :=
  match k with
  | jobs => (Text.Decimal.count? value).isSome
  | _ => value ≠ ""

/-! ## Commands -/

/-- Where a command finds what it works on. -/
structure Source where
  input : String
  config? : Option String := none
  deriving DecidableEq, Repr, Inhabited

/-- Why there is no command. -/
inductive Stop
  /-- Help is asked for. -/
  | help
  | noArguments
  | missingVerb
  | missingSetting (k : Setting)
  | missingValue (k : Setting)
  | unfitValue (k : Setting) (value : String)
  | repeatedSetting (k : Setting)
  | repeatedSwitch (s : Switch)
  | unexpected (argument : String)
  deriving DecidableEq, Repr

end Command

/-- What is asked for. -/
inductive Command
  /-- Emit the code of all declarations, with a number of workers, or as many as there are cores if
  it is zero. -/
  | generate (source : Command.Source) (output? : Option String) (jobs : UInt64)
  /-- Report the faults of all declarations. -/
  | check (source : Command.Source)
  deriving DecidableEq, Repr

namespace Command

/-! ## Reading -/

/-- What is known after some arguments. -/
structure Reader where
  /-- The settings that may be given. -/
  settings : List Setting
  verbose : Bool := false
  given : List (Setting × String) := []
  /-- The setting whose value comes next. -/
  pending? : Option Setting := none
  /-- Whether two dashes were read, which no more settings may follow. -/
  closed : Bool := false
  deriving Repr, Inhabited

namespace Reader

/-- A switch is given. -/
def switch (r : Reader) (s : Switch) : Except Stop Reader :=
  match s with
  | .help => .error .help
  | .verbose => if r.verbose then .error (.repeatedSwitch s) else .ok { r with verbose := true }

/-- A setting is given with its value. -/
def give (r : Reader) (k : Setting) (value : String) : Except Stop Reader :=
  if !k.accepts value then .error (.unfitValue k value)
  else if (r.given.lookup k).isSome then .error (.repeatedSetting k)
  else .ok { r with given := r.given ++ [(k, value)], pending? := none }

/-- A setting is given whose value follows. -/
def await (r : Reader) (k : Setting) : Except Stop Reader :=
  .ok { r with pending? := some k }

/-- The letters behind one dash. -/
def letters (argument : String) (r : Reader) : List Char → Except Stop Reader
  | [] => .ok r
  | c :: rest =>
    match Switch.all.find? fun s => startsWith c s.word with
    | some s => do letters argument (← r.switch s) rest
    | none =>
      match r.settings.find? fun k => startsWith c k.word with
      | none => .error (.unexpected argument)
      | some k =>
        match rest with
        | [] => r.await k
        | '=' :: value => r.give k (String.ofList value)
        | value => r.give k (String.ofList value)

/-- The word behind two dashes, and its value if one is attached. -/
def word (argument : String) (r : Reader) (w : List Char) (value? : Option (List Char)) :
    Except Stop Reader :=
  match Switch.all.find? fun s => s.word.toList = w with
  | some s => if value?.isSome then .error (.unexpected argument) else r.switch s
  | none =>
    match r.settings.find? fun k => k.word.toList = w with
    | none => .error (.unexpected argument)
    | some k =>
      match value? with
      | some value => r.give k (String.ofList value)
      | none => r.await k

/-- An argument that begins with a dash and is not one. -/
def dashed (r : Reader) (argument : String) : Except Stop Reader :=
  match argument.toList with
  | ['-', '-'] => .ok { r with closed := true }
  | '-' :: '-' :: w =>
    r.word argument (w.takeWhile (· != '='))
      (if w.contains '=' then some ((w.dropWhile (· != '=')).drop 1) else none)
  | _ :: cs => r.letters argument cs
  | [] => .error (.unexpected argument)

/-- What is known after one more argument. -/
def step (r : Reader) (argument : String) : Except Stop Reader :=
  let isDashed := startsWith '-' argument ∧ argument ≠ "-"
  if r.closed then .error (.unexpected argument)
  else match r.pending? with
    | some k => if isDashed then .error (.missingValue k) else r.give k argument
    | none => if isDashed then r.dashed argument else .error (.unexpected argument)

/-- The value of a setting. -/
def value? (r : Reader) (k : Setting) : Option String :=
  r.given.lookup k

/-- The command of a verb. -/
def finish (r : Reader) (v : Verb) : Except Stop Command :=
  match r.pending?, r.value? .input with
  | some k, _ => .error (.missingValue k)
  | none, none => .error (.missingSetting .input)
  | none, some input =>
    let source : Source := ⟨input, r.value? .config⟩
    match v with
    | .generate =>
      .ok (.generate source (r.value? .output) (((r.value? .jobs).bind Text.Decimal.count?).getD 0))
    | .check => .ok (.check source)

end Reader

/-- The command of a verb and the arguments behind it. -/
def ofVerb (v : Verb) (arguments : List String) : Except Stop Command := do
  let r ← arguments.foldlM Reader.step { settings := v.settings }
  r.finish v

/-- Help on a verb, or on everything. -/
def helpOn : List String → Stop
  | [] => .help
  | [topic] => if topic = "help" ∨ (Verb.ofName? topic).isSome then .help else .unexpected topic
  | topic :: next :: _ =>
    if topic = "help" ∨ (Verb.ofName? topic).isSome then .unexpected next else .unexpected topic

/-- The command of the arguments that follow those already read. -/
def ofRest (r : Reader) : List String → Except Stop Command
  | [] => .error .missingVerb
  | argument :: rest =>
    if r.closed then .error (.unexpected argument)
    else if argument = "help" then .error (helpOn rest)
    else match Verb.ofName? argument with
      | some v => ofVerb v rest
      | none => do ofRest (← r.step argument) rest

/-- The command of a list of arguments. -/
def ofArguments (arguments : List String) : Except Stop Command :=
  if arguments.isEmpty then .error .noArguments else ofRest { settings := [] } arguments

end Command

end TypedRoutes
