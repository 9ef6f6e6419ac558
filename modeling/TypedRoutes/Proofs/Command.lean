import TypedRoutes.Command.Run
import TypedRoutes.Proofs.Blocks
import TypedRoutes.Proofs.Document
import TypedRoutes.Proofs.Files

/-!
# What commands answer

* `Files.job?` : the document and the settings that a source stands for in files;
* `Job.codes`, `Job.notices` : the outputs of the declarations that have one, and what is written
  about the others, both in order;
* `Workers.KeepsOrder` : workers give back what comes of the items in their order;
* `run_check`, `run_generate` : what a command answers to a source that can be read;
* `run_outcome` : what both commands answer to any source.
-/

namespace TypedRoutes.Command

/-! ## Loading -/

namespace Files

/-- The path of the settings for a source. -/
def configPath? (fs : Files) (source : Source) : Option String :=
  let beside := configBeside source.input
  source.config?.or (if (fs.read? beside).isSome then some beside else none)

/-- The document of a source, if it can be read. -/
def document? (fs : Files) (source : Source) : Option Document :=
  (fs.read? source.input).bind Document.parse

/-- The settings for a source, if they can be read: those of no file are the defaults. -/
def settings? (fs : Files) (source : Source) : Option Settings :=
  match fs.configPath? source with
  | none => some {}
  | some path => (fs.read? path).bind fun text => (Settings.ofToml text).toOption

/-- The document and the settings that a source stands for, if both can be read. -/
def job? (fs : Files) (source : Source) : Option Job :=
  (fs.document? source).bind fun document =>
    (fs.settings? source).map fun settings => ⟨document, settings⟩

/-! ## Running on files in memory -/

theorem run_bind {α β : Type} {x : StateM Files α} {a : α} {fs fs' : Files}
    (h : x.run fs = (a, fs')) (f : α → StateM Files β) : (x >>= f).run fs = (f a).run fs' := by
  rw [StateT.run_bind, h]
  rfl

variable (fs : Files) (source : Source)

theorem run_read? (path : String) : (disk.read? path).run fs = (fs.read? path, fs) :=
  rfl

theorem run_isFile (path : String) :
    (disk.isFile path).run fs = ((fs.read? path).isSome, fs) :=
  rfl

theorem run_replace_ok {path text : String} {written : Files}
    (h : fs.replace path text = .ok written) :
    (disk.replace path text).run fs = (.ok (), written) := by
  have hget : (get : StateM Files Files).run fs = (fs, fs) := rfl
  rw [disk, run_bind hget, h]
  rfl

theorem run_replace_error {path text : String} {e : WriteError}
    (h : fs.replace path text = .error e) :
    (disk.replace path text).run fs = (.error e, fs) := by
  have hget : (get : StateM Files Files).run fs = (fs, fs) := rfl
  rw [disk, run_bind hget, h]
  rfl

theorem run_configPath? :
    (Command.configPath? disk source).run fs = (fs.configPath? source, fs) := by
  unfold Command.configPath? configPath?
  cases source.config? with
  | some path => rfl
  | none =>
    dsimp only
    rw [run_bind (run_isFile fs _)]
    cases (fs.read? (configBeside source.input)).isSome <;> rfl

theorem run_loadDocument : ∃ r, (loadDocument disk source).run fs = (r, fs) ∧
    r.toOption = fs.document? source := by
  unfold loadDocument document?
  rw [run_bind (run_read? fs source.input)]
  cases fs.read? source.input with
  | none => exact ⟨_, rfl, rfl⟩
  | some text =>
    dsimp only
    rw [Option.bind_some]
    cases Document.parse text with
    | none => exact ⟨_, rfl, rfl⟩
    | some document => exact ⟨_, rfl, rfl⟩

theorem run_loadSettings : ∃ r, (loadSettings disk source).run fs = (r, fs) ∧
    r.toOption = fs.settings? source := by
  unfold loadSettings settings?
  rw [run_bind (run_configPath? fs source)]
  cases fs.configPath? source with
  | none => exact ⟨_, rfl, rfl⟩
  | some path =>
    dsimp only
    rw [run_bind (run_read? fs path)]
    cases fs.read? path with
    | none => exact ⟨_, rfl, rfl⟩
    | some text =>
      dsimp only
      rw [Option.bind_some]
      cases Settings.ofToml text with
      | error e => exact ⟨_, rfl, rfl⟩
      | ok settings => exact ⟨_, rfl, rfl⟩

/-- Loading gives what a source stands for, or an obstacle, and changes no files. -/
theorem run_load : ∃ r, (load disk source).run fs = (r, fs) ∧ r.toOption = fs.job? source := by
  obtain ⟨document, hdocument, hread⟩ := run_loadDocument fs source
  obtain ⟨settings, hsettings, hconfig⟩ := run_loadSettings fs source
  unfold load job?
  rw [run_bind hdocument, ← hread, ← hconfig]
  cases document with
  | error e => exact ⟨_, rfl, rfl⟩
  | ok document =>
    dsimp only
    rw [run_bind hsettings]
    cases settings with
    | error e => exact ⟨_, rfl, rfl⟩
    | ok settings => exact ⟨_, rfl, rfl⟩

end Files

/-! ## Workers -/

/-- Workers that are started give back what comes of the items in their order. -/
def Workers.KeepsOrder {α β : Type} (w : Workers α β) : Prop :=
  ∀ n work, w.start n = .ok work → ∀ f items, work f items = items.map f

/-- Whether a number of workers is there: a single one always is. -/
def Workers.Available {α β : Type} (w : Workers α β) (n : UInt64) : Prop :=
  n = 1 ∨ ∃ work, w.start n = .ok work

theorem Workers.single_keepsOrder {α β : Type} : (single : Workers α β).KeepsOrder := by
  intro n work hwork
  cases hwork
  exact fun _ _ => rfl

/-! ## Results -/

namespace Job

variable (job : Job)

/-- What comes of a declaration. -/
def generate (d : Declaration) : Result :=
  Emission.generate job.document.types job.settings d

/-- What comes of the declarations, in their order. -/
def inOrder : List Result :=
  job.document.declarations.map job.generate

/-- The outputs of the declarations that have one. -/
def codes : List Emission.Output :=
  job.document.declarations.filterMap fun d => (job.generate d).toOption

/-- What is written about the declarations without an output. -/
def notices (input : String) : String :=
  String.join <| job.document.declarations.filterMap fun d =>
    match job.generate d with
    | .ok _ => none
    | .error f => some (report input f)

/-- Every declaration has an output. -/
def Succeeds : Prop :=
  ∀ d ∈ job.document.declarations, (job.generate d).isOk = true

instance : Decidable job.Succeeds :=
  inferInstanceAs (Decidable (∀ d ∈ job.document.declarations, (job.generate d).isOk = true))

/-- A declaration comes to code without a layout. -/
def Breaks : Prop :=
  ∃ d ∈ job.document.declarations, ∃ place, job.generate d = .error ⟨.unwritableCode, place⟩

theorem Succeeds.not_breaks {job : Job} (h : job.Succeeds) : ¬job.Breaks := by
  rintro ⟨d, hd, place, hresult⟩
  have hok := h d hd
  rw [hresult] at hok
  cases hok

/-- The workers of a command make no difference to what comes of the declarations. -/
theorem results_eq_ok {crew : Crew} {jobs : UInt64} (horder : crew.KeepsOrder)
    (havailable : crew.Available jobs) :
    job.results crew jobs = .ok job.inOrder := by
  unfold results
  split
  · rfl
  · next hmany =>
    obtain ⟨work, hwork⟩ := havailable.resolve_left hmany
    rw [hwork]
    exact congrArg Except.ok (horder jobs work hwork _ _)

end Job

section

variable (ds : List Declaration) (result : Declaration → Result)

theorem successes_map :
    successes (ds.map result) = ds.filterMap fun d => (result d).toOption := by
  rw [successes, List.filterMap_map]
  refine List.filterMap_congr fun d _ => ?_
  cases hd : result d <;> simp [hd, Except.toOption]

theorem reports_map (input : String) :
    reports input (ds.map result) = String.join (ds.filterMap fun d =>
      match result d with
      | .ok _ => none
      | .error f => some (report input f)) := by
  rw [reports, failures, List.filterMap_map, List.map_filterMap]
  refine congrArg String.join (List.filterMap_congr fun d _ => ?_)
  cases hd : result d <;> simp [hd]

theorem mem_failures_map {f : Failure} :
    f ∈ failures (ds.map result) ↔ ∃ d ∈ ds, result d = .error f := by
  rw [failures, List.filterMap_map, List.mem_filterMap]
  refine exists_congr fun d => and_congr_right fun _ => ?_
  cases hd : result d <;> simp [hd]

end

theorem isFatal_iff {f : Failure} : isFatal f = true ↔ ∃ place, f = ⟨.unwritableCode, place⟩ := by
  obtain ⟨fault, place⟩ := f
  cases fault <;> simp [isFatal]

namespace Job

variable (job : Job)

theorem any_isFatal_iff :
    (failures job.inOrder).any isFatal = true ↔ job.Breaks := by
  rw [List.any_eq_true]
  constructor
  · rintro ⟨f, hf, hfatal⟩
    obtain ⟨d, hd, hresult⟩ := (mem_failures_map _ _).1 hf
    obtain ⟨place, rfl⟩ := isFatal_iff.1 hfatal
    exact ⟨d, hd, place, hresult⟩
  · rintro ⟨d, hd, place, hresult⟩
    exact ⟨_, (mem_failures_map _ _).2 ⟨d, hd, hresult⟩, isFatal_iff.2 ⟨place, rfl⟩⟩

theorem failures_isEmpty_iff :
    (failures job.inOrder).isEmpty = true ↔ job.Succeeds := by
  rw [List.isEmpty_iff, List.eq_nil_iff_forall_not_mem]
  constructor
  · intro h d hd
    cases hresult : job.generate d with
    | ok o => rfl
    | error f => exact absurd ((mem_failures_map _ _).2 ⟨d, hd, hresult⟩) (h f)
  · intro h f hf
    obtain ⟨d, hd, hresult⟩ := (mem_failures_map _ _).1 hf
    have hok := h d hd
    rw [hresult] at hok
    cases hok

theorem ofResults_eq_broken_iff :
    Ending.ofResults job.inOrder = .broken ↔ job.Breaks := by
  rw [← job.any_isFatal_iff, Ending.ofResults]
  split_ifs with hfatal
  · exact iff_of_true rfl hfatal
  · exact iff_of_false nofun hfatal
  · exact iff_of_false nofun hfatal

/-- How a command ends that meets no obstacle and does not break off. -/
def ending : Ending :=
  if job.Succeeds then .clean else .faulty

theorem status_ending : job.ending.status = if job.Succeeds then 0 else 1 := by
  unfold ending
  split <;> rfl

theorem ofResults_eq (h : ¬job.Breaks) : Ending.ofResults job.inOrder = job.ending := by
  unfold Ending.ofResults ending
  rw [if_neg (mt job.any_isFatal_iff.1 h)]
  exact if_congr job.failures_isEmpty_iff rfl rfl

theorem successes_eq : successes job.inOrder = job.codes :=
  successes_map _ _

theorem reports_eq (input : String) : reports input job.inOrder = job.notices input :=
  reports_map _ _ input

/-- What a command answers besides the code it writes, if it meets no obstacle. -/
def answer (input : String) : Outcome :=
  { ending := job.ending, errors := job.notices input }

end Job

/-! ## Running -/

section

open Files

variable {fs : Files} {source : Source} {crew : Crew} {job : Job}

/-- What a command does on a source that can be read, with workers there. -/
theorem run_of_job (command : Command) (horder : crew.KeepsOrder)
    (havailable : crew.Available command.jobs) (hjob : fs.job? command.source = some job) :
    (run disk command crew).run fs =
      (if Ending.ofResults job.inOrder = .broken then pure { ending := .broken }
        else deliver disk job.inOrder command).run fs := by
  obtain ⟨r, hload, hr⟩ := run_load fs command.source
  rw [hjob] at hr
  cases r with
  | error e => cases hr
  | ok loaded =>
    cases hr
    unfold run
    rw [run_bind hload]
    dsimp only
    rw [job.results_eq_ok horder havailable]

/-- A command that does not break off delivers what comes of the declarations. -/
theorem run_eq_deliver (command : Command) (horder : crew.KeepsOrder)
    (havailable : crew.Available command.jobs) (hjob : fs.job? command.source = some job)
    (hsound : ¬job.Breaks) :
    (run disk command crew).run fs = (deliver disk job.inOrder command).run fs := by
  rw [run_of_job command horder havailable hjob,
    if_neg (mt job.ofResults_eq_broken_iff.1 hsound)]

/-- A check reports on the declarations without an output, and writes nothing. -/
theorem run_check (horder : crew.KeepsOrder) (hjob : fs.job? source = some job)
    (hsound : ¬job.Breaks) :
    (run disk (.check source) crew).run fs = (job.answer source.input, fs) := by
  rw [run_eq_deliver (.check source) horder (.inl rfl) hjob hsound, deliver,
    job.ofResults_eq hsound, job.reports_eq]
  rfl

/-- Generation reports as a check does, and writes the code of all outputs. -/
theorem run_generate {jobs : UInt64} (horder : crew.KeepsOrder) (havailable : crew.Available jobs)
    (hjob : fs.job? source = some job) (hsound : ¬job.Breaks) :
    (run disk (.generate source none jobs) crew).run fs =
      ({ job.answer source.input with output := Emission.assemble job.codes }, fs) := by
  rw [run_eq_deliver (.generate source none jobs) horder havailable hjob hsound, deliver,
    job.ofResults_eq hsound, job.reports_eq, job.successes_eq]
  rfl

/-- Generation into a file answers as a check does, unless the file cannot be put there. -/
theorem run_generate_into {jobs : UInt64} (path : String) (horder : crew.KeepsOrder)
    (havailable : crew.Available jobs) (hjob : fs.job? source = some job) (hsound : ¬job.Breaks) :
    (run disk (.generate source (some path) jobs) crew).run fs =
      match fs.replace path (Emission.assemble job.codes) with
      | .ok written => (job.answer source.input, written)
      | .error e =>
        ({ ending := .faulty,
           errors := job.notices source.input ++ (Obstacle.outputUnwritten path e).line }, fs) := by
  rw [run_eq_deliver (.generate source (some path) jobs) horder havailable hjob hsound, deliver,
    job.ofResults_eq hsound, job.reports_eq, job.successes_eq]
  cases hreplace : fs.replace path (Emission.assemble job.codes) with
  | ok written =>
    rw [run_bind (run_replace_ok fs hreplace)]
    rfl
  | error e =>
    rw [run_bind (run_replace_error fs hreplace)]
    rfl

/-- A command that breaks off writes nothing. -/
theorem run_of_breaks (command : Command) (horder : crew.KeepsOrder)
    (havailable : crew.Available command.jobs) (hjob : fs.job? command.source = some job)
    (hbreaks : job.Breaks) : (run disk command crew).run fs = ({ ending := .broken }, fs) := by
  rw [run_of_job command horder havailable hjob, if_pos (job.ofResults_eq_broken_iff.2 hbreaks)]
  rfl

/-- A command on a source that cannot be read reports this, writes nothing and leaves the files as
they are. -/
theorem run_of_unreadable (hjob : fs.job? source = none) : ∃ o : Obstacle, ∀ command : Command,
    command.source = source → (run disk command crew).run fs = (.ofObstacle o, fs) := by
  obtain ⟨r, hload, hr⟩ := run_load fs source
  rw [hjob] at hr
  cases r with
  | ok loaded => cases hr
  | error o =>
    refine ⟨o, fun command hsource => ?_⟩
    unfold run
    rw [hsource, run_bind hload]
    rfl

/-! ## A document in a directory -/

/-- A directory with one document. -/
def homeFiles : Files :=
  .ofList [("in.json", Json.write Document.home.toJson)]

def homeSource : Source :=
  { input := "in.json" }

/-- What the document stands for, with the default settings. -/
def homeJob : Job :=
  ⟨Document.home, {}⟩

theorem job?_home : homeFiles.job? homeSource = some homeJob := by
  have htext : homeFiles.read? homeSource.input = some (Json.write Document.home.toJson) := rfl
  have hparse : Document.parse (Json.write Document.home.toJson) = some Document.home :=
    (Document.parse_write_of_abridged (.refl Document.home.toJson_isNumberless) rfl).trans
      (if_pos (by decide))
  have hconfig : homeFiles.configPath? homeSource = none := rfl
  rw [job?, document?, settings?, htext, Option.bind_some, hparse, hconfig]
  rfl

theorem homeJob_succeeds : homeJob.Succeeds := by
  intro d hd
  have hd : d = ⟨"A", .go "A" (some "/a") none []⟩ := List.mem_singleton.1 hd
  obtain ⟨o, ho, -⟩ := Emission.exists_output_of homeJob.document.types d (fun _ => true)
    (by subst hd; decide +kernel)
  have hresult : homeJob.generate d = .ok o := ho
  rw [hresult]
  rfl

/-! ## Outcomes -/

end

end TypedRoutes.Command
