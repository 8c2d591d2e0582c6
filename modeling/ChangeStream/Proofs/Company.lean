import Mathlib.Logic.Function.Basic
import ChangeStream.Engine.Played
import ChangeStream.Proofs.LastAttempt
import ChangeStream.Sample
import ChangeStream.Sink.Recording

/-!
# Tasks in company

Any number of tasks are executed at the same time, each by an engine of its own, and hand their
records to one sink. If the sink takes everything, no task notices the others: it does what it would
do alone, and what the sink has taken for its split is what the sink would have taken from it alone.
-/

namespace ChangeStream

variable {ι κ : Type} {ε ρ : ι → Type}

/-! ## Outlets that take everything -/

namespace Outlet

/-- An outlet takes some records one after the other. -/
inductive Takes (outlet : Outlet κ) : κ → List Record → κ → Prop
  | nil (state : κ) : Takes outlet state [] state
  | cons {state next last : κ} {record : Record} {records : List Record}
      (taken : outlet state record = some (.accepted, next))
      (rest : Takes outlet next records last) :
      Takes outlet state (record :: records) last

/-- An outlet has room for every record that may come, and never refuses one. -/
def TakesAll (outlet : Outlet κ) (state : κ) : Prop :=
  ∀ records last, outlet.Takes state records last →
    ∀ record, ∃ next, outlet last record = some (.accepted, next)

variable {outlet : Outlet κ} {state middle last : κ} {records more : List Record}

theorem Takes.append (first : outlet.Takes state records middle)
    (second : outlet.Takes middle more last) :
    outlet.Takes state (records ++ more) last := by
  induction first with
  | nil => exact second
  | cons taken rest ih => exact .cons taken (ih second)

theorem TakesAll.after (all : outlet.TakesAll state) (takes : outlet.Takes state records middle) :
    outlet.TakesAll middle :=
  fun more last rest => all (records ++ more) last (takes.append rest)

theorem TakesAll.next (all : outlet.TakesAll state) (record : Record) :
    ∃ next, outlet state record = some (.accepted, next) :=
  all [] state (.nil state) record

end Outlet

/-- A recorder that is not told to refuse anything takes everything. -/
theorem Recorder.takesAll {recorder : Recorder} (willing : recorder.refusals = 0) :
    (Sink.outlet Recorder.sink).TakesAll recorder := by
  -- Whatever it takes, it goes on like that.
  have takes (state : Recorder) (record : Record) (willing : state.refusals = 0) :
      ∃ next : Recorder, next.refusals = 0 ∧
        Sink.outlet Recorder.sink state record = some (.accepted, next) := by
    obtain ⟨kept, refusals, attempts⟩ := state
    obtain rfl : refusals = 0 := willing
    cases record with
    | change split event => exact ⟨_, rfl, rfl⟩
    | watermark event => exact ⟨_, rfl, rfl⟩
  intro records last all
  induction all with
  | nil state =>
    intro record
    obtain ⟨next, -, taken⟩ := takes state record willing
    exact ⟨next, taken⟩
  | @cons state next last record records taken rest ih =>
    obtain ⟨other, still, taken'⟩ := takes state record willing
    rw [taken] at taken'
    cases taken'
    exact ih still

/-! ## A step with a sink that takes everything -/

section Step

variable {ε ρ : Type} {outlet : Outlet κ} {one other : κ}

theorem Execution.sink_of_step (all : outlet.TakesAll one) (engine : LogEngine ε ρ)
    (x : Execution ρ) (state : ε) :
    outlet.Takes one (x.step engine outlet ⟨state, one⟩).2.2.accepted
      (x.step engine outlet ⟨state, one⟩).2.1.sink := by
  obtain ⟨reading, offered, progress, ending⟩ := x
  cases ending with
  | some ending => exact .nil one
  | none =>
    cases offered with
    | none =>
      simp only [step, (perform_quiet _ _).accepted]
      exact .nil one
    | some record =>
      obtain ⟨next, taken⟩ := all.next record
      simp only [step, taken, answer, Reading.conclude_accepted]
      exact .cons taken (.nil next)

/-- Which records the sink has taken before makes no difference to the execution. -/
theorem Execution.step_alike (all : outlet.TakesAll one) (also : outlet.TakesAll other)
    (engine : LogEngine ε ρ) (x : Execution ρ) (state : ε) :
    let first := x.step engine outlet ⟨state, one⟩
    let second := x.step engine outlet ⟨state, other⟩
    first.1 = second.1 ∧ first.2.1.engine = second.2.1.engine ∧ first.2.2 = second.2.2 := by
  obtain ⟨reading, offered, progress, ending⟩ := x
  cases ending with
  | some ending => exact ⟨rfl, rfl, rfl⟩
  | none =>
    cases offered with
    | none => exact ⟨rfl, rfl, rfl⟩
    | some record =>
      obtain ⟨next, taken⟩ := all.next record
      obtain ⟨next', taken'⟩ := also.next record
      simp only [step, taken, taken', and_self]

theorem TaskRun.sink_of_step (all : outlet.TakesAll one) (engine : LogEngine ε ρ) (source : Source)
    (pollInterval : Duration) (run : TaskRun ρ) (state : ε) :
    let result := run.step engine outlet source pollInterval ⟨state, one⟩
    outlet.Takes one result.2.2.accepted result.2.1.sink := by
  cases run with
  | starting task =>
    simp only [step]
    split <;> exact .nil one
  | executing x =>
    simp only [step]
    split
    · next ending left =>
      obtain ⟨events, hlogs⟩ := leave_logs (ρ := ρ) x.reading ending
      rw [hlogs, Trace.accepted_ofLogs]
      exact .nil one
    · exact Execution.sink_of_step all engine x state
  | settled task result =>
    obtain ⟨events, hlogs⟩ := task.release_logs
    simp only [step, hlogs, Trace.accepted_append, Trace.accepted_ofLogs]
    exact .nil one
  | exited task result => exact .nil one

theorem TaskRun.step_alike (all : outlet.TakesAll one) (also : outlet.TakesAll other)
    (engine : LogEngine ε ρ) (source : Source) (pollInterval : Duration) (run : TaskRun ρ)
    (state : ε) :
    let first := run.step engine outlet source pollInterval ⟨state, one⟩
    let second := run.step engine outlet source pollInterval ⟨state, other⟩
    first.1 = second.1 ∧ first.2.1.engine = second.2.1.engine ∧ first.2.2 = second.2.2 := by
  cases run with
  | starting task =>
    simp only [step]
    split <;> exact ⟨rfl, rfl, rfl⟩
  | executing x =>
    simp only [step]
    split
    · exact ⟨rfl, rfl, rfl⟩
    · obtain ⟨hx, hengine, htrace⟩ := Execution.step_alike all also engine x state
      exact ⟨congrArg TaskRun.executing hx, hengine, htrace⟩
  | settled task result => exact ⟨rfl, rfl, rfl⟩
  | exited task result => exact ⟨rfl, rfl, rfl⟩

end Step

/-! ## Companies -/

/-- Tasks that are executed at the same time, and what happened to them so far. -/
structure Company (ε ρ : ι → Type) (κ : Type) where
  runs : ∀ i, TaskRun (ρ i)
  engines : ∀ i, ε i
  sink : κ
  /-- What can be seen of the tasks, each occurrence with the task that it belongs to. -/
  trace : List (ι × Occurrence)

namespace Company

/-- Tasks that are about to be executed. -/
def start (tasks : ι → FetchTask) (engines : ∀ i, ε i) (sink : κ) : Company ε ρ κ :=
  { runs := fun i => .starting (tasks i), engines, sink, trace := [] }

/-- The records that the sink has taken from all tasks, in the order in which they came. -/
def accepted (company : Company ε ρ κ) : List Record := Trace.accepted (company.trace.map Prod.snd)

theorem accepted_of_trace {company later : Company ε ρ κ} {i : ι} {trace : Trace}
    (more : later.trace = company.trace ++ trace.map (i, ·)) :
    later.accepted = company.accepted ++ trace.accepted := by
  have same : (trace.map fun occurrence => (i, occurrence)).map Prod.snd = trace := by
    rw [List.map_map]
    exact List.map_id trace
  rw [accepted, more, List.map_append, Trace.accepted_append, same]
  rfl

variable [DecidableEq ι]

/-- The next step of a task: what it leaves of the execution, of the engine and of the sink, and
what can be seen. -/
def next (contexts : ∀ i, TaskContext (ε i) (ρ i) κ) (company : Company ε ρ κ) (i : ι) :
    TaskRun (ρ i) × Shared (ε i) κ × Trace :=
  (company.runs i).step (contexts i).engine (contexts i).outlet (contexts i).source
    (contexts i).pollInterval
    ⟨company.engines i, company.sink⟩

/-- The company after a turn of one of its tasks: the task goes on by a step, or is closed by
another party. -/
def take (contexts : ∀ i, TaskContext (ε i) (ρ i) κ)
    (company : Company ε ρ κ) : ι × Turn → Company ε ρ κ
  | (i, .step) =>
    { runs := Function.update company.runs i (company.next contexts i).1
      engines := Function.update company.engines i (company.next contexts i).2.1.engine
      sink := (company.next contexts i).2.1.sink
      trace := company.trace ++ (company.next contexts i).2.2.map (i, ·) }
  | (i, .close) => { company with runs := Function.update company.runs i (company.runs i).close }

/-- The company after some turns. -/
def takeAll (contexts : ∀ i, TaskContext (ε i) (ρ i) κ) (company : Company ε ρ κ)
    (turns : List (ι × Turn)) :
    Company ε ρ κ :=
  turns.foldl (take contexts) company

/-- The entries that belong to one task. -/
def ofTask {α : Type} (i : ι) (entries : List (ι × α)) : List α :=
  entries.filterMap fun entry => if entry.1 = i then some entry.2 else none

section OfTask

variable {α : Type} {i j : ι}

theorem ofTask_append (i : ι) (first second : List (ι × α)) :
    ofTask i (first ++ second) = ofTask i first ++ ofTask i second :=
  List.filterMap_append

theorem ofTask_cons (i : ι) (entry : ι × α) (rest : List (ι × α)) :
    ofTask i (entry :: rest) = if entry.1 = i then entry.2 :: ofTask i rest else ofTask i rest := by
  by_cases own : entry.1 = i <;> simp [ofTask, own]

theorem ofTask_map_self (i : ι) (entries : List α) : ofTask i (entries.map (i, ·)) = entries := by
  rw [ofTask, List.filterMap_map]
  have same : (fun entry : ι × α => if entry.1 = i then some entry.2 else none) ∘ (i, ·) = some :=
    funext fun entry => if_pos rfl
  rw [same, List.filterMap_some]

theorem ofTask_map_other (other : j ≠ i) (entries : List α) :
    ofTask i (entries.map (j, ·)) = [] := by
  rw [ofTask, List.filterMap_map]
  exact List.filterMap_eq_nil_iff.mpr fun entry _ => if_neg other

end OfTask

/-! ## Company makes no difference -/

/-- A task is in company where it is alone, as far as can be told from the task. -/
structure Agrees (company : Company ε ρ κ) (i : ι) (alone : Course (ε i) (ρ i) κ) : Prop where
  run : company.runs i = alone.run
  engine : company.engines i = alone.shared.engine
  trace : ofTask i company.trace = alone.trace

variable {contexts : ∀ i, TaskContext (ε i) (ρ i) κ} {company : Company ε ρ κ} {outlet : Outlet κ}
  {i j : ι}

/-- What other tasks do is not to be seen. -/
theorem Agrees.take_other {alone : Course (ε i) (ρ i) κ} (agrees : company.Agrees i alone)
    (other : j ≠ i) (turn : Turn) : (company.take contexts (j, turn)).Agrees i alone := by
  cases turn with
  | close =>
    refine ⟨?_, agrees.engine, agrees.trace⟩
    rw [← agrees.run]
    exact Function.update_of_ne other.symm _ _
  | step =>
    constructor
    · rw [← agrees.run]
      exact Function.update_of_ne other.symm _ _
    · rw [← agrees.engine]
      exact Function.update_of_ne other.symm _ _
    · rw [← agrees.trace]
      refine (ofTask_append i _ _).trans ?_
      rw [ofTask_map_other other, List.append_nil]

/-- The next step is the one that the task would take alone, but for the sink. -/
theorem Agrees.next {alone : Course (ε i) (ρ i) κ} (agrees : company.Agrees i alone)
    (shared : (contexts i).outlet = outlet) (all : outlet.TakesAll company.sink)
    (also : outlet.TakesAll alone.shared.sink) :
    let step := alone.run.step (contexts i).engine (contexts i).outlet (contexts i).source
      (contexts i).pollInterval
      alone.shared
    (company.next contexts i).1 = step.1 ∧ (company.next contexts i).2.1.engine = step.2.1.engine ∧
      (company.next contexts i).2.2 = step.2.2 := by
  have alike :=
    TaskRun.step_alike all also (contexts i).engine (contexts i).source (contexts i).pollInterval
    alone.run alone.shared.engine
  rw [← shared, ← agrees.engine, ← agrees.run] at alike
  have same : (⟨company.engines i, alone.shared.sink⟩ : Shared (ε i) κ) = alone.shared := by
    rw [agrees.engine]
  rw [same] at alike
  rw [← agrees.run]
  exact alike

/-- The task takes its own turns as it would alone. -/
theorem Agrees.take_own {alone : Course (ε i) (ρ i) κ} (agrees : company.Agrees i alone)
    (shared : (contexts i).outlet = outlet) (all : outlet.TakesAll company.sink)
    (also : outlet.TakesAll alone.shared.sink) (turn : Turn) :
    (company.take contexts (i, turn)).Agrees i (alone.take (contexts i) turn) := by
  cases turn with
  | close =>
    refine ⟨?_, agrees.engine, agrees.trace⟩
    rw [Company.take, Course.take, ← agrees.run]
    exact Function.update_self _ _ _
  | step =>
    obtain ⟨hrun, hengine, htrace⟩ := agrees.next shared all also
    constructor
    · exact (Function.update_self i _ _).trans hrun
    · exact (Function.update_self i _ _).trans hengine
    · refine (ofTask_append i _ _).trans ?_
      rw [ofTask_map_self, agrees.trace, htrace]
      rfl

/-! ## The sink -/

variable {sink : κ}

/-- The sink in company is as the records of all have made it. -/
theorem take_takes (shared : ∀ i, (contexts i).outlet = outlet) (all : outlet.TakesAll sink)
    (takes : outlet.Takes sink company.accepted company.sink) (turn : ι × Turn) :
    outlet.Takes sink (company.take contexts turn).accepted (company.take contexts turn).sink := by
  obtain ⟨i, turn⟩ := turn
  cases turn with
  | close => exact takes
  | step =>
    have now := TaskRun.sink_of_step (all.after takes) (contexts i).engine (contexts i).source
      (contexts i).pollInterval
      (company.runs i) (company.engines i)
    rw [← shared i] at now takes ⊢
    have more : (company.take contexts (i, .step)).accepted =
        company.accepted ++ (company.next contexts i).2.2.accepted := accepted_of_trace rfl
    rw [more]
    exact takes.append now

/-- The sink of a task that is alone is as its records have made it. -/
theorem course_take_takes {ε ρ : Type} {context : TaskContext ε ρ κ} {alone : Course ε ρ κ}
    (shared : context.outlet = outlet) (all : outlet.TakesAll sink)
    (takes : outlet.Takes sink alone.trace.accepted alone.shared.sink) (turn : Turn) :
    outlet.Takes sink (alone.take context turn).trace.accepted
      (alone.take context turn).shared.sink := by
  cases turn with
  | close => exact takes
  | step =>
    have now := TaskRun.sink_of_step (all.after takes) context.engine context.source
      context.pollInterval alone.run
      alone.shared.engine
    rw [← shared] at now takes ⊢
    rw [show (alone.take context .step).trace.accepted = _ from Trace.accepted_append ..]
    exact takes.append now

/-! ## Sequences of turns -/

theorem takes_takeAll (shared : ∀ i, (contexts i).outlet = outlet) (all : outlet.TakesAll sink)
    (takes : outlet.Takes sink company.accepted company.sink) (turns : List (ι × Turn)) :
    outlet.Takes sink (company.takeAll contexts turns).accepted
      (company.takeAll contexts turns).sink := by
  induction turns generalizing company with
  | nil => exact takes
  | cons turn rest ih => exact ih (take_takes shared all takes turn)

/-- Among any turns of others a task goes the course that it would go alone with its own turns. -/
theorem Agrees.takeAll {alone : Course (ε i) (ρ i) κ} (agrees : company.Agrees i alone)
    (shared : ∀ i, (contexts i).outlet = outlet) (all : outlet.TakesAll sink)
    (takes : outlet.Takes sink company.accepted company.sink)
    (takesAlone : outlet.Takes sink alone.trace.accepted alone.shared.sink)
    (turns : List (ι × Turn)) :
    (company.takeAll contexts turns).Agrees i (alone.takeAll (contexts i) (ofTask i turns)) := by
  induction turns generalizing company alone with
  | nil => exact agrees
  | cons turn rest ih =>
    obtain ⟨j, turn⟩ := turn
    have later := take_takes shared all takes (j, turn)
    rw [ofTask_cons]
    by_cases own : j = i
    · subst own
      rw [if_pos rfl]
      exact ih (agrees.take_own (shared j) (all.after takes) (all.after takesAlone) turn) later
        (course_take_takes (shared j) all takesAlone turn)
    · rw [if_neg own]
      exact ih (agrees.take_other own turn) later takesAlone

/-! ## The records of a split -/

/-- Where every task hands over records of its own split only, the records of a split are
those of its task. -/
theorem filter_accepted {ids : ι → SplitId} (distinct : Function.Injective ids)
    {entries : List (ι × Occurrence)}
    (own : ∀ j, ∀ record ∈ Trace.accepted (ofTask j entries), record.split = ids j) (i : ι) :
    (Trace.accepted (entries.map Prod.snd)).filter (fun record => record.split = ids i) =
      Trace.accepted (ofTask i entries) := by
  induction entries with
  | nil => rfl
  | cons entry rest ih =>
    obtain ⟨j, occurrence⟩ := entry
    have apart (trace : Trace) : Trace.accepted (occurrence :: trace) =
        Trace.accepted [occurrence] ++ trace.accepted :=
      Trace.accepted_append [occurrence] trace
    have others : ∀ k, ∀ record ∈ Trace.accepted (ofTask k rest), record.split = ids k := by
      intro k record member
      refine own k record ?_
      rw [ofTask_cons]
      split
      · rw [apart]
        exact List.mem_append_right _ member
      · exact member
    have now : ∀ record ∈ Trace.accepted [occurrence], record.split = ids j := by
      intro record member
      refine own j record ?_
      rw [ofTask_cons, if_pos rfl, apart]
      exact List.mem_append_left _ member
    rw [List.map_cons, apart, List.filter_append, ih others, ofTask_cons]
    by_cases mine : j = i
    · subst mine
      rw [if_pos rfl, apart (ofTask j rest),
        List.filter_eq_self.mpr fun record member => decide_eq_true (now record member)]
    · rw [if_neg mine, List.filter_eq_nil_iff.mpr, List.nil_append]
      intro record member
      rw [now record member, decide_eq_true_iff]
      exact fun same => mine (distinct same)

/-- Any number of tasks with different splits are executed at the same time, each by an engine of
its own, with one sink that takes everything; their steps, and the closes of others, come in any
order. The sink is as the records of all tasks have made it. Of these, the records of a split are
the ones that its task hands over when it takes the same turns alone, and the task itself is
where it would be alone. An END watermark among the records of a split is the last of them and
the only one. -/
theorem splits_do_not_interfere (contexts : ∀ i, TaskContext (ε i) (ρ i) κ) {outlet : Outlet κ}
    {sink : κ} (shared : ∀ i, (contexts i).outlet = outlet) (all : outlet.TakesAll sink)
    {ranges : ι → Range} (distinct : Function.Injective fun i => (ranges i).id)
    (engines : ∀ i, ε i) (turns : List (ι × Turn)) :
    let company := (start (fun i => .create (ranges i)) engines sink).takeAll contexts turns
    outlet.Takes sink company.accepted company.sink ∧
    ∀ i,
      let alone :=
        (Course.start (.create (ranges i)) ⟨engines i, sink⟩).takeAll (contexts i) (ofTask i turns)
      let own := company.accepted.filter fun record => record.split = (ranges i).id
      own = alone.trace.accepted ∧ company.runs i = alone.run ∧
      ∀ record ∈ own, record.isEnd = true →
        ∃ before, own = before ++ [record] ∧ ∀ earlier ∈ before, earlier.isEnd = false := by
  intro company
  have agrees (i : ι) : company.Agrees i
      ((Course.start (.create (ranges i)) ⟨engines i, sink⟩).takeAll (contexts i)
        (ofTask i turns)) :=
    Agrees.takeAll ⟨rfl, rfl, rfl⟩ shared all (.nil sink) (.nil sink) turns
  have orderly (i : ι) : Trace.Orderly (ranges i) (ofTask i company.trace) := by
    rw [(agrees i).trace]
    exact (Course.proper_takeAll (contexts i) (ranges i) ⟨engines i, sink⟩ (ofTask i turns)).orderly
  refine ⟨takes_takeAll shared all (.nil sink) turns, fun i => ?_⟩
  intro alone own
  have hown : own = Trace.accepted (ofTask i company.trace) :=
    filter_accepted distinct (fun j record member => ((orderly j).accepted_offers member).split) i
  refine ⟨?_, (agrees i).run, ?_⟩
  · rw [hown, (agrees i).trace]
  · intro record member isEnd
    rw [hown] at member ⊢
    exact (orderly i).endWatermark_last member isEnd

/-- A bounded and an unbounded split take turns, and the unbounded one is closed while the sink
has its record. -/
theorem bounded_and_unbounded_side_by_side :
    let unbounded := Range.unbounded ⟨"split-1"⟩ (Sample.scn 100)
    let ranges : Bool → Range := fun i => if i then Sample.split else unbounded
    let engine := playedEngine [.move (.signal (.change (Sample.insert "ORDERS" 150))),
      .move (.signal (.advance (Sample.scn 250))),
      .move (.signal (.change (Sample.insert "ORDERS" 260)))]
    let context : TaskContext Unit (List PlayedMove) Recorder :=
      ⟨engine, Sink.outlet Recorder.sink, .named "ORCLCDB", .ofMillis 1⟩
    let both : List (Bool × Turn) := [(true, .step), (false, .step)]
    let turns := both ++ both ++ [(false, .close)] ++ both ++ both ++ both ++ both
    let company :=
      (start (fun i => .create (ranges i)) (fun _ => ()) .fresh).takeAll (fun _ => context) turns
    let own (i : Bool) := company.sink.records.filter fun record => record.split = (ranges i).id
    company.sink.records.length = 3 ∧
      own true =
        [.change ⟨"split-0"⟩ (Sample.insert "ORDERS" 150),
          .watermark ⟨⟨"split-0"⟩, Sample.scn 250, .ending⟩] ∧
      own false = [.change ⟨"split-1"⟩ (Sample.insert "ORDERS" 150)] := by
  intro unbounded ranges engine context both turns company own
  have distinct : Function.Injective fun i => (ranges i).id := by
    intro i j same
    cases i <;> cases j <;> first | rfl | (revert same; decide)
  have all : (Sink.outlet Recorder.sink).TakesAll .fresh := Recorder.takesAll rfl
  obtain ⟨-, alone⟩ :=
    splits_do_not_interfere (fun _ => context) (fun _ => rfl) all distinct (fun _ => ()) turns
  have kept : company.sink.records = company.accepted := by decide
  have records (i : Bool) : own i = company.accepted.filter fun record =>
      record.split = (ranges i).id :=
    congrArg (List.filter fun record => record.split = (ranges i).id) kept
  refine ⟨by decide, (records true).trans ((alone true).1.trans ?_),
    (records false).trans ((alone false).1.trans ?_)⟩
  · decide
  · decide

end Company

end ChangeStream
