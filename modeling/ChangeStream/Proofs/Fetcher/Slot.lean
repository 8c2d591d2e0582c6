import ChangeStream.Proofs.Fetcher.Books

/-!
# The worker slot

Nobody has collected the outcome of the thread whose handle is in the worker slot, or of a thread
whose handle was lost; all other threads have come to their end. The handle in the slot is one on
the thread that was started last, which runs the current task. The failures that a caller has seen
are those of all other threads, each of them once, in the order in which the threads were started.
The records come thread by thread, but for those of a thread whose handle was lost.
-/

namespace ChangeStream

variable {ε ρ : Type}

/-- The failure that the result of a thread is. -/
def FetchThread.failure (thread : FetchThread ρ) : Option FetchError :=
  thread.run.result?.bind (Fetcher.outcomeError thread.run.task.range.id)

/-- A close from outside does not change how a thread comes out. -/
theorem FetchThread.failure_close (thread : FetchThread ρ) :
    FetchThread.failure { thread with run := thread.run.close } = thread.failure := by
  simp only [failure, TaskRun.close_result?, TaskRun.close_task_range]

/-- The failures that the thread of a split can come out with. -/
inductive FetchError.FailureOf (split : SplitId) : FetchError → Prop
  | engine (cause : EngineError) : FailureOf split (.engine cause)
  | alreadyExecuted : FailureOf split (.alreadyExecuted split)
  | panicked : FailureOf split (.taskPanicked split)

theorem TaskResult.Of.failureOf {split : SplitId} {result : TaskResult} (own : result.Of split)
    {error : FetchError} (failure : Fetcher.outcomeError split result = some error) :
    error.FailureOf split := by
  cases own with
  | ok => cases failure
  | engine cause =>
    obtain rfl := Option.some.inj failure
    exact .engine cause
  | alreadyExecuted =>
    obtain rfl := Option.some.inj failure
    exact .alreadyExecuted
  | panicked message =>
    obtain rfl := Option.some.inj failure
    exact .panicked

theorem TaskRun.Accountable.own {told : Prop} {run : TaskRun ρ} (h : run.Accountable told)
    {result : TaskResult} (exited : run.result? = some result) : result.Of run.task.range.id := by
  cases h with
  | exited own blamed =>
    obtain rfl := Option.some.inj exited
    exact own
  | starting | executing | settled => cases exited

namespace Fetcher

variable {f g : Fetcher ε ρ} {lost without : List Nat} {slot : Option WorkerHandle}
  {worker : WorkerHandle} {result : TaskResult} {surfaced : List FetchError} {i : Nat}

theorem isFinished_iff : f.isFinished = true ↔ f.worker = none ∧ f.shared.sink.records = [] := by
  rw [isFinished, Bool.and_eq_true, Option.isNone_iff_eq_none, ← Queue.isEmpty_toList,
    List.isEmpty_iff]
  rfl

/-! ## Threads by their places -/

/-- The split that a thread reads. -/
def splitOf? (f : Fetcher ε ρ) (i : Nat) : Option SplitId :=
  f.threads[i]?.map fun thread => thread.run.task.range.id

/-- The failure of a thread, if it has come to its end with one. -/
def failureOf? (f : Fetcher ε ρ) (i : Nat) : Option FetchError :=
  f.threads[i]?.bind FetchThread.failure

/-- Whether a thread has not come to its end. -/
def AtWork (f : Fetcher ε ρ) (i : Nat) : Prop :=
  ∃ thread, f.threads[i]? = some thread ∧ thread.hasExited = false

/-- The failures of the threads but for some of them, in the order in which they were started. -/
def failures (f : Fetcher ε ρ) (without : List Nat) : List FetchError :=
  ((List.range f.threads.length).filter (· ∉ without)).filterMap f.failureOf?

theorem mem_failures {thread : FetchThread ρ} {error : FetchError}
    (present : f.threads[i]? = some thread) (counted : i ∉ without)
    (failure : thread.failure = some error) : error ∈ f.failures without := by
  refine List.mem_filterMap.mpr ⟨i, List.mem_filter.mpr ⟨?_, decide_eq_true counted⟩, ?_⟩
  · exact List.mem_range.mpr (List.getElem?_eq_some_iff.mp present).1
  · rw [failureOf?, present, Option.bind_some, failure]

/-- With no thread left out these are the failures of all threads. -/
theorem failures_nil (f : Fetcher ε ρ) :
    f.failures [] = f.threads.filterMap FetchThread.failure := by
  have places : (List.range f.threads.length).map (f.threads[·]?) = f.threads.map some :=
    List.ext_getElem (by simp) fun i _ _ => by simp
  calc
    f.failures [] = (List.range f.threads.length).filterMap f.failureOf? := by
      rw [failures, List.filter_eq_self.mpr fun _ _ => decide_eq_true List.not_mem_nil]
    _ = ((List.range f.threads.length).map (f.threads[·]?)).filterMap
        (·.bind FetchThread.failure) := by
      rw [List.filterMap_map]
      rfl
    _ = f.threads.filterMap FetchThread.failure := by
      rw [places, List.filterMap_map]
      rfl

theorem failures_congr (length : g.threads.length = f.threads.length)
    (same : ∀ i ∉ without, g.failureOf? i = f.failureOf? i) :
    g.failures without = f.failures without := by
  rw [failures, failures, length]
  refine List.filterMap_congr fun i member => same i ?_
  exact of_decide_eq_true (List.mem_filter.mp member).2

/-- With the last thread left out these are the failures of the threads before it. -/
theorem failures_cons (last : f.threads.length = i + 1) :
    f.failures (i :: without) =
      ((List.range i).filter (· ∉ without)).filterMap f.failureOf? := by
  have earlier : (List.range i).filter (· ∉ i :: without) =
      (List.range i).filter (· ∉ without) := by
    refine List.filter_congr fun j member => ?_
    have different : j ≠ i := Nat.ne_of_lt (List.mem_range.mp member)
    simp [different]
  have leftOut : [i].filter (· ∉ i :: without) = [] := by simp
  rw [failures, last, List.range_succ, List.filter_append, earlier, leftOut, List.append_nil]

/-- The failure of the last thread comes last. -/
theorem failures_last (last : f.threads.length = i + 1) (counted : i ∉ without) :
    f.failures without = f.failures (i :: without) ++ (f.failureOf? i).toList := by
  have itself : ([i].filter (· ∉ without)).filterMap f.failureOf? = (f.failureOf? i).toList := by
    cases hfailure : f.failureOf? i <;> simp [counted, hfailure]
  rw [failures_cons last, failures, last, List.range_succ, List.filter_append,
    List.filterMap_append, itself]

/-- Starting a thread leaves the failures of the others. -/
theorem failures_startThread (f : Fetcher ε ρ) (task : FetchTask) (without : List Nat) :
    (f.startThread task).failures (f.threads.length :: without) = f.failures without := by
  rw [failures_cons List.length_append]
  refine List.filterMap_congr fun i member => ?_
  have earlier : i < f.threads.length := List.mem_range.mp (List.mem_filter.mp member).1
  have same : (f.startThread task).threads[i]? = f.threads[i]? :=
    List.getElem?_append_left earlier
  rw [failureOf?, failureOf?, same]

/-! ## Threads that go on -/

/-- The threads have gone on or were closed; none was started. -/
structure Continues (f g : Fetcher ε ρ) : Prop where
  length : g.threads.length = f.threads.length
  current : g.current = f.current
  split (i : Nat) : g.splitOf? i = f.splitOf? i
  failure (i : Nat) : g.failureOf? i = f.failureOf? i ∨ f.AtWork i
  atWork {i : Nat} : g.AtWork i → f.AtWork i

theorem Continues.of_same_threads (threads : g.threads = f.threads)
    (current : g.current = f.current) :
    f.Continues g where
  length := congrArg List.length threads
  current := current
  split i := by rw [splitOf?, splitOf?, threads]
  failure i := .inl (by rw [failureOf?, failureOf?, threads])
  atWork working := by rwa [AtWork, ← threads]

theorem Change.continues (change : f.Change g) : f.Continues g := by
  cases change with
  | rest | take => exact .of_same_threads rfl rfl
  | @turn i thread run shared received trace present working range =>
    -- Only the thread that has gone on is another one, and it was at work.
    have self : (f.threads.set i { thread with run })[i]? = some { thread with run } :=
      List.getElem?_set_self (List.getElem?_eq_some_iff.mp present).1
    have others {j : Nat} (other : j ≠ i) :
        (f.threads.set i { thread with run })[j]? = f.threads[j]? :=
      List.getElem?_set_ne other.symm
    refine ⟨List.length_set, rfl, fun j => ?_, fun j => ?_, fun {j} => ?_⟩
    all_goals by_cases same : j = i
    · subst same
      rw [splitOf?, splitOf?, record_threads, self, present, Option.map_some, Option.map_some,
        range]
    · rw [splitOf?, splitOf?, record_threads, others same]
    · exact .inr (same ▸ ⟨thread, present, working⟩)
    · exact .inl (by rw [failureOf?, failureOf?, record_threads, others same])
    · exact fun _ => same ▸ ⟨thread, present, working⟩
    · rw [AtWork, record_threads, others same]
      exact id

theorem closeTask_continues (f : Fetcher ε ρ) : f.Continues f.closeTask := by
  cases hcurrent : f.current with
  | none =>
    have same : f.closeTask = f := by simp only [closeTask, hcurrent]
    rw [same]
    exact .of_same_threads rfl rfl
  | some c =>
    have threads : f.closeTask.threads =
        f.threads.modify c fun thread => { thread with run := thread.run.close } := by
      simp only [closeTask, hcurrent]
    refine ⟨(closeTask_fields f).2, by rw [(closeTask_fields f).1], fun j => ?_,
      fun j => .inl ?_, ?_⟩
    · rw [splitOf?, splitOf?, threads, List.getElem?_modify]
      split <;> simp [TaskRun.close_task_range, Function.comp_def]
    · rw [failureOf?, failureOf?, threads, List.getElem?_modify]
      split <;> cases f.threads[j]? <;> simp [FetchThread.failure_close]
    · rintro j ⟨other, present, working⟩
      obtain ⟨thread, hthread, rfl | rfl⟩ := thread_of_closeTask present
      · exact ⟨other, hthread, working⟩
      · refine ⟨thread, hthread, ?_⟩
        rwa [FetchThread.hasExited, TaskRun.close_result?] at working

/-! ## The handle in the slot -/

/-- A handle on the thread that was started last and runs the current task. -/
structure Holds (f : Fetcher ε ρ) (worker : WorkerHandle) : Prop where
  last : f.threads.length = worker.thread + 1
  current : f.current = some worker.thread
  split : f.splitOf? worker.thread = some worker.split

namespace Holds

theorem continues (holds : f.Holds worker) (continues : f.Continues g) : g.Holds worker where
  last := continues.length.trans holds.last
  current := continues.current.trans holds.current
  split := (continues.split worker.thread).trans holds.split

theorem thread (holds : f.Holds worker) :
    ∃ thread, f.threads[worker.thread]? = some thread ∧ worker.split = thread.run.task.range.id ∧
      f.outcome? worker.thread = thread.run.result? := by
  obtain ⟨thread, present, split⟩ := Option.map_eq_some_iff.mp holds.split
  exact ⟨thread, present, split.symm, by rw [outcome?, present, Option.bind_some]⟩

/-- A thread whose outcome cannot be collected yet is at work. -/
theorem atWork_iff (holds : f.Holds worker) :
    f.AtWork worker.thread ↔ f.outcome? worker.thread = none := by
  obtain ⟨thread, present, -, outcome⟩ := holds.thread
  rw [outcome]
  constructor
  · rintro ⟨other, also, working⟩
    obtain rfl := Option.some.inj (present.symm.trans also)
    exact Option.isSome_eq_false_iff.mp working |> Option.isNone_iff_eq_none.mp
  · intro unfinished
    exact ⟨thread, present, by rw [FetchThread.hasExited, unfinished]; rfl⟩

/-- The failure that a call collects is that of the thread. -/
theorem failureOf? (holds : f.Holds worker) :
    f.failureOf? worker.thread = (f.outcome? worker.thread).bind (outcomeError worker.split) := by
  obtain ⟨thread, present, split, outcome⟩ := holds.thread
  rw [Fetcher.failureOf?, present, Option.bind_some, outcome, split, FetchThread.failure]

end Holds

/-! ## What is owed -/

/-- The threads of which nobody has collected the outcome: the one whose handle is in the slot, and
those whose handles were lost. -/
def outstanding (lost : List Nat) (slot : Option WorkerHandle) : List Nat :=
  (slot.map WorkerHandle.thread).toList ++ lost

theorem mem_outstanding : i ∈ outstanding lost slot ↔
    (∃ worker, slot = some worker ∧ worker.thread = i) ∨ i ∈ lost := by
  rw [outstanding, List.mem_append, Option.mem_toList, Option.map_eq_some_iff]

/-- What is known of the threads from a worker slot, from the handles that were lost and from the
failures that have been returned. -/
structure Owes (f : Fetcher ε ρ) (lost : List Nat) (slot : Option WorkerHandle)
    (surfaced : List FetchError) : Prop where
  within : ∀ i ∈ lost, i < f.threads.length
  held {worker : WorkerHandle} : slot = some worker → f.Holds worker ∧ worker.thread ∉ lost
  outstanding {i : Nat} : f.AtWork i → i ∈ outstanding lost slot
  surfaced_eq : surfaced = f.failures (Fetcher.outstanding lost slot)
  ordered : f.accepted.Pairwise fun earlier later => earlier.1 ≤ later.1 ∨ later.1 ∈ lost

/-- A new fetcher owes nothing. -/
theorem owes_create (engine : ε) (source : Source) (config : FetchSettings) :
    (create engine source config : Fetcher ε ρ).Owes [] none [] where
  within _ member := absurd member List.not_mem_nil
  held := nofun
  outstanding := by
    rintro i ⟨thread, present, -⟩
    cases present
  surfaced_eq := rfl
  ordered := .nil

namespace Owes

theorem withWorker (owes : f.Owes lost slot surfaced) (other : Option WorkerHandle) :
    Owes { f with worker := other } lost slot surfaced where
  within := owes.within
  held holds := ⟨⟨(owes.held holds).1.last, (owes.held holds).1.current, (owes.held holds).1.split⟩,
    (owes.held holds).2⟩
  outstanding := owes.outstanding
  surfaced_eq := owes.surfaced_eq
  ordered := owes.ordered

theorem continues (owes : f.Owes lost slot surfaced) (continues : f.Continues g)
    (ordered : g.accepted.Pairwise fun earlier later => earlier.1 ≤ later.1 ∨ later.1 ∈ lost) :
    g.Owes lost slot surfaced where
  within i member := by
    rw [continues.length]
    exact owes.within i member
  held holds := ⟨(owes.held holds).1.continues continues, (owes.held holds).2⟩
  outstanding working := owes.outstanding (continues.atWork working)
  surfaced_eq := by
    rw [owes.surfaced_eq]
    refine (failures_congr continues.length fun i collected => ?_).symm
    exact (continues.failure i).resolve_right fun working => collected (owes.outstanding working)
  ordered := ordered

theorem closeTask (owes : f.Owes lost slot surfaced) : f.closeTask.Owes lost slot surfaced := by
  refine owes.continues f.closeTask_continues ?_
  rw [(closeTask_fields f).1]
  exact owes.ordered

/-- Only the last thread can go on, or one whose handle was lost. -/
theorem last_of_atWork (owes : f.Owes lost slot surfaced) (working : f.AtWork i) :
    i + 1 = f.threads.length ∨ i ∈ lost := by
  refine (mem_outstanding.mp (owes.outstanding working)).imp ?_ id
  rintro ⟨worker, holds, rfl⟩
  exact (owes.held holds).1.last.symm

theorem change (owes : f.Owes lost slot surfaced) (sound : f.Sound) (change : f.Change g) :
    g.Owes lost slot surfaced := by
  refine owes.continues change.continues ?_
  cases change with
  | rest | take => exact owes.ordered
  | @turn i thread run shared received trace present working =>
    rw [accepted_of_history (history_record ..), List.pairwise_append]
    refine ⟨owes.ordered, ?_, ?_⟩
    · exact List.pairwise_map.mpr (List.pairwise_of_forall fun _ _ => .inl (Nat.le_refl i))
    · intro earlier hearlier later hlater
      have before : earlier.1 < f.threads.length := fst_lt_of_mem_accepted sound.places hearlier
      obtain ⟨record, -, rfl⟩ := List.mem_map.mp hlater
      refine (owes.last_of_atWork ⟨thread, present, working⟩).imp (fun last => ?_) id
      change earlier.1 ≤ i
      omega

theorem flow {engine : LogEngine ε ρ} {records : List Record} (owes : f.Owes lost slot surfaced)
    (sound : f.Sound) (flow : Flow engine f records g) : g.Owes lost slot surfaced :=
  (flow.preserves (fun f => f.Sound ∧ f.Owes lost slot surfaced) (fun _ both => both.1.connected)
    (fun _ _ both change => ⟨both.1.change change, both.2.change both.1 change⟩) ⟨sound, owes⟩).2

theorem own (owes : f.Owes lost (some worker) surfaced) (sound : f.Sound)
    (exited : f.outcome? worker.thread = some result) : result.Of worker.split := by
  obtain ⟨thread, present, split, outcome⟩ := (owes.held rfl).1.thread
  rw [outcome] at exited
  rw [split]
  exact (sound.accountable _ thread present).own exited

/-- Once the thread in the slot has come to its end, its failure is the next to come out. -/
theorem collect (owes : f.Owes lost (some worker) surfaced)
    (exited : f.outcome? worker.thread = some result) :
    f.Owes lost none (surfaced ++ (outcomeError worker.split result).toList) := by
  obtain ⟨holds, unlost⟩ := owes.held rfl
  refine ⟨owes.within, nofun, fun working => ?_, ?_, owes.ordered⟩
  · rcases List.mem_cons.mp (owes.outstanding working) with rfl | also
    · rw [holds.atWork_iff, exited] at working
      cases working
    · exact also
  · have failure := holds.failureOf?
    rw [exited, Option.bind_some] at failure
    rw [owes.surfaced_eq, ← failure]
    exact (failures_last holds.last unlost).symm

/-- A handle that is lost is no longer in the slot, and the outcome of its thread
stays where it is. -/
theorem lose (owes : f.Owes lost slot surfaced) :
    f.Owes (Fetcher.outstanding lost slot) none surfaced where
  within i member := by
    rcases mem_outstanding.mp member with ⟨worker, holds, rfl⟩ | before
    · rw [(owes.held holds).1.last]
      exact Nat.lt_succ_self _
    · exact owes.within i before
  held := nofun
  outstanding := owes.outstanding
  surfaced_eq := owes.surfaced_eq
  ordered := owes.ordered.imp fun order => order.imp id (List.mem_append_right _)

theorem reap {error : Option FetchError} (owes : f.Owes lost f.worker surfaced)
    (reaps : f.Reaps error g) : g.Owes lost g.worker (surfaced ++ error.toList) := by
  cases reaps with
  | vacant vacant => rwa [Option.toList_none, List.append_nil]
  | working held working => rwa [Option.toList_none, List.append_nil]
  | collected held exited =>
    rw [held] at owes
    exact (owes.collect exited).withWorker none

/-- Where nothing is collected, nothing changes hands. -/
theorem reap_none (owes : f.Owes lost f.worker surfaced) (reaps : f.Reaps none g) :
    g.Owes lost g.worker surfaced := by
  have later := owes.reap reaps
  rwa [Option.toList_none, List.append_nil] at later

theorem failureOf_of_reaps {error : FetchError} (owes : f.Owes lost f.worker surfaced)
    (sound : f.Sound) (reaps : f.Reaps (some error) g) : ∃ split, error.FailureOf split := by
  generalize hdue : some error = due at reaps
  cases reaps with
  | vacant | working => cases hdue
  | @collected worker result held exited =>
    rw [held] at owes
    exact ⟨worker.split, (owes.own sound exited).failureOf hdue.symm⟩

theorem start (owes : f.Owes lost none surfaced) (task : FetchTask) :
    (f.startThread task).Owes lost (f.startThread task).worker surfaced := by
  have length : (f.startThread task).threads.length = f.threads.length + 1 := List.length_append
  have last : (f.startThread task).threads[f.threads.length]? = some
      ⟨threadName f.config.threadLabel task.range.id, .starting task⟩ :=
    List.getElem?_concat_length
  have fresh : f.threads.length ∉ lost := fun member => Nat.lt_irrefl _ (owes.within _ member)
  refine ⟨fun i member => ?_, ?_, ?_, ?_, owes.ordered⟩
  · rw [length]
    exact Nat.lt_succ_of_lt (owes.within i member)
  · intro worker holds
    obtain rfl := Option.some.inj holds
    exact ⟨⟨length, rfl, congrArg (Option.map _) last⟩, fresh⟩
  · rintro i ⟨thread, present, working⟩
    rcases thread_of_startThread present with before | ⟨rfl, -⟩
    · exact List.mem_cons_of_mem _ (owes.outstanding ⟨thread, before, working⟩)
    · exact List.mem_cons_self
  · rw [owes.surfaced_eq]
    exact (failures_startThread f task lost).symm

/-- Where the slot is empty, every thread has come to its end whose handle was not lost. -/
theorem exited (owes : f.Owes lost none surfaced) {thread : FetchThread ρ}
    (present : f.threads[i]? = some thread) (unlost : i ∉ lost) : thread.hasExited = true := by
  rw [← Bool.not_eq_false]
  exact fun working => unlost (owes.outstanding ⟨thread, present, working⟩)

theorem all_exited (owes : f.Owes [] none surfaced) :
    ∀ thread ∈ f.threads, thread.hasExited = true := by
  intro thread member
  obtain ⟨i, present⟩ := List.mem_iff_getElem?.mp member
  exact owes.exited present List.not_mem_nil

/-- What has come out and what is due are all failures but those of the threads whose handles were
lost. -/
theorem total (owes : f.Owes lost f.worker surfaced) :
    surfaced ++ f.uncollected.toList = f.failures lost := by
  cases hworker : f.worker with
  | none =>
    rw [hworker] at owes
    rw [owes.surfaced_eq, uncollected, hworker, Option.bind_none, Option.toList_none,
      List.append_nil]
    rfl
  | some worker =>
    rw [hworker] at owes
    obtain ⟨holds, unlost⟩ := owes.held rfl
    rw [owes.surfaced_eq, uncollected, hworker, Option.bind_some, ← holds.failureOf?]
    exact (failures_last holds.last unlost).symm

end Owes

end Fetcher

end ChangeStream
