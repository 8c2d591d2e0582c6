import ChangeStream.Proofs.Fetcher.Slot

/-!
# Fetchers in use

The caller of a fetcher makes one call after the other; between the calls, and while one waits, the
threads go on, and whoever holds the current task may close it. A close that runs beyond the clock
breaks off and loses the handle that it has taken out of the slot; the fetcher can still be called.
The invariants of a fetcher in use say what the answers so far have to do with its state.
-/

namespace ChangeStream

variable {ε ρ : Type}

/-- The longest length of time. -/
def Duration.longest : Duration := ⟨Nat.pow 2 64 - 1, nanosPerSecond - 1, by decide, by decide⟩

namespace Fetcher

/-- A call of a fetcher. What the threads do while it waits comes with it. -/
inductive Call
  | submit (task : FetchTask) (spawnFailure : Option String)
  | poll (pauses : List Pause)
  | close (now timeout : Duration) (pauses : List Pause)

/-- What a call comes back with, and the records that it has discarded. -/
inductive Answer
  | submitted (result : Except FetchError Unit)
  | polled (result : Except FetchError (List Record))
  | closed (outcome : CloseOutcome) (discarded : List Record)

/-- What a call returns and what becomes of the fetcher. -/
def perform (engine : LogEngine ε ρ) (f : Fetcher ε ρ) : Call → Answer × Fetcher ε ρ
  | .submit task spawnFailure =>
    let (result, later) := f.submit task spawnFailure
    (.submitted result, later)
  | .poll pauses =>
    let (result, later) := f.poll engine pauses
    (.polled result, later)
  | .close now timeout pauses =>
    let (outcome, later) := f.close engine now timeout pauses
    (.closed outcome (later.taken.drop f.taken.length), later)

end Fetcher

/-- Whether an error says that a submission came to nothing, and not how a thread came out. -/
def FetchError.isRefusal : FetchError → Bool
  | fetcherBusy _ | spawn _ => true
  | engine _ | dispatch .. | invalidRange .. | alreadyExecuted _ | taskPanicked _ => false

theorem FetchError.FailureOf.isRefusal_eq_false {split : SplitId} {error : FetchError}
    (failure : error.FailureOf split) : error.isRefusal = false := by
  cases failure <;> rfl

namespace Fetcher.Answer

/-- The records that a call returns. -/
def batch : Answer → List Record
  | polled (.ok batch) => batch
  | submitted _ | polled (.error _) | closed .. => []

/-- The records that a call takes out: the ones it returns, or discards. -/
def taken : Answer → List Record
  | closed _ discarded => discarded
  | submitted result => batch (submitted result)
  | polled result => batch (polled result)

/-- The error that a call returns. -/
def error? : Answer → Option FetchError
  | submitted (.error error) | polled (.error error) | closed (.returned (.error error)) _ =>
    some error
  | submitted (.ok _) | polled (.ok _) | closed (.returned (.ok _)) _ | closed .clockOverflow _ =>
    none

/-- The failure of a thread that a call returns. -/
def failure? (answer : Answer) : Option FetchError :=
  answer.error?.filter fun error => !error.isRefusal

/-- Whether the call has broken off. -/
def breaksOff : Answer → Bool
  | closed .clockOverflow _ => true
  | submitted _ | polled _ | closed (.returned _) _ => false

theorem failure?_of_failureOf {answer : Answer} {split : SplitId} {error : FetchError}
    (returned : answer.error? = some error) (failure : error.FailureOf split) :
    answer.failure? = some error := by
  rw [failure?, returned, Option.filter_some, failure.isRefusal_eq_false]
  rfl

/-- A call that returns an error has not broken off. -/
theorem breaksOff_of_error {answer : Answer} {error : FetchError}
    (returned : answer.error? = some error) : answer.breaksOff = false := by
  cases answer with
  | submitted | polled => rfl
  | closed outcome =>
    cases outcome with
    | returned => rfl
    | clockOverflow => cases returned

end Fetcher.Answer

namespace Fetcher

variable {engine : LogEngine ε ρ} {f g : Fetcher ε ρ} {lost : List Nat} {surfaced : List FetchError}

/-! ## What a call preserves -/

/-- The threads whose handles are lost when a call has come back. One that breaks off loses the
handle that was in the slot. -/
def lostAfter (f : Fetcher ε ρ) (lost : List Nat) (answer : Answer) : List Nat :=
  if answer.breaksOff then outstanding lost f.worker else lost

/-- A call leaves a sound fetcher, it has taken out what it says, and a failure that it returns is
the one that was due. -/
structure Passes (f : Fetcher ε ρ) (lost : List Nat) (surfaced : List FetchError) (answer : Answer)
    (g : Fetcher ε ρ) : Prop where
  sound : g.Sound
  taken : g.taken = f.taken ++ answer.taken
  owes : g.Owes (f.lostAfter lost answer) g.worker (surfaced ++ answer.failure?.toList)
  failureOf {error : FetchError} : answer.failure? = some error → ∃ split, error.FailureOf split

/-- A call that returns no failure leaves what is owed as it is, but for a handle that it loses. -/
theorem Passes.quiet {answer : Answer} (quiet : answer.failure? = none) (sound : g.Sound)
    (taken : g.taken = f.taken ++ answer.taken)
    (owes : g.Owes (f.lostAfter lost answer) g.worker surfaced) :
    f.Passes lost surfaced answer g where
  sound := sound
  taken := taken
  owes := by rwa [quiet, Option.toList_none, List.append_nil]
  failureOf returned := by
    rw [quiet] at returned
    cases returned

/-- A failure that a call returns is owed no longer. -/
theorem Passes.failed {answer : Answer} {error : FetchError} {split : SplitId}
    (returned : answer.error? = some error) (own : error.FailureOf split) (sound : g.Sound)
    (taken : g.taken = f.taken ++ answer.taken)
    (owes : g.Owes lost g.worker (surfaced ++ [error])) : f.Passes lost surfaced answer g := by
  have failure : answer.failure? = some error := Answer.failure?_of_failureOf returned own
  refine ⟨sound, taken, ?_, fun {other} also => ?_⟩
  · rwa [lostAfter, Answer.breaksOff_of_error returned, failure]
  · rw [failure] at also
    obtain rfl := Option.some.inj also
    exact ⟨split, own⟩

theorem Reaps.sound {error : Option FetchError} (sound : f.Sound)
    (reaps : f.Reaps error g) : g.Sound := by
  cases reaps with
  | vacant | working => exact sound
  | collected => exact sound.withWorker none

/-- Collecting an outcome has nothing to do with the queue. -/
theorem Reaps.kept {error : Option FetchError} (reaps : f.Reaps error g) :
    g.shared = f.shared ∧ g.threads = f.threads ∧ g.taken = f.taken := by
  cases reaps <;> exact ⟨rfl, rfl, rfl⟩

theorem Reaps.passes {error : FetchError} {answer : Answer} (reaps : f.Reaps (some error) g)
    (sound : f.Sound) (owes : f.Owes lost f.worker surfaced) (returned : answer.error? = some error)
    (nothing : answer.taken = []) : f.Passes lost surfaced answer g := by
  obtain ⟨split, own⟩ := owes.failureOf_of_reaps sound reaps
  refine .failed returned own (reaps.sound sound) ?_ (owes.reap reaps)
  rw [reaps.kept.2.2, nothing, List.append_nil]

theorem Submits.passes {task : FetchTask} {spawnFailure : Option String}
    {result : Except FetchError Unit} (submits : f.Submits task spawnFailure result g)
    (sound : f.Sound) (owes : f.Owes lost f.worker surfaced) :
    f.Passes lost surfaced (.submitted result) g := by
  have nothing {g : Fetcher ε ρ} (reaps : f.Reaps none g) : g.taken = f.taken ++ [] :=
    reaps.kept.2.2.trans (List.append_nil _).symm
  cases submits with
  | busy held working => exact .quiet rfl sound (List.append_nil _).symm owes
  | failed reaps => exact reaps.passes sound owes rfl rfl
  | unspawned reaps vacant refused =>
    exact .quiet rfl (reaps.sound sound) (nothing reaps) (owes.reap_none reaps)
  | started reaps vacant spawned =>
    have kept := nothing reaps
    have idle := owes.reap_none reaps
    rw [vacant] at idle
    exact .quiet rfl ((reaps.sound sound).startThread task) kept (idle.start task)

theorem Polls.passes {result : Except FetchError (List Record)} (polls : f.Polls engine result g)
    (sound : f.Sound) (owes : f.Owes lost f.worker surfaced) :
    f.Passes lost surfaced (.polled result) g := by
  cases polls with
  | reported pending =>
    rw [sound.quiet] at pending
    cases pending
  | failed quiet reaps => exact reaps.passes sound owes rfl rfl
  | drained quiet reaps flow =>
    have between := reaps.sound sound
    have same := (owes.reap_none reaps).flow between flow
    rw [← between.flow_worker flow] at same
    refine .quiet rfl (between.flow flow) ?_ same
    rw [flow.taken, reaps.kept.2.2]
    rfl

/-- Where nothing is reported, a close that has no thread to wait for comes back
without an error. -/
theorem Ends.of_sound {result : Except FetchError Unit} {records : List Record}
    (ends : f.Ends engine result records g) (sound : f.Sound) :
    result = .ok () ∧ Flow engine f records g := by
  cases ends with
  | reported flow pending =>
    rw [(sound.flow flow).quiet] at pending
    cases pending
  | quiet flow quiet => exact ⟨rfl, flow⟩

theorem closeTask_taken (f : Fetcher ε ρ) : f.closeTask.taken = f.taken := by
  unfold closeTask
  split <;> rfl

/-- While a close waits with the handle in its hand, what is owed for the handle stays as it is. -/
theorem Owes.whileClosing {slot : Option WorkerHandle} {records : List Record}
    (owes : f.Owes lost slot surfaced) (sound : f.Sound)
    (flow : Flow engine { f.closeTask with worker := none } records g) :
    g.Owes lost slot surfaced :=
  (owes.closeTask.withWorker none).flow (sound.closeTask.withWorker none) flow

theorem Closes.passes {now timeout : Duration} {outcome : CloseOutcome} {records : List Record}
    (closes : f.Closes engine now timeout outcome records g) (sound : f.Sound)
    (owes : f.Owes lost f.worker surfaced) :
    f.Passes lost surfaced (.closed outcome records) g := by
  have closed : f.closeTask.Sound := sound.closeTask
  have waiting : Sound { f.closeTask with worker := none } := closed.withWorker none
  have takes {g : Fetcher ε ρ} {records : List Record}
      (flow : Flow engine { f.closeTask with worker := none } records g) :
      g.taken = f.taken ++ records :=
    flow.taken.trans (congrArg (· ++ records) (closeTask_taken f))
  cases closes with
  | idle idle => exact .quiet rfl sound (List.append_nil _).symm owes
  | vacant vacant ends =>
    obtain ⟨rfl, flow⟩ := ends.of_sound closed
    have later := owes.closeTask.flow closed flow
    rw [← closeTask_worker f, ← closed.flow_worker flow] at later
    refine .quiet rfl (closed.flow flow) ?_ later
    rw [flow.taken, closeTask_taken]
    rfl
  | brokenOff held beyond =>
    -- The handle is lost, but what it stood for is still owed.
    exact .quiet rfl waiting (takes (.nil _)) (owes.closeTask.withWorker none).lose
  | timedOut held inTime working flow =>
    rw [held] at owes
    have taken := takes flow
    have later := owes.whileClosing sound flow
    exact .quiet rfl ((waiting.flow flow).withWorker _) taken (later.withWorker _)
  | failed held inTime flow exited failure =>
    rw [held] at owes
    have later := owes.whileClosing sound flow
    have own := (later.own (waiting.flow flow) exited).failureOf failure
    have collected := later.collect exited
    have vacant : g.worker = none := waiting.flow_worker flow
    rw [failure, ← vacant] at collected
    exact .failed rfl own (waiting.flow flow) (takes flow) collected
  | joined held inTime flow exited fine ends =>
    rw [held] at owes
    have between := waiting.flow flow
    obtain ⟨rfl, last⟩ := ends.of_sound between
    have collected := (owes.whileClosing sound flow).collect exited
    rw [fine, Option.toList_none, List.append_nil] at collected
    have later := collected.flow between last
    have vacant : g.worker = none := (between.flow_worker last).trans (waiting.flow_worker flow)
    rw [← vacant] at later
    exact .quiet rfl (between.flow last) (takes (flow.append last)) later

/-- Every call of a fetcher that is sound and knows what it owes leaves it so. -/
theorem perform_passes (engine : LogEngine ε ρ) (sound : f.Sound)
    (owes : f.Owes lost f.worker surfaced) (call : Call) :
    f.Passes lost surfaced (f.perform engine call).1 (f.perform engine call).2 := by
  cases call with
  | submit task spawnFailure => exact (f.submit_spec task spawnFailure).passes sound owes
  | poll pauses => exact (f.poll_spec engine pauses).passes sound owes
  | close now timeout pauses =>
    obtain ⟨records, closes⟩ := f.close_spec engine now timeout pauses
    have passes := closes.passes sound owes
    have discarded : (f.close engine now timeout pauses).2.taken.drop f.taken.length = records := by
      rw [passes.taken]
      exact List.drop_left
    simp only [perform, discarded]
    exact passes

end Fetcher

/-! ## Sequences of calls -/

/-- A fetcher in use, what its calls have come back with so far, and the threads whose handles are
lost. -/
structure Session (ε ρ : Type) where
  fetcher : Fetcher ε ρ
  answers : List Fetcher.Answer
  lost : List Nat

/-- What happens to a fetcher in use. -/
inductive SessionEvent
  | call (call : Fetcher.Call)
  /-- Somebody who holds the current task closes it. -/
  | closeTask
  /-- A thread makes a step. -/
  | step (thread : Nat)

namespace Session

/-- A fetcher of which no call has been made. -/
def start (fetcher : Fetcher ε ρ) : Session ε ρ := { fetcher, answers := [], lost := [] }

variable (s : Session ε ρ)

/-- Whether all calls have returned. -/
def live : Bool := s.answers.all fun answer => !answer.breaksOff

/-- The records that the polls have returned. -/
def batches : List Record := s.answers.flatMap Fetcher.Answer.batch

/-- The records that the calls have taken out. -/
def takenOut : List Record := s.answers.flatMap Fetcher.Answer.taken

/-- The failures of threads that the calls have returned. -/
def surfaced : List FetchError := s.answers.filterMap Fetcher.Answer.failure?

/-- The session after an event. -/
def take (engine : LogEngine ε ρ) (s : Session ε ρ) : SessionEvent → Session ε ρ
  | .call call =>
    let (answer, fetcher) := s.fetcher.perform engine call
    { fetcher, answers := s.answers ++ [answer], lost := s.fetcher.lostAfter s.lost answer }
  | .closeTask => { s with fetcher := s.fetcher.closeTask }
  | .step thread => { s with fetcher := s.fetcher.stepThread engine thread }

/-- The session after some events. -/
def takeAll (engine : LogEngine ε ρ) (s : Session ε ρ) (events : List SessionEvent) : Session ε ρ :=
  events.foldl (take engine) s

/-- What holds of a fetcher in use and of the answers so far. -/
structure Sound : Prop where
  fetcher : s.fetcher.Sound
  taken : s.takenOut = s.fetcher.taken
  owes : s.fetcher.Owes s.lost s.fetcher.worker s.surfaced
  failureOf (error : FetchError) : error ∈ s.surfaced → ∃ split, error.FailureOf split
  kept : s.live = true → s.lost = []

theorem sound_start (engine : ε) (source : Source) (config : FetchSettings) :
    (start (.create engine source config) : Session ε ρ).Sound where
  fetcher := Fetcher.sound_create engine source config
  taken := rfl
  owes := Fetcher.owes_create engine source config
  failureOf _ member := absurd member List.not_mem_nil
  kept _ := rfl

variable {s} {engine : LogEngine ε ρ}

theorem live_take_call (engine : LogEngine ε ρ) (s : Session ε ρ) (call : Fetcher.Call) :
    (s.take engine (.call call)).live =
      (s.live && !(s.fetcher.perform engine call).1.breaksOff) := by
  rw [Session.live, Session.live, take, List.all_append, List.all_cons, List.all_nil, Bool.and_true]

/-- An event that is no call has no answer. -/
theorem take_answers (engine : LogEngine ε ρ) (s : Session ε ρ) (event : SessionEvent) :
    (s.take engine event).answers = s.answers ∨ ∃ call, event = .call call ∧
      (s.take engine event).answers = s.answers ++ [(s.fetcher.perform engine call).1] := by
  cases event with
  | closeTask | step => exact .inl rfl
  | call call => exact .inr ⟨call, rfl, rfl⟩

theorem answers_isPrefix (engine : LogEngine ε ρ) (s : Session ε ρ) (events : List SessionEvent) :
    s.answers <+: (s.takeAll engine events).answers := by
  induction events generalizing s with
  | nil => exact List.prefix_rfl
  | cons event rest ih =>
    refine List.IsPrefix.trans ?_ (ih (s.take engine event))
    rcases s.take_answers engine event with same | ⟨call, -, more⟩
    · exact same ▸ List.prefix_rfl
    · rw [more]
      exact List.prefix_append ..

/-- As long as all calls have returned, no handle is lost. -/
theorem Sound.owes_of_live (sound : s.Sound) (live : s.live = true) :
    s.fetcher.Owes [] s.fetcher.worker s.surfaced := by
  have owes := sound.owes
  rwa [sound.kept live] at owes

theorem surfaced_take_call (engine : LogEngine ε ρ) (s : Session ε ρ) (call : Fetcher.Call) :
    (s.take engine (.call call)).surfaced =
      s.surfaced ++ (s.fetcher.perform engine call).1.failure?.toList := by
  rw [surfaced, take, List.filterMap_append, List.filterMap_cons, List.filterMap_nil]
  cases (s.fetcher.perform engine call).1.failure? <;> rfl

theorem Sound.take_call (sound : s.Sound) (call : Fetcher.Call) :
    (s.take engine (.call call)).Sound := by
  have passes := Fetcher.perform_passes engine sound.fetcher sound.owes call
  refine ⟨passes.sound, ?_, ?_, fun error member => ?_, fun live => ?_⟩
  · calc
      (s.take engine (.call call)).takenOut
          = s.takenOut ++ (s.fetcher.perform engine call).1.taken := by
        rw [takenOut, take, List.flatMap_append, List.flatMap_singleton]
        rfl
      _ = (s.fetcher.perform engine call).2.taken := by rw [sound.taken, passes.taken]
  · rw [surfaced_take_call]
    exact passes.owes
  · rw [surfaced_take_call, List.mem_append, Option.mem_toList] at member
    rcases member with before | now
    · exact sound.failureOf error before
    · exact passes.failureOf now
  · rw [live_take_call, Bool.and_eq_true, Bool.not_eq_true'] at live
    change s.fetcher.lostAfter s.lost (s.fetcher.perform engine call).1 = []
    rw [Fetcher.lostAfter, live.2, sound.kept live.1]
    rfl

theorem Sound.take (sound : s.Sound) (event : SessionEvent) : (s.take engine event).Sound := by
  cases event with
  | call call => exact sound.take_call call
  | closeTask =>
    refine ⟨sound.fetcher.closeTask, ?_, ?_, sound.failureOf, sound.kept⟩
    · exact sound.taken.trans s.fetcher.closeTask_taken.symm
    · exact s.fetcher.closeTask_worker ▸ sound.owes.closeTask
  | step thread =>
    have flow : Fetcher.Flow engine s.fetcher [] (s.fetcher.stepThread engine thread) :=
      .step thread (.nil _)
    refine ⟨sound.fetcher.flow flow, ?_, ?_, sound.failureOf, sound.kept⟩
    · exact sound.taken.trans (Fetcher.stepThread_taken engine s.fetcher thread).symm
    · exact sound.fetcher.flow_worker flow ▸ sound.owes.flow sound.fetcher flow

theorem Sound.takeAll (sound : s.Sound) (events : List SessionEvent) :
    (s.takeAll engine events).Sound := by
  induction events generalizing s with
  | nil => exact sound
  | cons event rest ih => exact ih (sound.take event)

end Session

end ChangeStream
