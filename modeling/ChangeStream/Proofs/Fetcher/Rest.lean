import ChangeStream.Engine.Played
import ChangeStream.Proofs.Fetcher.Session
import ChangeStream.Sample

/-!
# The thread at work

One thread of a fetcher at most is at work, and the fetcher owns it: the handle in the worker slot
is a handle on this thread, and the current task is the one that it runs. A fetcher without a thread
at work, without an outcome to be collected and without a record is at rest, and it stays so until
it starts a thread, whatever else is done to it.
-/

namespace ChangeStream

variable {ε ρ : Type}

namespace Fetcher

variable {engine : LogEngine ε ρ} {f g : Fetcher ε ρ} {records : List Record}
  {lost : List Nat} {surfaced : List FetchError}

/-! ## Who owns the thread -/

theorem currentTask_eq {i : Nat} {thread : FetchThread ρ} (current : f.current = some i)
    (present : f.threads[i]? = some thread) : f.currentTask = some thread.run.task := by
  rw [currentTask, current, Option.bind_some, present, Option.map_some]

/-- The handle in the slot is one on the current task. -/
theorem Holds.currentSplit {worker : WorkerHandle} (holds : f.Holds worker) :
    f.currentSplit.map Range.id = some worker.split := by
  obtain ⟨thread, present, split, -⟩ := holds.thread
  rw [Fetcher.currentSplit, currentTask_eq holds.current present, split]
  rfl

/-- As long as no handle is lost, a thread at work is the current one, and its handle is in the
slot. -/
theorem Owes.owned (owes : f.Owes [] f.worker surfaced) {i : Nat} {thread : FetchThread ρ}
    (present : f.threads[i]? = some thread) (working : thread.hasExited = false) :
    f.worker = some ⟨thread.run.task.range.id, i⟩ ∧ f.current = some i := by
  obtain ⟨worker, held, rfl⟩ :=
    (mem_outstanding.mp (owes.outstanding ⟨thread, present, working⟩)).resolve_right
      List.not_mem_nil
  have holds := (owes.held held).1
  obtain ⟨other, also, split, -⟩ := holds.thread
  obtain rfl := Option.some.inj (present.symm.trans also)
  exact ⟨split ▸ held, holds.current⟩

/-! ## Threads that have come to their end -/

/-- All threads have come to their end. -/
def AllExited (f : Fetcher ε ρ) : Prop := ∀ thread ∈ f.threads, thread.hasExited = true

namespace AllExited

variable (exited : f.AllExited)
include exited

theorem stepThread (engine : LogEngine ε ρ) (i : Nat) : f.stepThread engine i = f := by
  cases hthread : f.threads[i]? with
  | none => rw [Fetcher.stepThread, hthread]
  | some thread => exact stepThread_of_exited hthread (exited thread (List.mem_of_getElem? hthread))

/-- Only the queue has records to give. -/
theorem receive {record : Record} (received : f.receive = (some record, g)) :
    f.shared.sink.records = record :: g.shared.sink.records ∧ g.threads = f.threads := by
  unfold Fetcher.receive at received
  split at received
  · next hqueue =>
    cases received
    exact ⟨(Channel.receive_eq_some hqueue).1, rfl⟩
  · split at received
    · cases hfirst : firstOffer 0 f.threads with
      | none =>
        simp only [handOver, hfirst] at received
        cases received
      | some offer =>
        -- A thread with a record to hand over would be at work.
        obtain ⟨thread, -, hthread, hrun⟩ := firstOffer_spec hfirst
        have ended := exited thread (List.mem_of_getElem? hthread)
        rw [FetchThread.hasExited, hrun] at ended
        cases ended
    · cases received

theorem flow (flow : Flow engine f records g) :
    f.shared.sink.records = records ++ g.shared.sink.records ∧ g.threads = f.threads := by
  induction flow with
  | nil => exact ⟨rfl, rfl⟩
  | step i rest ih =>
    rw [exited.stepThread] at ih
    exact ih exited
  | receive received rest ih =>
    obtain ⟨hrecords, hthreads⟩ := exited.receive received
    obtain ⟨hmore, hsame⟩ := ih (by rwa [AllExited, hthreads])
    exact ⟨by rw [hrecords, hmore, List.cons_append], hsame.trans hthreads⟩

/-- Nothing at all goes on where nothing queues. -/
theorem flow_of_empty (empty : f.shared.sink.records = []) (flow : Flow engine f records g) :
    records = [] ∧ g = f := by
  induction flow with
  | nil => exact ⟨rfl, rfl⟩
  | step i rest ih =>
    rw [exited.stepThread] at ih
    exact ih exited empty
  | receive received rest ih =>
    rw [(exited.receive received).1] at empty
    cases empty

theorem closeTask : f.closeTask.AllExited := by
  intro other member
  obtain ⟨j, hj⟩ := List.mem_iff_getElem?.mp member
  obtain ⟨thread, hthread, rfl | rfl⟩ := thread_of_closeTask hj
  · exact exited other (List.mem_of_getElem? hthread)
  · rw [FetchThread.hasExited, TaskRun.close_result?]
    exact exited thread (List.mem_of_getElem? hthread)

/-- A poll returns all that queues, if there is no failure to return. -/
theorem poll (sound : f.Sound) (vacant : f.worker = none) (engine : LogEngine ε ρ)
    (pauses : List Pause) :
    (f.poll engine pauses).1 = .ok f.shared.sink.records ∧ Flow engine f f.shared.sink.records
      (f.poll engine pauses).2 := by
  have polls := f.poll_spec engine pauses
  generalize f.poll engine pauses = polled at polls ⊢
  obtain ⟨result, later⟩ := polled
  cases polls with
  | reported pending =>
    rw [sound.quiet] at pending
    cases pending
  | failed quiet reaps =>
    have reaped := reaps.none_of_vacant vacant
    cases reaped.1
  | drained quiet reaps flow emptied =>
    obtain ⟨-, rfl⟩ := reaps.none_of_vacant vacant
    have all := (exited.flow flow).1
    rw [emptied, List.append_nil] at all
    rw [all]
    exact ⟨rfl, flow⟩

end AllExited

/-! ## Rest -/

/-- No thread is at work, no outcome is to be collected, and nothing queues. -/
structure Rests (f : Fetcher ε ρ) : Prop where
  vacant : f.worker = none
  empty : f.shared.sink.records = []
  exited : f.AllExited

namespace Rests

variable (rests : f.Rests)
include rests

theorem isFinished : f.isFinished = true := isFinished_iff.mpr ⟨rests.vacant, rests.empty⟩

theorem closeTask : f.closeTask.Rests where
  vacant := f.closeTask_worker.trans rests.vacant
  empty := by
    rw [(closeTask_fields f).1]
    exact rests.empty
  exited := rests.exited.closeTask

theorem poll (sound : f.Sound) (engine : LogEngine ε ρ) (pauses : List Pause) :
    f.poll engine pauses = (.ok [], f) := by
  obtain ⟨hresult, flow⟩ := rests.exited.poll sound rests.vacant engine pauses
  rw [rests.empty] at hresult
  exact Prod.ext hresult (rests.exited.flow_of_empty rests.empty flow).2

/-- A close finds nothing to wait for and nothing to discard. -/
theorem close (sound : f.Sound) (engine : LogEngine ε ρ) (now timeout : Duration)
    (pauses : List Pause) :
    (f.close engine now timeout pauses).1 = .returned (.ok ()) ∧
      (f.close engine now timeout pauses).2.Rests := by
  obtain ⟨records, closes⟩ := f.close_spec engine now timeout pauses
  generalize f.close engine now timeout pauses = closed at closes ⊢
  obtain ⟨outcome, later⟩ := closed
  cases closes with
  | idle idle => exact ⟨rfl, rests⟩
  | vacant vacant ends =>
    obtain ⟨rfl, flow⟩ := ends.of_sound sound.closeTask
    obtain ⟨-, rfl⟩ := rests.closeTask.exited.flow_of_empty rests.closeTask.empty flow
    exact ⟨rfl, rests.closeTask⟩
  | brokenOff held | timedOut held | failed held | joined held => cases rests.vacant.symm.trans held

/-- A submission starts a thread, or there was no thread to be had and nothing has changed. -/
theorem submit (task : FetchTask) (spawnFailure : Option String) :
    (f.submit task spawnFailure).1 = .ok () ∨ (f.submit task spawnFailure).2 = f := by
  have submits := f.submit_spec task spawnFailure
  generalize f.submit task spawnFailure = submitted at submits ⊢
  obtain ⟨result, later⟩ := submitted
  cases submits with
  | busy held => cases rests.vacant.symm.trans held
  | failed reaps => cases (reaps.none_of_vacant rests.vacant).1
  | unspawned reaps => exact .inr (reaps.none_of_vacant rests.vacant).2
  | started => exact .inl rfl

end Rests

theorem Owes.rests (owes : f.Owes [] f.worker surfaced)
    (finished : f.isFinished = true) : f.Rests := by
  obtain ⟨vacant, empty⟩ := isFinished_iff.mp finished
  rw [vacant] at owes
  exact ⟨vacant, empty, owes.all_exited⟩

end Fetcher

namespace Session

variable {s : Session ε ρ} {engine : LogEngine ε ρ}

/-- Only an event that starts a thread ends the rest of a fetcher. -/
theorem take_of_rests (sound : s.Sound) (rests : s.fetcher.Rests) (event : SessionEvent) :
    (s.take engine event).fetcher.Rests ∨
      (s.take engine event).answers = s.answers ++ [.submitted (.ok ())] := by
  cases event with
  | closeTask => exact .inl rests.closeTask
  | step thread =>
    left
    rw [take, rests.exited.stepThread]
    exact rests
  | call call =>
    cases call with
    | submit task spawnFailure =>
      rcases rests.submit task spawnFailure with started | same
      · right
        simp only [take, Fetcher.perform, started]
      · left
        simp only [take, Fetcher.perform, same]
        exact rests
    | poll pauses =>
      left
      simp only [take, Fetcher.perform, rests.poll sound.fetcher engine pauses]
      exact rests
    | close now timeout pauses =>
      exact .inl (rests.close sound.fetcher engine now timeout pauses).2

theorem takeAll_of_rests (sound : s.Sound) (rests : s.fetcher.Rests) (events : List SessionEvent)
    {answers : List Fetcher.Answer}
    (more : (s.takeAll engine events).answers = s.answers ++ answers)
    (unstarted : .submitted (.ok ()) ∉ answers) : (s.takeAll engine events).fetcher.Rests := by
  induction events generalizing s answers with
  | nil => exact rests
  | cons event rest ih =>
    obtain ⟨later, hlater⟩ := answers_isPrefix engine (s.take engine event) rest
    have hmore : (s.take engine event).answers ++ later = s.answers ++ answers := hlater.trans more
    rcases take_of_rests sound rests event with still | started
    · obtain ⟨first, hfirst⟩ : s.answers <+: (s.take engine event).answers :=
        s.answers_isPrefix engine [event]
      rw [← hfirst, List.append_assoc] at hmore
      obtain rfl := List.append_cancel_left hmore
      exact ih (sound.take event) still hlater.symm (mt (List.mem_append_right _) unstarted)
    · rw [started, List.append_assoc] at hmore
      obtain rfl := List.append_cancel_left hmore
      exact absurd List.mem_cons_self unstarted

/-- A fetcher is used by its caller, in whatever order, while its threads go on as they like, and
all calls have returned. Of its threads one at most is at work; then the handle in the worker slot
is a handle on this thread in the name of its split, the current task is its task, and the fetcher
is not finished. Whatever handle there is bears the name of the current split. A finished fetcher
stays finished until a submission starts a thread: up to then every poll returns an empty batch, and
every close returns without an error. -/
theorem live_thread_owned (engine : LogEngine ε ρ) (state : ε) (source : Source)
    (config : FetchSettings) (events : List SessionEvent) :
    let s : Session ε ρ := (start (.create state source config)).takeAll engine events
    let f := s.fetcher
    s.live = true →
    (∀ (i j : Nat) (thread other : FetchThread ρ), f.threads[i]? = some thread →
      f.threads[j]? = some other →
      thread.hasExited = false → other.hasExited = false → i = j) ∧
    (∀ i thread, f.threads[i]? = some thread → thread.hasExited = false →
      f.worker = some ⟨thread.run.task.range.id, i⟩ ∧ f.current = some i ∧
      f.currentTask = some thread.run.task ∧ f.isFinished = false) ∧
    (∀ worker, f.worker = some worker → f.currentSplit.map Range.id = some worker.split) ∧
    (f.isFinished = true → ∀ more answers,
      let t := s.takeAll engine more
      t.answers = s.answers ++ answers → .submitted (.ok ()) ∉ answers →
        t.fetcher.isFinished = true ∧ (∀ pauses, (t.fetcher.poll engine pauses).1 = .ok []) ∧
        ∀ now timeout pauses, (t.fetcher.close engine now timeout pauses).1 =
          .returned (.ok ())) := by
  intro s f live
  have sound : s.Sound := (sound_start state source config).takeAll events
  have owes := sound.owes_of_live live
  refine ⟨?_, ?_, ?_, ?_⟩
  · intro i j thread other hi hj working also
    have first := (owes.owned hi working).2
    have second := (owes.owned hj also).2
    exact Option.some.inj (first.symm.trans second)
  · intro i thread present working
    obtain ⟨held, current⟩ := owes.owned present working
    refine ⟨held, current, Fetcher.currentTask_eq current present, ?_⟩
    rw [Fetcher.isFinished, held]
    rfl
  · exact fun worker held => (owes.held held).1.currentSplit
  · intro finished more answers t hanswers unstarted
    have later : t.Sound := sound.takeAll more
    have rests : t.fetcher.Rests :=
      takeAll_of_rests sound (owes.rests finished) more hanswers unstarted
    refine ⟨rests.isFinished, fun pauses => ?_, fun now timeout pauses => ?_⟩
    · rw [rests.poll later.fetcher engine pauses]
    · exact (rests.close later.fetcher engine now timeout pauses).1

/-- A close with no time to wait leaves its thread at work, and a second task is refused in the name
of its split. -/
theorem owner_of_thread_left_by_close :
    let engine := playedEngine [.move .idle, .poll]
    let events : List SessionEvent :=
      [.call (.submit (.create Sample.split) none), .step 0, .step 0, .call (.close .zero .zero []),
        .call (.submit (.create Sample.split) none)]
    let s : Session Unit (List PlayedMove) :=
      (start (.create () (.named "ORCLCDB") .standard)).takeAll engine events
    s.answers.map Fetcher.Answer.error? = [none, none, some (.fetcherBusy Sample.split.id)] ∧
    s.fetcher.threads.map FetchThread.hasExited = [false] ∧
      s.fetcher.worker.map WorkerHandle.thread = some 0 ∧
    s.fetcher.isFinished = false := by
  intro engine events s
  have live : s.live = true := by decide
  have exits : s.fetcher.threads.map FetchThread.hasExited = [false] := by decide
  -- The only thread is at work.
  obtain ⟨thread, rest, hthreads, working, -⟩ := List.map_eq_cons_iff.mp exits
  have present : s.fetcher.threads[0]? = some thread := by rw [hthreads]; rfl
  obtain ⟨-, owned, -, -⟩ := live_thread_owned engine () (.named "ORCLCDB") .standard events live
  obtain ⟨held, -, -, unfinished⟩ := owned 0 thread present working
  refine ⟨by decide, exits, ?_, unfinished⟩
  rw [held]
  rfl

end Session

end ChangeStream
