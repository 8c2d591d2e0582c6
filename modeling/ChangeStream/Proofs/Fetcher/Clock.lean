import ChangeStream.Proofs.Fetcher.Closing

/-!
# Closes and the clock

A close takes the handle of its thread out of the worker slot before it works out when it is going
to give up. If that moment is within the clock the handle is put back, or the outcome of the
thread is collected, so that the fetcher is not finished as long as a thread is at work. If it is
not, the close breaks off with the slot empty: the thread goes on, and a fetcher whose queue is
empty counts as finished. A caller who would wait as long as it takes comes to this with the
longest duration there is.
-/

namespace ChangeStream

variable {ε ρ : Type}

namespace Fetcher

variable {engine : LogEngine ε ρ} {f g : Fetcher ε ρ} {lost : List Nat}
  {surfaced : List FetchError} {now timeout : Duration} {outcome : CloseOutcome}
  {records : List Record}

theorem Closes.breaksOff_iff (closes : f.Closes engine now timeout outcome records g)
    (owes : f.Owes lost f.worker surfaced) :
    outcome = .clockOverflow ↔ f.worker ≠ none ∧ BeyondClock now timeout := by
  cases closes with
  | idle idle =>
    refine iff_of_false nofun fun ⟨occupied, _⟩ => ?_
    obtain ⟨worker, held⟩ := Option.ne_none_iff_exists'.mp occupied
    cases idle.symm.trans (owes.held held).1.current
  | vacant vacant => exact iff_of_false nofun fun ⟨occupied, _⟩ => occupied vacant
  | brokenOff held beyond =>
    refine iff_of_true rfl ⟨?_, beyond⟩
    rw [held]
    exact Option.some_ne_none _
  | timedOut held inTime | failed held inTime | joined held inTime =>
    exact iff_of_false nofun fun ⟨_, beyond⟩ => inTime beyond

theorem CloseOutcome.exists_returned (returns : outcome ≠ .clockOverflow) :
    ∃ result, outcome = .returned result := by
  cases outcome with
  | returned result => exact ⟨result, rfl⟩
  | clockOverflow => exact absurd rfl returns

/-- The handle is in the slot, or the slot is empty and the thread of the handle has
come to its end. -/
def HoldsOrJoined (f : Fetcher ε ρ) (worker : WorkerHandle) : Prop :=
  f.worker = some worker ∨ f.worker = none ∧ (f.outcome? worker.thread).isSome = true

/-- A close that returns has put the handle back, or it has collected the outcome of its thread. -/
theorem Closes.holdsOrJoined {result : Except FetchError Unit} {worker : WorkerHandle}
    (closes : f.Closes engine now timeout (.returned result) records g) (sound : f.Sound)
    (owes : f.Owes lost f.worker surfaced) (held : f.worker = some worker) :
    g.HoldsOrJoined worker := by
  have waiting : Sound { f.closeTask with worker := none } := sound.closeTask.withWorker none
  cases closes with
  | idle idle => cases idle.symm.trans (owes.held held).1.current
  | vacant vacant => cases vacant.symm.trans held
  | timedOut also =>
    left
    exact also.symm.trans held
  | failed also inTime flow exited =>
    obtain rfl := Option.some.inj (also.symm.trans held)
    right
    exact ⟨waiting.flow_worker flow, by rw [exited]; rfl⟩
  | joined also inTime flow exited fine ends =>
    obtain rfl := Option.some.inj (also.symm.trans held)
    have sound := waiting.flow flow
    obtain ⟨rfl, last⟩ := ends.of_sound sound
    right
    refine ⟨(sound.flow_worker last).trans (waiting.flow_worker flow), ?_⟩
    rw [sound.flow_outcome? last exited]
    rfl

/-- A fetcher is not finished while a thread is at work whose handle was not lost. -/
theorem Owes.unfinished (owes : f.Owes lost f.worker surfaced) {i : Nat} {thread : FetchThread ρ}
    (present : f.threads[i]? = some thread) (unlost : i ∉ lost)
    (working : thread.hasExited = false) : f.isFinished = false := by
  by_contra finished
  rw [Bool.not_eq_false, isFinished_iff] at finished
  rw [finished.1] at owes
  rw [owes.exited present unlost] at working
  cases working

end Fetcher

namespace Session

/-- A fetcher is used by its caller, in whatever order, while its threads go on as they like; then
it is closed. The close breaks off if there is a handle in the worker slot and the moment at which
it would give up is beyond the clock. The slot is empty then, whatever the thread does. Otherwise
the close returns, and it has lost no handle: the one that it found is back in the slot, or the slot
is empty and the thread has come to its end. Whatever happens later, the fetcher is not finished
while a thread is at work, but for threads whose handles a close has lost on breaking off. As long
as all calls have returned there are none. -/
theorem close_keeps_handle_within_clock (engine : LogEngine ε ρ) (state : ε) (source : Source)
    (config : FetchSettings) (events : List SessionEvent) (now timeout : Duration)
    (pauses : List Fetcher.Pause) :
    let s : Session ε ρ := (start (.create state source config)).takeAll engine events
    let f := s.fetcher
    let outcome := (f.close engine now timeout pauses).1
    let closed := s.take engine (.call (.close now timeout pauses))
    let later := closed.fetcher
    (outcome = .clockOverflow ↔ f.worker ≠ none ∧ Fetcher.BeyondClock now timeout) ∧
    (outcome = .clockOverflow → later = { f.closeTask with worker := none }) ∧
    (outcome ≠ .clockOverflow →
      closed.lost = s.lost ∧ closed.live = s.live ∧
        ∀ worker, f.worker = some worker → later.HoldsOrJoined worker) ∧
    ∀ more,
      let t := closed.takeAll engine more
      (∀ i thread, t.fetcher.threads[i]? = some thread → i ∉ t.lost → thread.hasExited = false →
        t.fetcher.isFinished = false) ∧
      (t.live = true → t.lost = []) := by
  intro s f outcome closed later
  have sound : s.Sound := (sound_start state source config).takeAll events
  have hlater : later = (f.close engine now timeout pauses).2 := rfl
  obtain ⟨records, closes⟩ := f.close_spec engine now timeout pauses
  rw [← hlater] at closes
  refine ⟨closes.breaksOff_iff sound.owes, fun broken => closes.eq_of_brokenOff broken, ?_, ?_⟩
  · intro returns
    obtain ⟨result, returned⟩ := Fetcher.CloseOutcome.exists_returned returns
    rw [show (f.close engine now timeout pauses).1 = _ from returned] at closes
    refine ⟨lost_take_close returned, ?_, fun worker held =>
      closes.holdsOrJoined sound.fetcher sound.owes held⟩
    rw [live_take_call, Fetcher.breaksOff_close returned]
    exact Bool.and_true _
  · intro more t
    have later : t.Sound := (sound.take _).takeAll more
    exact ⟨fun i thread present unlost working => later.owes.unfinished present unlost working,
      later.kept⟩

/-- A thread that does not stop in half a second is still owned by the fetcher. -/
theorem handle_put_back_after_timeout :
    let engine := playedEngine [.move .idle, .poll]
    let s : Session Unit (List PlayedMove) :=
      (start (.create () (.named "ORCLCDB") .standard)).takeAll engine
        [.call (.submit (.create Sample.split) none), .step 0, .step 0]
    let closed := s.take engine (.call (.close .zero (.ofMillis 500) []))
    s.live = true ∧ closed.fetcher.HoldsOrJoined ⟨Sample.split.id, 0⟩ ∧
      closed.fetcher.threads.map FetchThread.hasExited = [false] ∧
        closed.fetcher.isFinished = false := by
  intro engine s closed
  have live : s.live = true := by decide
  have exits : closed.fetcher.threads.map FetchThread.hasExited = [false] := by decide
  obtain ⟨thread, rest, hthreads, working, -⟩ := List.map_eq_cons_iff.mp exits
  have present : closed.fetcher.threads[0]? = some thread := by rw [hthreads]; rfl
  obtain ⟨-, -, kept, later⟩ :=
    close_keeps_handle_within_clock engine () (.named "ORCLCDB") .standard
      [.call (.submit (.create Sample.split) none), .step 0, .step 0] .zero (.ofMillis 500) []
  obtain ⟨-, stillLive, holds⟩ := kept (by decide)
  obtain ⟨unfinished, none⟩ := later []
  have unlost : closed.lost = [] := none (stillLive.trans live)
  refine ⟨live, holds _ (by decide), exits, unfinished 0 thread present ?_ working⟩
  exact unlost ▸ List.not_mem_nil

/-- With the longest timeout the close breaks off. The thread is at work, and the
fetcher is finished. -/
theorem finished_while_thread_at_work :
    let engine := playedEngine [.move .idle, .poll]
    let s : Session Unit (List PlayedMove) :=
      (start (.create () (.named "ORCLCDB") .standard)).takeAll engine
        [.call (.submit (.create Sample.split) none), .step 0, .step 0]
    let closed := s.take engine (.call (.close .zero .longest []))
    s.live = true ∧ s.fetcher.worker = some ⟨Sample.split.id, 0⟩ ∧
      (s.fetcher.close engine .zero .longest []).1 = .clockOverflow ∧ closed.fetcher.worker = none ∧
      closed.fetcher.threads.map FetchThread.hasExited = [false] ∧
        closed.fetcher.isFinished = true := by
  decide

end Session

end ChangeStream
