import ChangeStream.Proofs.Fetcher.Failures
import ChangeStream.Proofs.Fetcher.Rest

/-!
# What a close leaves behind

A close whose thread comes to its end in time empties the slot. It discards what is queued and
leaves a finished fetcher, unless it comes back with the failure of the thread: it does so at once,
and the records of the thread stay in the queue until a later call takes them out. Only records of
threads that are started afterwards come after them, or of threads whose handles were lost before.
-/

namespace ChangeStream

variable {ε ρ : Type}

namespace Fetcher

variable {engine : LogEngine ε ρ} {f g h : Fetcher ε ρ} {lost : List Nat}
  {surfaced : List FetchError}

/-! ## Properties that last -/

/-- A property that nothing that happens to a fetcher in use takes away. -/
structure Lasts (property : Fetcher ε ρ → Prop) : Prop where
  change {f g : Fetcher ε ρ} : f.Sound → property f → f.Change g → property g
  withWorker {f : Fetcher ε ρ} (slot : Option WorkerHandle) : property f →
    property { f with worker := slot }
  closeTask {f : Fetcher ε ρ} : property f → property f.closeTask
  startThread {f : Fetcher ε ρ} (task : FetchTask) : property f → property (f.startThread task)

namespace Lasts

variable {property : Fetcher ε ρ → Prop} (lasts : Lasts property)
include lasts

theorem flow {records : List Record} (sound : f.Sound) (holds : property f)
    (flow : Flow engine f records g) :
    property g :=
  (flow.preserves (fun f => f.Sound ∧ property f) (fun _ both => both.1.connected)
    (fun _ _ both change => ⟨both.1.change change, lasts.change both.1 both.2 change⟩)
      ⟨sound, holds⟩).2

theorem reaps {error : Option FetchError} (holds : property f)
    (reaps : f.Reaps error g) : property g := by
  cases reaps with
  | vacant | working => exact holds
  | collected => exact lasts.withWorker none holds

theorem submits {task : FetchTask} {spawnFailure : Option String} {result : Except FetchError Unit}
    (holds : property f) (submits : f.Submits task spawnFailure result g) : property g := by
  cases submits with
  | busy => exact holds
  | failed reaps | unspawned reaps => exact lasts.reaps holds reaps
  | started reaps => exact lasts.startThread task (lasts.reaps holds reaps)

theorem polls {result : Except FetchError (List Record)} (sound : f.Sound) (holds : property f)
    (polls : f.Polls engine result g) : property g := by
  cases polls with
  | reported pending =>
    rw [sound.quiet] at pending
    cases pending
  | failed quiet reaps => exact lasts.reaps holds reaps
  | drained quiet reaps flow => exact lasts.flow (reaps.sound sound) (lasts.reaps holds reaps) flow

theorem closes {now timeout : Duration} {outcome : CloseOutcome} {records : List Record}
    (sound : f.Sound) (holds : property f)
    (closes : f.Closes engine now timeout outcome records g) : property g := by
  have closed : property f.closeTask := lasts.closeTask holds
  have vacated : property { f.closeTask with worker := none } := lasts.withWorker none closed
  have waiting : Sound { f.closeTask with worker := none } := sound.closeTask.withWorker none
  cases closes with
  | idle => exact holds
  | vacant vacant ends => exact lasts.flow sound.closeTask closed (ends.of_sound sound.closeTask).2
  | brokenOff => exact vacated
  | timedOut held inTime working flow => exact lasts.withWorker _ (lasts.flow waiting vacated flow)
  | failed held inTime flow => exact lasts.flow waiting vacated flow
  | joined held inTime flow exited fine ends =>
    have between := waiting.flow flow
    exact lasts.flow between (lasts.flow waiting vacated flow) (ends.of_sound between).2

theorem perform (sound : f.Sound) (holds : property f) (call : Call) :
    property (f.perform engine call).2 := by
  cases call with
  | submit task spawnFailure => exact lasts.submits holds (f.submit_spec task spawnFailure)
  | poll pauses => exact lasts.polls sound holds (f.poll_spec engine pauses)
  | close now timeout pauses =>
    obtain ⟨records, closes⟩ := f.close_spec engine now timeout pauses
    exact lasts.closes sound holds closes

theorem take {s : Session ε ρ} (sound : s.Sound) (holds : property s.fetcher)
    (event : SessionEvent) :
    property (s.take engine event).fetcher := by
  cases event with
  | call call => exact lasts.perform sound.fetcher holds call
  | closeTask => exact lasts.closeTask holds
  | step thread =>
    exact lasts.change sound.fetcher holds (change_stepThread engine sound.fetcher.connected thread)

theorem takeAll {s : Session ε ρ} (sound : s.Sound) (holds : property s.fetcher)
    (events : List SessionEvent) :
    property (s.takeAll engine events).fetcher := by
  induction events generalizing s with
  | nil => exact holds
  | cons event rest ih => exact ih (sound.take event) (lasts.take sound holds event)

end Lasts

/-! ## Records of later threads -/

/-- The threads of one fetcher have come to their end in a later one, but for those whose handles
were lost. Since then the queue has accepted records of these and of later threads only. -/
structure EndedIn (lost : List Nat) (f g : Fetcher ε ρ) : Prop where
  threads : f.threads.length ≤ g.threads.length
  exited (i : Nat) (thread : FetchThread ρ) :
    i < f.threads.length → i ∉ lost → g.threads[i]? = some thread → thread.hasExited = true
  accepted : ∃ more, g.accepted = f.accepted ++ more ∧
    ∀ entry ∈ more, f.threads.length ≤ entry.1 ∨ entry.1 ∈ lost

theorem Owes.endedIn (owes : f.Owes lost none surfaced) : EndedIn lost f f where
  threads := Nat.le_refl _
  exited _ _ _ unlost present := owes.exited present unlost
  accepted := ⟨[], (List.append_nil _).symm, fun _ member => absurd member List.not_mem_nil⟩

theorem EndedIn.turn (ended : EndedIn lost f g) {i : Nat} {thread other : FetchThread ρ}
    {trace : Trace} (present : g.threads[i]? = some thread) (working : thread.hasExited = false)
    (threads : h.threads = g.threads.set i other)
    (history : h.history = g.history ++ trace.map (i, ·)) :
    EndedIn lost f h := by
  -- A thread at work is none of those that have come to their end.
  have late : f.threads.length ≤ i ∨ i ∈ lost := by
    by_contra neither
    obtain ⟨early, unlost⟩ := not_or.mp neither
    rw [ended.exited i thread (Nat.lt_of_not_le early) unlost present] at working
    cases working
  refine ⟨?_, ?_, ?_⟩
  · rw [threads, List.length_set]
    exact ended.threads
  · intro j later early unlost hlater
    have different : i ≠ j := by
      rintro rfl
      exact late.elim (Nat.not_le_of_lt early) unlost
    rw [threads, List.getElem?_set_ne different] at hlater
    exact ended.exited j later early unlost hlater
  · obtain ⟨more, hmore, hlate⟩ := ended.accepted
    refine ⟨more ++ trace.accepted.map (i, ·), ?_, fun entry member => ?_⟩
    · rw [accepted_of_history history, hmore, List.append_assoc]
    · rcases List.mem_append.mp member with before | now
      · exact hlate entry before
      · obtain ⟨record, -, rfl⟩ := List.mem_map.mp now
        exact late

theorem endedIn_lasts (lost : List Nat) (f : Fetcher ε ρ) : Lasts (EndedIn lost f) where
  change sound ended change := by
    cases change with
    | rest => exact ended
    | take => exact ⟨ended.threads, ended.exited, ended.accepted⟩
    | turn present working => exact ended.turn present working rfl (history_record ..)
  withWorker _ ended := ⟨ended.threads, ended.exited, ended.accepted⟩
  closeTask {g} ended := by
    obtain ⟨hfields, hlength⟩ := g.closeTask_fields
    refine ⟨hlength.symm ▸ ended.threads, ?_, ?_⟩
    · intro i other early unlost present
      obtain ⟨thread, hthread, rfl | rfl⟩ := thread_of_closeTask present
      · exact ended.exited i other early unlost hthread
      · rw [FetchThread.hasExited, TaskRun.close_result?]
        exact ended.exited i thread early unlost hthread
    · rw [hfields]
      exact ended.accepted
  startThread {g} task ended := by
    have hlength : (g.startThread task).threads.length = g.threads.length + 1 := List.length_append
    refine ⟨?_, ?_, ended.accepted⟩
    · rw [hlength]
      exact Nat.le_succ_of_le ended.threads
    · intro i thread early unlost present
      rcases thread_of_startThread present with before | ⟨rfl, -⟩
      · exact ended.exited i thread early unlost before
      · exact absurd ended.threads (Nat.not_le_of_lt early)

/-- What is taken out after the threads have come to their end: first the records that they have
left, then those of later threads and of threads whose handles were lost. -/
theorem EndedIn.records (ended : EndedIn lost f g) (earlier : f.Sound) (later : g.Sound) :
    ∃ more : List (Nat × Record), g.taken ++ g.shared.sink.records =
        f.taken ++ f.shared.sink.records ++ more.map Prod.snd ∧
      ∀ entry ∈ more, f.threads.length ≤ entry.1 ∨ entry.1 ∈ lost := by
  obtain ⟨more, hmore, hlate⟩ := ended.accepted
  refine ⟨more, ?_, hlate⟩
  rw [later.conserved, hmore, List.map_append, earlier.conserved]

/-! ## A close that has waited for its thread -/

deriving instance DecidableEq for CloseOutcome

/-- The failure of the thread that was started last. -/
def lastFailure (f : Fetcher ε ρ) : Option FetchError := f.threads.getLast?.bind FetchThread.failure

theorem Ends.emptied {result : Except FetchError Unit} {records : List Record}
    (ends : f.Ends engine result records g) : g.shared.sink.records = [] := by
  cases ends with
  | reported flow pending emptied => exact emptied
  | quiet flow quiet emptied => exact emptied

/-- How a close has come out that did not have to give up on its thread. -/
inductive Closed (f later : Fetcher ε ρ) : Except FetchError Unit → Prop
  | clean (fine : f.worker = none ∨ later.lastFailure = none) (finished : later.isFinished = true) :
      Closed f later (.ok ())
  | failed {error : FetchError} (held : f.worker ≠ none)
      (failure : later.lastFailure = some error) :
      Closed f later (.error error)

theorem Holds.lastFailure {worker : WorkerHandle} {result : TaskResult} (holds : f.Holds worker)
    (exited : f.outcome? worker.thread = some result) :
    f.lastFailure = outcomeError worker.split result := by
  obtain ⟨thread, present, split, outcome⟩ := holds.thread
  have last : f.threads.getLast? = some thread := by
    rw [List.getLast?_eq_getElem?, holds.last, Nat.add_sub_cancel, present]
  rw [outcome] at exited
  rw [Fetcher.lastFailure, last, Option.bind_some, FetchThread.failure, exited, split,
    Option.bind_some]

/-- A close that ends with its thread at its end has not put the handle back. -/
theorem Closes.closed {now timeout : Duration} {result : Except FetchError Unit}
    {records : List Record} (closes : f.Closes engine now timeout (.returned result) records g)
    (sound : f.Sound) (owes : f.Owes lost f.worker surfaced) (submitted : f.current ≠ none)
    (exited : ∀ worker, f.worker = some worker → (g.outcome? worker.thread).isSome = true) :
    g.worker = none ∧ f.Closed g result := by
  have closed : f.closeTask.Sound := sound.closeTask
  have waiting : Sound { f.closeTask with worker := none } := closed.withWorker none
  cases closes with
  | idle idle => exact absurd idle submitted
  | vacant vacant ends =>
    obtain ⟨rfl, flow⟩ := ends.of_sound closed
    have empty : g.worker = none :=
      (closed.flow_worker flow).trans (f.closeTask_worker.trans vacant)
    exact ⟨empty, .clean (.inl vacant) (isFinished_iff.mpr ⟨empty, ends.emptied⟩)⟩
  | timedOut held inTime working flow unfinished =>
    obtain ⟨outcome, ended⟩ := Option.isSome_iff_exists.mp (exited _ held)
    cases unfinished.symm.trans ended
  | failed held inTime flow ended failure =>
    have occupied : f.worker ≠ none := by
      rw [held]
      exact Option.some_ne_none _
    rw [held] at owes
    have still := owes.whileClosing sound flow
    have last := ((still.held rfl).1.lastFailure ended).trans failure
    exact ⟨waiting.flow_worker flow, .failed occupied last⟩
  | @joined worker outcome result records more between later held inTime flow ended fine ends =>
    rw [held] at owes
    have still := owes.whileClosing sound flow
    have soundBetween : between.Sound := waiting.flow flow
    obtain ⟨rfl, last⟩ := ends.of_sound soundBetween
    have empty : g.worker = none :=
      (soundBetween.flow_worker last).trans (waiting.flow_worker flow)
    -- The thread comes to no other end while records are discarded.
    have holds := ((still.flow soundBetween last).held rfl).1
    have quiet : g.lastFailure = none :=
      (holds.lastFailure (soundBetween.flow_outcome? last ended)).trans fine
    exact ⟨empty, .clean (.inr quiet) (isFinished_iff.mpr ⟨empty, ends.emptied⟩)⟩

theorem Closes.inTime {now timeout : Duration} {result : Except FetchError Unit}
    {records : List Record} {worker : WorkerHandle}
    (closes : f.Closes engine now timeout (.returned result) records g)
    (submitted : f.current ≠ none) (held : f.worker = some worker) : ¬BeyondClock now timeout := by
  cases closes with
  | idle idle => exact absurd idle submitted
  | vacant vacant => cases vacant.symm.trans held
  | timedOut held inTime | failed held inTime | joined held inTime => exact inTime

theorem breaksOff_close {now timeout : Duration} {pauses : List Pause}
    {result : Except FetchError Unit}
    (returned : (f.close engine now timeout pauses).1 = .returned result) :
    (f.perform engine (.close now timeout pauses)).1.breaksOff = false := by
  simp only [perform, returned]
  rfl

/-- A close that finds the failure of a thread does not touch the queue. -/
theorem close_kept_of_uncollected {now timeout : Duration} {pauses : List Pause}
    {error : FetchError} (owes : f.Owes lost f.worker surfaced) (due : f.uncollected = some error)
    (inTime : ¬BeyondClock now timeout) :
    (f.close engine now timeout pauses).1 = .returned (.error error) ∧
      (f.close engine now timeout pauses).2.shared = f.shared := by
  rw [close_of_uncollected engine owes due inTime]
  refine ⟨rfl, ?_⟩
  rw [(closeTask_fields f).1]

end Fetcher

namespace Session

/-- A close that returns loses no handle. -/
theorem lost_take_close {s : Session ε ρ} {engine : LogEngine ε ρ} {now timeout : Duration}
    {pauses : List Fetcher.Pause} {result : Except FetchError Unit}
    (returned : (s.fetcher.close engine now timeout pauses).1 = .returned result) :
    (s.take engine (.call (.close now timeout pauses))).lost = s.lost := by
  change s.fetcher.lostAfter s.lost (s.fetcher.perform engine (.close now timeout pauses)).1 =
    s.lost
  rw [Fetcher.lostAfter, Fetcher.breaksOff_close returned]
  rfl

/-- A fetcher with a submitted task is closed, and the thread whose handle the close has found, if
any, has come to its end when the close returns. Then the slot is empty. Without an error the
fetcher is finished, so that nothing queues. An error is the failure of the thread that was started
last, and then the queue is left to the next poll; nothing at all has been discarded if the thread
had failed before the close. Whatever happens later, the records that are taken out after the close
are those that it has left, and then records of threads that were started after it, or whose handles
an earlier close has lost on breaking off. As long as all calls have returned there are none of the
latter, and no thread is at work any more. -/
theorem close_discards_unless_failed (engine : LogEngine ε ρ) (state : ε) (source : Source)
    (config : FetchSettings) (events : List SessionEvent) (now timeout : Duration)
    (pauses : List Fetcher.Pause) (result : Except FetchError Unit) :
    let s : Session ε ρ := (start (.create state source config)).takeAll engine events
    let f := s.fetcher
    let closed := s.take engine (.call (.close now timeout pauses))
    let later := closed.fetcher
    f.current ≠ none → (f.close engine now timeout pauses).1 = .returned result →
    (∀ worker, f.worker = some worker → (later.outcome? worker.thread).isSome = true) →
    later.worker = none ∧ f.Closed later result ∧
    (later.AllExited → ∀ pauses, (later.poll engine pauses).1 = .ok later.shared.sink.records) ∧
    (∀ error, f.uncollected = some error → result = .error error ∧ later.shared = f.shared) ∧
    (∀ more,
      let t := closed.takeAll engine more
      ∃ after : List (Nat × Record),
        t.fetcher.taken ++ t.fetcher.shared.sink.records =
          later.taken ++ later.shared.sink.records ++ after.map Prod.snd ∧
        ∀ entry ∈ after, later.threads.length ≤ entry.1 ∨ entry.1 ∈ s.lost) ∧
    (s.live = true → s.lost = [] ∧ later.AllExited) := by
  intro s f closed later submitted returned exited
  have sound : s.Sound := (sound_start state source config).takeAll events
  have soundClosed : closed.Sound := sound.take _
  have hlater : later = (f.close engine now timeout pauses).2 := rfl
  obtain ⟨records, closes⟩ := f.close_spec engine now timeout pauses
  rw [returned, ← hlater] at closes
  obtain ⟨vacant, out⟩ := closes.closed sound.fetcher sound.owes submitted exited
  have owes : later.Owes s.lost none closed.surfaced := by
    have owes := soundClosed.owes
    rwa [lost_take_close returned, vacant] at owes
  refine ⟨vacant, out, fun all pauses => ?_, fun error due => ?_, fun more => ?_, fun live => ?_⟩
  · exact (all.poll soundClosed.fetcher vacant engine pauses).1
  · obtain ⟨worker, -, held, -⟩ := Fetcher.uncollected_eq_some due
    obtain ⟨failed, kept⟩ :=
      Fetcher.close_kept_of_uncollected sound.owes due (closes.inTime submitted held)
    rw [returned] at failed
    rw [hlater]
    exact ⟨Fetcher.CloseOutcome.returned.inj failed, kept⟩
  · intro t
    have ended : Fetcher.EndedIn s.lost later t.fetcher :=
      (Fetcher.endedIn_lasts s.lost later).takeAll soundClosed owes.endedIn more
    exact ended.records soundClosed.fetcher (soundClosed.takeAll more).fetcher
  · rw [sound.kept live] at owes
    exact ⟨sound.kept live, owes.all_exited⟩

/-- A close waits for a thread that looks at its context and returns, and its record
is discarded. -/
theorem backlog_of_stopped_thread_discarded :
    let engine :=
      playedEngine [.move (.signal (.change (Sample.insert "orders" 110))), .poll, .poll]
    let events : List SessionEvent :=
      .call (.submit (.create Sample.split) none) :: List.replicate 4 (.step 0)
    let s : Session Unit (List PlayedMove) :=
      (start (.create () (.named "ORCLCDB") .standard)).takeAll engine events
    let closed := s.take engine (.call (.close .zero (.ofMillis 500) [[0, 0, 0, 0]]))
    s.fetcher.shared.sink.records = [.change Sample.split.id (Sample.insert "orders" 110)] ∧
      closed.fetcher.threads.map FetchThread.hasExited = [true] ∧
        closed.fetcher.isFinished = true := by
  intro engine events s closed
  have exits : closed.fetcher.threads.map FetchThread.hasExited = [true] := by decide
  have held : s.fetcher.worker = some ⟨Sample.split.id, 0⟩ := by decide
  have ended : (closed.fetcher.outcome? 0).isSome = true := by decide
  have exited (worker : WorkerHandle) (also : s.fetcher.worker = some worker) :
      (closed.fetcher.outcome? worker.thread).isSome = true := by
    obtain rfl := Option.some.inj (held.symm.trans also)
    exact ended
  have returned : (s.fetcher.close engine .zero (.ofMillis 500) [[0, 0, 0, 0]]).1 =
      .returned (.ok ()) := by
    decide
  obtain ⟨-, out, -⟩ := close_discards_unless_failed engine () (.named "ORCLCDB") .standard events
    .zero (.ofMillis 500) [[0, 0, 0, 0]] (.ok ()) (by decide) returned exited
  cases out with
  | clean fine finished => exact ⟨by decide, exits, finished⟩

/-- The thread has failed before the close, whose error is the failure. Its record
is still there. -/
theorem close_leaves_record_of_failed_thread :
    let record := Sample.insert "orders" 110
    let engine := playedEngine
      [.move (.signal (.change record)),
        .move (.leave (.failed (.failed "ORA-01013: user requested cancel")))]
    let s : Session Unit (List PlayedMove) :=
      (start (.create () (.named "ORCLCDB") .standard)).takeAll engine
        (.call (.submit (.create Sample.split) none) :: List.replicate 6 (.step 0))
    let closed := s.take engine (.call (.close .zero (.ofMillis 500) []))
    let later := closed.take engine (.call (.poll []))
    s.live = true ∧ s.fetcher.current = some 0 ∧
      s.fetcher.threads.map FetchThread.hasExited = [true] ∧
      closed.answers.map Fetcher.Answer.error? =
        [none, some (.engine (.failed "ORA-01013: user requested cancel"))] ∧
      closed.fetcher.shared.sink.records = [.change Sample.split.id record] ∧
      closed.fetcher.isFinished = false ∧
      later.answers.map Fetcher.Answer.batch = [[], [], [.change Sample.split.id record]] := by
  decide

end Session

end ChangeStream
