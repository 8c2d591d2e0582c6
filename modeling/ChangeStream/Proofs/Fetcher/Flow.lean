import Mathlib.Data.List.Basic
import ChangeStream.Fetcher.Calls
import ChangeStream.Proofs.Fetcher.Delivery

/-!
# While a call of a fetcher waits

Two things go on while a fetcher waits: threads make steps, and records are taken out. A record
comes from the queue, or, where the queue has no places, straight from a thread that has one to
hand over. Everything a call does with the queue is a sequence of these, and what they preserve
holds at its end.
-/

namespace ChangeStream

variable {ε ρ : Type}

namespace Fetcher

section Fields

variable (f : Fetcher ε ρ) (i : Nat) (trace : Trace)

@[simp] theorem record_threads : (f.record i trace).threads = f.threads := rfl

theorem record_nil : f.record i [] = f := rfl

/-- Nothing is put into the slot where nothing is reported. -/
theorem record_reporter {trace : Trace} (reports : trace.reports = []) :
    (f.record i trace).reporter = f.reporter := by
  simp only [record, reports, List.foldl_nil]

end Fields

variable {engine : LogEngine ε ρ} {f g h : Fetcher ε ρ} {records more : List Record}

/-! ## One change -/

/-- What a step of a thread, or a record taken out, makes of a fetcher that is there. -/
inductive Change (f : Fetcher ε ρ) : Fetcher ε ρ → Prop
  | rest : Change f f
  | take {record : Record} {channel : Channel}
      (received : f.shared.sink.receive = (some record, channel)) :
      Change f
        { f with shared := { f.shared with sink := channel }, received := record :: f.received }
  /-- A thread that has not come to its end goes on. A record that it hands over is
  taken at once. -/
  | turn {i : Nat} {thread : FetchThread ρ} {run : TaskRun ρ} {shared : Shared ε Channel}
      {received : List Record} {trace : Trace} (present : f.threads[i]? = some thread)
      (working : thread.hasExited = false) (range : run.task.range = thread.run.task.range)
      (accountable :
        ∀ told, thread.run.Accountable told → run.Accountable (told ∨ trace.TellsToFail))
      (connected : shared.sink.connected = true)
      (records : received.reverse ++ shared.sink.records =
        f.taken ++ f.shared.sink.records ++ trace.accepted)
      (attempts : trace.attempts = trace.accepted.map (·, none)) (reports : trace.reports = []) :
      Change f
        ({ f with shared, received, threads := f.threads.set i { thread with run } }.record i trace)

theorem Change.worker (change : f.Change g) : g.worker = f.worker := by
  cases change <;> rfl

/-- The outcome of a thread is there to stay. -/
theorem Change.outcome? (change : f.Change g) {i : Nat} {result : TaskResult}
    (exited : f.outcome? i = some result) : g.outcome? i = some result := by
  cases change with
  | rest | take => exact exited
  | @turn j thread run shared received trace present working =>
    have other : j ≠ i := by
      rintro rfl
      rw [Fetcher.outcome?, present, Option.bind_some] at exited
      rw [FetchThread.hasExited, exited] at working
      cases working
    rw [Fetcher.outcome?, record_threads, List.getElem?_set_ne other]
    exact exited

theorem stepThread_eq {i : Nat} {thread : FetchThread ρ} (present : f.threads[i]? = some thread) :
    f.stepThread engine i =
      let after := thread.run.step engine Channel.outlet f.source f.config.pollInterval f.shared
      { f with
        shared := after.2.1
        threads := f.threads.set i { thread with run := after.1 } }.record i after.2.2 := by
  simp only [stepThread, present]

theorem stepThread_of_exited {i : Nat} {thread : FetchThread ρ}
    (present : f.threads[i]? = some thread) (exited : thread.hasExited = true) :
    f.stepThread engine i = f := by
  rw [stepThread_eq present]
  obtain ⟨hi, rfl⟩ := List.getElem?_eq_some_iff.mp present
  cases hrun : f.threads[i].run with
  | exited task result =>
    have same : { f.threads[i] with run := .exited task result } = f.threads[i] := by rw [← hrun]
    simp only [TaskRun.step, same, List.set_getElem_self, record_nil]
  | starting | executing | settled =>
    rw [FetchThread.hasExited, hrun] at exited
    cases exited

theorem change_stepThread (engine : LogEngine ε ρ) (connected : f.shared.sink.connected = true)
    (i : Nat) :
    f.Change (f.stepThread engine i) := by
  cases hthread : f.threads[i]? with
  | none =>
    rw [stepThread, hthread]
    exact .rest
  | some thread =>
    cases hexited : thread.hasExited with
    | true =>
      rw [stepThread_of_exited hthread hexited]
      exact .rest
    | false =>
      rw [stepThread_eq hthread]
      have takes := thread.run.step_takes engine f.source f.config.pollInterval connected
      refine .turn hthread hexited (thread.run.step_task_range ..) ?_ takes.connected ?_
        takes.attempts
        takes.reports
      · intro told accountable
        exact accountable.step engine f.source f.config.pollInterval connected
      · rw [takes.records, List.append_assoc]
        rfl

theorem firstOffer_spec {threads : List (FetchThread ρ)} {place i : Nat} {x : Execution ρ}
    {record : Record} (first : firstOffer place threads = some (i, x, record)) :
    ∃ thread, place ≤ i ∧ threads[i - place]? = some thread ∧ thread.run = .executing x := by
  induction threads generalizing place with
  | nil => cases first
  | cons thread rest ih =>
    -- Where the first thread has nothing to hand over, the offer is one of the rest.
    have later (next : firstOffer (place + 1) rest = some (i, x, record)) :
        ∃ other, place ≤ i ∧ (thread :: rest)[i - place]? = some other ∧
          other.run = .executing x := by
      obtain ⟨other, hplace, hother, hrun⟩ := ih next
      refine ⟨other, by omega, ?_, hrun⟩
      rw [show i - place = i - (place + 1) + 1 by omega, List.getElem?_cons_succ]
      exact hother
    unfold firstOffer at first
    split at first
    · next y hrun =>
      split at first
      · cases first
        exact ⟨thread, Nat.le_refl _, by rw [Nat.sub_self]; rfl, hrun⟩
      · exact later first
    · exact later first

theorem handOver_eq {i : Nat} {x : Execution ρ} {record : Record}
    (first : firstOffer 0 f.threads = some (i, x, record)) :
    f.handOver =
      let after := x.answer record .accepted
      (some record,
        { f with
          threads := f.threads.modify i fun thread => { thread with run := .executing after.1 }
          received := record :: f.received }.record i after.2) := by
  simp only [handOver, first]

theorem change_handOver (connected : f.shared.sink.connected = true)
    (empty : f.shared.sink.records = []) {record : Record}
    (handed : f.handOver = (some record, g)) : f.Change g := by
  cases hfirst : firstOffer 0 f.threads with
  | none =>
    simp only [handOver, hfirst] at handed
    cases handed
  | some offer =>
    obtain ⟨i, x, offered⟩ := offer
    rw [handOver_eq hfirst] at handed
    obtain ⟨-, rfl⟩ := Prod.mk.inj handed
    obtain ⟨thread, -, hthread, hrun⟩ := firstOffer_spec hfirst
    rw [Nat.sub_zero] at hthread
    rw [List.modify_eq_set_getElem?, hthread]
    have working : thread.hasExited = false := by rw [FetchThread.hasExited, hrun]; rfl
    have accepted : (x.answer offered .accepted).2.accepted = [offered] :=
      x.reading.conclude_accepted offered .accepted
    refine .turn hthread working ?_ ?_ connected ?_ (x.reading.conclude_accepted_attempts offered)
      (x.reading.conclude_reports offered .accepted)
    · rw [hrun]
      exact Reading.after_range x.reading (.answer offered .accepted)
    · intro told accountable
      rw [hrun] at accountable
      exact (accountable.answer offered).mono .inl
    · rw [accepted, empty, List.reverse_cons, List.append_nil, List.append_nil]
      rfl

/-- Where nothing comes out, the fetcher is left as it was. -/
theorem receive_eq_none (received : f.receive = (none, g)) : g = f := by
  unfold receive at received
  split at received
  · cases received
  · split at received
    · unfold handOver at received
      split at received
      · exact (Prod.mk.inj received).2.symm
      · cases received
    · exact (Prod.mk.inj received).2.symm

theorem change_receive (connected : f.shared.sink.connected = true) {record : Record}
    (received : f.receive = (some record, g)) : f.Change g := by
  unfold receive at received
  split at received
  · next hqueue =>
    obtain ⟨hrecord, rfl⟩ := Prod.mk.inj received
    exact .take hqueue
  · next hqueue =>
    split at received
    · exact change_handOver connected (Channel.records_of_receive_none hqueue) received
    · cases received

/-- A record comes from the front of the queue, or past a queue that is empty. -/
theorem receive_records {record : Record} (received : f.receive = (some record, g)) :
    f.shared.sink.records = record :: g.shared.sink.records ∨
      f.shared.sink.records = [] ∧ g.shared.sink.records = [] := by
  unfold receive at received
  split at received
  · next hqueue =>
    obtain ⟨hrecord, rfl⟩ := Prod.mk.inj received
    obtain rfl := Option.some.inj hrecord
    exact .inl (Channel.receive_eq_some hqueue).1
  · next hqueue =>
    have empty := Channel.records_of_receive_none hqueue
    split at received
    · unfold handOver at received
      split at received
      · cases received
      · cases received
        exact .inr ⟨empty, empty⟩
    · cases received

theorem records_of_receive_none (received : f.receive = (none, g)) :
    f.shared.sink.records = [] := by
  unfold receive at received
  split at received
  · cases received
  · next hqueue => exact Channel.records_of_receive_none hqueue

/-- A thread that hands its record over has not come to its end by that. -/
theorem receive_outcome? {record : Record} (received : f.receive = (some record, g)) {i : Nat}
    (working : f.outcome? i = none) : g.outcome? i = none := by
  unfold receive at received
  split at received
  · cases received
    exact working
  · split at received
    · cases hfirst : firstOffer 0 f.threads with
      | none =>
        simp only [handOver, hfirst] at received
        cases received
      | some offer =>
        obtain ⟨j, x, offered⟩ := offer
        rw [handOver_eq hfirst] at received
        obtain ⟨-, rfl⟩ := Prod.mk.inj received
        rw [outcome?, record_threads, List.getElem?_modify]
        rw [outcome?] at working
        cases hthread : f.threads[i]? with
        | none => rfl
        | some thread =>
          rw [hthread] at working
          rw [Option.map_eq_map, Option.map_some, Option.bind_some]
          split
          · rfl
          · exact working
    · cases received

theorem stepThread_taken (engine : LogEngine ε ρ) (f : Fetcher ε ρ) (i : Nat) :
    (f.stepThread engine i).taken = f.taken := by
  cases hthread : f.threads[i]? with
  | none => rw [stepThread, hthread]
  | some thread =>
    rw [stepThread_eq hthread]
    rfl

theorem stepThread_worker (engine : LogEngine ε ρ) (f : Fetcher ε ρ) (i : Nat) :
    (f.stepThread engine i).worker = f.worker := by
  cases hthread : f.threads[i]? with
  | none => rw [stepThread, hthread]
  | some thread =>
    rw [stepThread_eq hthread]
    rfl

theorem receive_taken {record : Record} (received : f.receive = (some record, g)) :
    g.taken = f.taken ++ [record] := by
  unfold receive at received
  split at received
  · cases received
    exact List.reverse_cons
  · split at received
    · unfold handOver at received
      split at received
      · cases received
      · cases received
        exact List.reverse_cons
    · cases received

/-! ## Sequences of changes -/

/-- A fetcher while it waits: threads make steps, and records are taken out, the listed ones
in this order. -/
inductive Flow (engine : LogEngine ε ρ) : Fetcher ε ρ → List Record → Fetcher ε ρ → Prop
  | nil (f : Fetcher ε ρ) : Flow engine f [] f
  | step {f g : Fetcher ε ρ} {records : List Record} (i : Nat)
      (rest : Flow engine (f.stepThread engine i) records g) : Flow engine f records g
  | receive {f g h : Fetcher ε ρ} {record : Record} {records : List Record}
      (received : f.receive = (some record, g)) (rest : Flow engine g records h) :
      Flow engine f (record :: records) h

namespace Flow

theorem append (first : Flow engine f records g) (second : Flow engine g more h) :
    Flow engine f (records ++ more) h := by
  induction first with
  | nil => exact second
  | step i rest ih => exact .step i (ih second)
  | receive received rest ih => exact .receive received (ih second)

/-- The records listed are the ones taken out. -/
theorem taken (flow : Flow engine f records g) : g.taken = f.taken ++ records := by
  induction flow with
  | nil => exact (List.append_nil _).symm
  | step i rest ih => rw [ih, stepThread_taken]
  | receive received rest ih =>
    rw [ih, receive_taken received, List.append_assoc, List.singleton_append]

/-- What every change preserves holds at the end. -/
theorem preserves (flow : Flow engine f records g) (invariant : Fetcher ε ρ → Prop)
    (connected : ∀ f, invariant f → f.shared.sink.connected = true)
    (change : ∀ f g, invariant f → f.Change g → invariant g)
    (holds : invariant f) : invariant g := by
  induction flow with
  | nil => exact holds
  | @step f g records i rest ih =>
    exact ih (change _ _ holds (change_stepThread engine (connected _ holds) i))
  | receive received rest ih =>
    exact ih (change _ _ holds (change_receive (connected _ holds) received))

end Flow

/-! ## What a call does with the queue -/

variable (engine)

theorem flow_during (pause : Pause) (f : Fetcher ε ρ) :
    Flow engine f [] (f.during engine pause) := by
  induction pause generalizing f with
  | nil => exact .nil f
  | cons i rest ih => exact .step i (ih (f.stepThread engine i))

theorem flow_takeQueued (count : Nat) (f : Fetcher ε ρ) :
    Flow engine f (takeQueued count f).1 (takeQueued count f).2 := by
  induction count generalizing f with
  | zero => exact .nil f
  | succ count ih =>
    unfold takeQueued
    split
    · next received =>
      obtain rfl := receive_eq_none received
      exact .nil _
    · next received => exact .receive received (ih _)

/-- Who takes as many records as there are leaves none. -/
theorem takeQueued_records {count : Nat} {f : Fetcher ε ρ}
    (enough : f.shared.sink.records.length ≤ count) :
    (takeQueued count f).2.shared.sink.records = [] := by
  induction count generalizing f with
  | zero => exact List.eq_nil_of_length_eq_zero (Nat.le_zero.mp enough)
  | succ count ih =>
    unfold takeQueued
    split
    · next received =>
      obtain rfl := receive_eq_none received
      exact records_of_receive_none received
    · next received =>
      apply ih
      rcases receive_records received with more | ⟨-, empty⟩
      · rw [more, List.length_cons] at enough
        omega
      · rw [empty]
        exact Nat.zero_le count

theorem records_length_le_available (f : Fetcher ε ρ) :
    f.shared.sink.records.length ≤ f.available := by
  rw [Channel.records, Queue.length_toList]
  exact Nat.le_add_right _ _

theorem takeQueued_outcome? {count i : Nat} {f : Fetcher ε ρ} (working : f.outcome? i = none) :
    (takeQueued count f).2.outcome? i = none := by
  induction count generalizing f with
  | zero => exact working
  | succ count ih =>
    unfold takeQueued
    split
    · next received =>
      obtain rfl := receive_eq_none received
      exact working
    · next received => exact ih (receive_outcome? received working)

/-- The wait for a first record goes on as long as one queues. -/
theorem awaitRecord_records {pauses rest : List Pause} {f g : Fetcher ε ρ}
    (nothing : awaitRecord engine pauses f = (none, rest, g)) : g.shared.sink.records = [] := by
  induction pauses generalizing f with
  | nil =>
    unfold awaitRecord at nothing
    cases hreceive : f.receive with
    | mk record later =>
      rw [hreceive] at nothing
      cases nothing
      obtain rfl := receive_eq_none hreceive
      exact records_of_receive_none hreceive
  | cons pause pauses ih =>
    unfold awaitRecord at nothing
    split at nothing
    · cases nothing
    · exact ih nothing

theorem takeAll_records (pauses : List Pause) (f : Fetcher ε ρ) :
    (takeAll engine pauses f).2.shared.sink.records = [] := by
  induction pauses generalizing f with
  | nil => exact takeQueued_records f.records_length_le_available
  | cons pause rest ih =>
    unfold takeAll
    split
    · next received =>
      obtain rfl := receive_eq_none received
      exact records_of_receive_none received
    · exact ih _

theorem flow_discard (f : Fetcher ε ρ) : ∃ records, Flow engine f records f.discard :=
  ⟨_, flow_takeQueued engine f.available f⟩

theorem flow_awaitRecord (pauses : List Pause) (f : Fetcher ε ρ) :
    Flow engine f (awaitRecord engine pauses f).1.toList (awaitRecord engine pauses f).2.2 := by
  induction pauses generalizing f with
  | nil =>
    unfold awaitRecord
    cases hreceive : f.receive with
    | mk record g =>
      cases record with
      | none =>
        obtain rfl := receive_eq_none hreceive
        exact .nil _
      | some record => exact .receive hreceive (.nil g)
  | cons pause rest ih =>
    unfold awaitRecord
    split
    · next received => exact .receive received (.nil _)
    · next received =>
      obtain rfl := receive_eq_none received
      exact (flow_during engine pause _).append (ih _)

theorem flow_takeAll (pauses : List Pause) (f : Fetcher ε ρ) :
    Flow engine f (takeAll engine pauses f).1 (takeAll engine pauses f).2 := by
  induction pauses generalizing f with
  | nil => exact flow_takeQueued engine f.available f
  | cons pause rest ih =>
    unfold takeAll
    split
    · next received =>
      obtain rfl := receive_eq_none received
      exact flow_during engine pause _
    · next received => exact (flow_during engine pause _).append (.receive received (ih _))

/-- A close waits until the thread has come to its end, or it puts the handle back on one that has
not. -/
theorem flow_awaitExit (worker : WorkerHandle) (pauses : List Pause) (f : Fetcher ε ρ) :
    ∃ records g, Flow engine f records g ∧
      ((∃ result rest, g.outcome? worker.thread = some result ∧
          awaitExit engine worker pauses f = (some result, rest, g)) ∨
        f.outcome? worker.thread = none ∧ g.outcome? worker.thread = none ∧
          awaitExit engine worker pauses f = (none, [], { g with worker := some worker })) := by
  induction pauses generalizing f with
  | nil =>
    unfold awaitExit
    split
    · next result exited => exact ⟨[], f, .nil f, .inl ⟨result, [], exited, rfl⟩⟩
    · next working =>
      obtain ⟨records, flow⟩ := flow_discard engine f
      exact ⟨records, f.discard, flow, .inr ⟨working, takeQueued_outcome? working, rfl⟩⟩
  | cons pause rest ih =>
    unfold awaitExit
    split
    · next result exited => exact ⟨[], f, .nil f, .inl ⟨result, _, exited, rfl⟩⟩
    · next working =>
      obtain ⟨records, discarded⟩ := flow_discard engine f
      obtain ⟨more, g, flow, outcome⟩ := ih (f.discard.during engine pause)
      refine ⟨_, g, (discarded.append (flow_during engine pause _)).append flow, ?_⟩
      exact outcome.imp id fun timedOut => ⟨working, timedOut.2⟩

end Fetcher

end ChangeStream
