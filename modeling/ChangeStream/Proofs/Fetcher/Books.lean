import ChangeStream.Proofs.Fetcher.Calls

/-!
# The books of a fetcher

The records that a fetcher has taken out, and then the ones that still queue, are the records that
the dispatches of its threads were accepted for, in the order in which they were accepted. Nothing
is refused, and so nothing is reported. This holds whatever has become of the handles of the
threads.
-/

namespace ChangeStream

variable {ε ρ : Type}

namespace Fetcher

/-- The records that the threads have handed to the queue, each with the place of its thread. -/
def dispatches (f : Fetcher ε ρ) : List (Nat × Record) :=
  f.history.filterMap fun
    | (i, .dispatched record _) => some (i, record)
    | _ => none

/-- The records that the queue has accepted, each with the place of its thread. -/
def accepted (f : Fetcher ε ρ) : List (Nat × Record) :=
  f.history.filterMap fun
    | (i, .dispatched record none) => some (i, record)
    | _ => none

/-- Whether the engine on a thread has told its context to fail. -/
def ToldToFail (f : Fetcher ε ρ) (i : Nat) : Prop :=
  ∃ effective, (i, .failCalled effective) ∈ f.history

variable {f g : Fetcher ε ρ} {i : Nat} {trace : Trace}

theorem dispatches_of_history (history : g.history = f.history ++ trace.map (i, ·)) :
    g.dispatches = f.dispatches ++ trace.attempts.map fun attempt => (i, attempt.1) := by
  rw [dispatches, history, List.filterMap_append, List.filterMap_map, Trace.attempts,
    List.map_filterMap]
  congr 2
  funext occurrence
  cases occurrence <;> rfl

theorem accepted_of_history (history : g.history = f.history ++ trace.map (i, ·)) :
    g.accepted = f.accepted ++ trace.accepted.map (i, ·) := by
  rw [accepted, history, List.filterMap_append, List.filterMap_map, Trace.accepted,
    List.map_filterMap]
  congr 2
  funext occurrence
  cases occurrence with
  | dispatched record refusal => cases refusal <;> rfl
  | _ => rfl

theorem fst_lt_of_mem_accepted (places : ∀ entry ∈ f.history, entry.1 < f.threads.length)
    {pair : Nat × Record} (member : pair ∈ f.accepted) : pair.1 < f.threads.length := by
  obtain ⟨⟨i, occurrence⟩, hentry, hpair⟩ := List.mem_filterMap.mp member
  have hlt := places _ hentry
  cases occurrence with
  | dispatched record refusal =>
    cases refusal with
    | none =>
      obtain rfl := Option.some.inj hpair
      exact hlt
    | some error => cases hpair
  | _ => cases hpair

/-- What holds of a fetcher that is there, whatever its caller and its threads do. -/
structure Sound (f : Fetcher ε ρ) : Prop where
  connected : f.shared.sink.connected = true
  quiet : f.reporter.pending = none
  conserved : f.taken ++ f.shared.sink.records = f.accepted.map Prod.snd
  whole : f.dispatches = f.accepted
  places : ∀ entry ∈ f.history, entry.1 < f.threads.length
  accountable (i : Nat) (thread : FetchThread ρ) :
    f.threads[i]? = some thread → thread.run.Accountable (f.ToldToFail i)

theorem sound_create (engine : ε) (source : Source) (config : FetchSettings) :
    (create engine source config : Fetcher ε ρ).Sound where
  connected := rfl
  quiet := rfl
  conserved := rfl
  whole := rfl
  places _ entry := absurd entry List.not_mem_nil
  accountable i thread present := by cases present

namespace Sound

variable (sound : f.Sound)
include sound

theorem withWorker (slot : Option WorkerHandle) : Sound { f with worker := slot } :=
  ⟨sound.connected, sound.quiet, sound.conserved, sound.whole, sound.places, sound.accountable⟩

/-- What the books say after a thread has gone on. -/
theorem turn {thread : FetchThread ρ} {run : TaskRun ρ} (present : f.threads[i]? = some thread)
    (accountable : ∀ told, thread.run.Accountable told → run.Accountable (told ∨ trace.TellsToFail))
    (attempts : trace.attempts = trace.accepted.map (·, none))
    (threads : g.threads = f.threads.set i { thread with run })
    (history : g.history = f.history ++ trace.map (i, ·))
    (connected : g.shared.sink.connected = true) (quiet : g.reporter.pending = none)
    (records : g.taken ++ g.shared.sink.records =
      f.taken ++ f.shared.sink.records ++ trace.accepted) :
    g.Sound := by
  have within : i < f.threads.length := (List.getElem?_eq_some_iff.mp present).1
  have hlength : g.threads.length = f.threads.length := by rw [threads, List.length_set]
  exact {
    connected := connected
    quiet := quiet
    conserved := by
      rw [records, sound.conserved, accepted_of_history history, List.map_append, List.map_map]
      exact congrArg _ (List.map_id trace.accepted).symm
    whole := by
      rw [dispatches_of_history history, accepted_of_history history, sound.whole,
        attempts, List.map_map]
      rfl
    places := by
      intro entry hentry
      rw [history, List.mem_append] at hentry
      rw [hlength]
      rcases hentry with before | now
      · exact sound.places entry before
      · obtain ⟨occurrence, -, rfl⟩ := List.mem_map.mp now
        exact within
    accountable := by
      intro j other hother
      by_cases same : j = i
      · subst same
        rw [threads, List.getElem?_set_self within] at hother
        obtain rfl := Option.some.inj hother
        refine (accountable _ (sound.accountable j thread present)).mono ?_
        rintro (⟨effective, told⟩ | ⟨effective, told⟩)
        · exact ⟨effective, by rw [history]; exact List.mem_append_left _ told⟩
        · exact ⟨effective,
            by rw [history]; exact List.mem_append_right _ (List.mem_map_of_mem told)⟩
      · rw [threads, List.getElem?_set_ne (Ne.symm same)] at hother
        refine (sound.accountable j other hother).mono ?_
        rintro ⟨effective, told⟩
        exact ⟨effective, by rw [history]; exact List.mem_append_left _ told⟩ }

theorem change (change : f.Change g) : g.Sound := by
  cases change with
  | rest => exact sound
  | @take record channel received =>
    obtain ⟨hrecords, hconnected⟩ := Channel.receive_eq_some received
    exact {
      connected := hconnected.trans sound.connected
      quiet := sound.quiet
      conserved := by
        refine Eq.trans ?_ sound.conserved
        rw [hrecords]
        exact (congrArg (· ++ channel.records) List.reverse_cons).trans (List.append_assoc ..)
      whole := sound.whole
      places := sound.places
      accountable := sound.accountable }
  | turn present working range accountable connected records attempts reports =>
    refine sound.turn present accountable attempts rfl (history_record ..) connected ?_ records
    rw [record_reporter _ _ reports]
    exact sound.quiet

theorem flow {engine : LogEngine ε ρ} {records : List Record}
    (flow : Flow engine f records g) : g.Sound :=
  flow.preserves Sound (fun _ sound => sound.connected)
    (fun _ _ sound change => sound.change change) sound

/-- The worker slot is not touched while a call waits. -/
theorem flow_worker {engine : LogEngine ε ρ} {records : List Record}
    (flow : Flow engine f records g) :
    g.worker = f.worker :=
  (flow.preserves (fun g => g.Sound ∧ g.worker = f.worker) (fun _ both => both.1.connected)
    (fun _ _ both change => ⟨both.1.change change, change.worker.trans both.2⟩) ⟨sound, rfl⟩).2

theorem flow_outcome? {engine : LogEngine ε ρ} {records : List Record}
    (flow : Flow engine f records g) {i : Nat} {result : TaskResult}
    (exited : f.outcome? i = some result) : g.outcome? i = some result :=
  (flow.preserves (fun g => g.Sound ∧ g.outcome? i = some result) (fun _ both => both.1.connected)
    (fun _ _ both change => ⟨both.1.change change, change.outcome? both.2⟩) ⟨sound, exited⟩).2

end Sound

/-! ## Closing and starting -/

theorem closeTask_fields (f : Fetcher ε ρ) :
    f.closeTask = { f with threads := f.closeTask.threads } ∧
      f.closeTask.threads.length = f.threads.length := by
  unfold closeTask
  split
  · exact ⟨rfl, rfl⟩
  · exact ⟨rfl, List.length_modify ..⟩

/-- A close leaves every thread as it was, or closes its task. -/
theorem thread_of_closeTask {j : Nat} {other : FetchThread ρ}
    (present : f.closeTask.threads[j]? = some other) :
    ∃ thread, f.threads[j]? = some thread ∧
    (other = thread ∨ other = { thread with run := thread.run.close }) := by
  unfold closeTask at present
  split at present
  · exact ⟨other, present, .inl rfl⟩
  · next i current =>
    simp only [List.getElem?_modify] at present
    obtain ⟨thread, hthread, hother⟩ := Option.map_eq_some_iff.mp present
    refine ⟨thread, hthread, ?_⟩
    split at hother
    · exact .inr hother.symm
    · exact .inl hother.symm

theorem Sound.closeTask (sound : f.Sound) : f.closeTask.Sound := by
  obtain ⟨hfields, hlength⟩ := f.closeTask_fields
  rw [hfields]
  exact {
    connected := sound.connected
    quiet := sound.quiet
    conserved := sound.conserved
    whole := sound.whole
    places := by
      intro entry hentry
      exact hlength.symm ▸ sound.places entry hentry
    accountable := by
      intro j other hother
      obtain ⟨thread, hthread, rfl | rfl⟩ := thread_of_closeTask hother
      · exact sound.accountable j other hthread
      · exact (sound.accountable j thread hthread).close }

theorem thread_of_startThread {task : FetchTask} {j : Nat} {thread : FetchThread ρ}
    (present : (f.startThread task).threads[j]? = some thread) :
    f.threads[j]? = some thread ∨ j = f.threads.length ∧ thread.run = .starting task := by
  simp only [startThread, List.getElem?_append] at present
  split at present
  · exact .inl present
  · next beyond =>
    obtain ⟨hj, hthread⟩ := List.getElem?_eq_some_iff.mp present
    rw [List.length_singleton] at hj
    refine .inr ⟨by omega, ?_⟩
    rw [List.getElem_singleton] at hthread
    rw [← hthread]

theorem Sound.startThread (sound : f.Sound) (task : FetchTask) : (f.startThread task).Sound := by
  have hlength : (f.startThread task).threads.length = f.threads.length + 1 := List.length_append
  exact {
    connected := sound.connected
    quiet := sound.quiet
    conserved := sound.conserved
    whole := sound.whole
    places := by
      intro entry hentry
      rw [hlength]
      exact Nat.lt_succ_of_lt (sound.places entry hentry)
    accountable := by
      intro j thread hthread
      rcases thread_of_startThread hthread with before | ⟨-, hrun⟩
      · exact sound.accountable j thread before
      · rw [hrun]
        exact .starting task }

end Fetcher

end ChangeStream
