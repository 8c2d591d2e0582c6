import ChangeStream.Engine.Played
import ChangeStream.Proofs.Fetcher.Session
import ChangeStream.Sample

/-!
# No record is lost

What a caller has taken out of a fetcher, and then what still queues, is what the dispatches of the
threads were accepted for, in that order. It comes thread by thread, but for the records of a thread
whose handle a close has lost: that thread may still be at work beside the next one. Only a close
throws records away. A caller who never closes has been given everything once the fetcher is
finished.
-/

namespace ChangeStream

variable {ε ρ : Type}

namespace Fetcher

variable {engine : LogEngine ε ρ} {f g : Fetcher ε ρ}

/-- Whether a call is a close. -/
def Call.closes : Call → Bool
  | .close .. => true
  | .submit .. | .poll _ => false

/-- Whether an answer is that of a close. -/
def Answer.closes : Answer → Bool
  | .closed .. => true
  | .submitted _ | .polled _ => false

theorem perform_closes (engine : LogEngine ε ρ) (f : Fetcher ε ρ) (call : Call) :
    (f.perform engine call).1.closes = call.closes := by
  cases call <;> rfl

/-- Whatever is not a close takes out what it returns. -/
theorem Answer.taken_of_not_closes {answer : Answer} (kept : answer.closes = false) :
    answer.taken = answer.batch := by
  cases answer with
  | submitted | polled => rfl
  | closed => cases kept

theorem Answer.returns_of_not_closes {answer : Answer} (kept : answer.closes = false) :
    answer.breaksOff = false := by
  cases answer with
  | submitted | polled => rfl
  | closed => cases kept

/-- A poll that fails leaves the queue and the threads alone. -/
theorem Polls.kept_of_error {error : FetchError} (polls : f.Polls engine (.error error) g) :
    g.shared = f.shared ∧ g.threads = f.threads ∧ g.taken = f.taken := by
  cases polls with
  | reported => exact ⟨rfl, rfl, rfl⟩
  | failed quiet reaps => exact reaps.kept

end Fetcher

/-- Whether an event is a close of the fetcher. -/
def SessionEvent.closes : SessionEvent → Bool
  | .call made => made.closes
  | .closeTask | .step _ => false

namespace Session

variable {s : Session ε ρ} {engine : LogEngine ε ρ}

/-- Without a close, all answers are those of other calls. -/
theorem takeAll_kept {events : List SessionEvent}
    (unclosed : ∀ event ∈ events, event.closes = false)
    (kept : ∀ answer ∈ s.answers, answer.closes = false) :
    ∀ answer ∈ (s.takeAll engine events).answers, answer.closes = false := by
  induction events generalizing s with
  | nil => exact kept
  | cons event rest ih =>
    refine ih (fun later member => unclosed later (List.mem_cons_of_mem _ member)) ?_
    intro answer member
    rcases s.take_answers engine event with same | ⟨call, rfl, more⟩
    · rw [same] at member
      exact kept answer member
    · rw [more, List.mem_append, List.mem_singleton] at member
      rcases member with before | rfl
      · exact kept answer before
      · exact (Fetcher.perform_closes engine s.fetcher call).trans (unclosed _ List.mem_cons_self)

theorem batches_eq_takenOut (kept : ∀ answer ∈ s.answers, answer.closes = false) :
    s.batches = s.takenOut :=
  List.flatMap_congr fun answer member =>
    (Fetcher.Answer.taken_of_not_closes (kept answer member)).symm

theorem live_of_kept (kept : ∀ answer ∈ s.answers, answer.closes = false) : s.live = true := by
  refine List.all_eq_true.mpr fun answer member => ?_
  rw [Fetcher.Answer.returns_of_not_closes (kept answer member), Bool.not_false]

/-- An event that is no close takes from the queue what it returns. -/
theorem Sound.take_of_not_closes (sound : s.Sound) {event : SessionEvent}
    (kept : event.closes = false) :
    ∃ batch, (s.take engine event).batches = s.batches ++ batch ∧
      (s.take engine event).fetcher.taken = s.fetcher.taken ++ batch := by
  rw [← (sound.take event).taken, ← sound.taken]
  rcases s.take_answers engine event with same | ⟨call, rfl, more⟩
  · exact ⟨[], by rw [batches, same, List.append_nil]; rfl,
      by rw [takenOut, same, List.append_nil]; rfl⟩
  · refine ⟨(s.fetcher.perform engine call).1.batch, ?_, ?_⟩
    · rw [batches, more, List.flatMap_append, List.flatMap_singleton]
      rfl
    · rw [takenOut, more, List.flatMap_append, List.flatMap_singleton,
        Fetcher.Answer.taken_of_not_closes]
      · rfl
      · exact (Fetcher.perform_closes engine s.fetcher call).trans kept

/-- A fetcher is used by its caller, in whatever order, while its threads go on as they like. What
the calls have taken out, and then what still queues, is what the queue has accepted, the records of
a thread before those of a later one; only a thread whose handle a close has lost on breaking off
can come in late, and as long as all calls have returned there is none. A poll that fails leaves the
queue as it is, and what is no close takes out only what it returns. Where there was no close, a
finished fetcher has returned all that was ever dispatched, and no thread is left. -/
theorem records_conserved (engine : LogEngine ε ρ) (state : ε) (source : Source)
    (config : FetchSettings) (events : List SessionEvent) :
    let s : Session ε ρ := (start (.create state source config)).takeAll engine events
    let f := s.fetcher
    s.takenOut = f.taken ∧ f.taken ++ f.shared.sink.records = f.accepted.map Prod.snd ∧
    f.accepted.Pairwise (fun earlier later => earlier.1 ≤ later.1 ∨ later.1 ∈ s.lost) ∧
    (s.live = true → s.lost = []) ∧
    (∀ pauses error, (f.poll engine pauses).1 = .error error →
      (f.poll engine pauses).2.shared = f.shared ∧ (f.poll engine pauses).2.taken = f.taken) ∧
    (∀ event : SessionEvent, event.closes = false →
      ∃ batch, (s.take engine event).batches = s.batches ++ batch ∧
        (s.take engine event).fetcher.taken = f.taken ++ batch) ∧
    ((∀ event ∈ events, event.closes = false) → f.isFinished = true →
      s.batches = f.dispatches.map Prod.snd ∧ ∀ thread ∈ f.threads, thread.hasExited = true) := by
  intro s f
  have sound : s.Sound := (sound_start state source config).takeAll events
  refine ⟨sound.taken, sound.fetcher.conserved, sound.owes.ordered, sound.kept, ?_,
    fun event kept => sound.take_of_not_closes kept, ?_⟩
  · intro pauses error failed
    have polls := f.poll_spec engine pauses
    rw [failed] at polls
    exact ⟨polls.kept_of_error.1, polls.kept_of_error.2.2⟩
  · intro unclosed finished
    have kept : ∀ answer ∈ s.answers, answer.closes = false :=
      takeAll_kept unclosed fun answer member => absurd member List.not_mem_nil
    obtain ⟨vacant, empty⟩ := Fetcher.isFinished_iff.mp finished
    have owes := sound.owes_of_live (live_of_kept kept)
    rw [vacant] at owes
    refine ⟨?_, owes.all_exited⟩
    calc
      s.batches = f.taken ++ f.shared.sink.records := by
        rw [batches_eq_takenOut kept, sound.taken, empty, List.append_nil]
      _ = f.accepted.map Prod.snd := sound.fetcher.conserved
      _ = f.dispatches.map Prod.snd := by rw [sound.fetcher.whole]

/-- A close with the longest timeout loses the handle of a thread that has a record to hand over. A
second task is submitted, and its record is taken out before that of the first. -/
theorem later_thread_overtakes_lost_one :
    let record := Sample.insert "orders" 110
    let engine := playedEngine [.move (.signal (.change record))]
    let second : Range := { Sample.split with id := ⟨"split-1"⟩ }
    let s : Session Unit (List PlayedMove) :=
      (start (.create () (.named "ORCLCDB") .standard)).takeAll engine
        ([.call (.submit (.create Sample.split) none), .step 0, .step 0,
            .call (.close .zero .longest []), .call (.submit (.create second) none)] ++
          List.replicate 5 (.step 1) ++ [.step 0, .call (.poll [])])
    s.fetcher.accepted.map Prod.fst = [1, 0] ∧
      s.batches = [.change second.id record, .change Sample.split.id record] := by
  decide

/-- A poll of a queue with one place takes two records if the thread goes on in between. -/
example :
    let first := Sample.insert "orders" 110
    let second := Sample.insert "orders" 120
    let engine :=
      playedEngine [.move (.signal (.change first)), .move (.signal (.change second))]
    let s : Session Unit (List PlayedMove) :=
      (start (.create () (.named "ORCLCDB") (.withQueueCapacity .standard 1))).takeAll engine
        ([.call (.submit (.create Sample.split) none),
            .call (.poll [List.replicate 9 0, List.replicate 9 0])] ++
          List.replicate 5 (.step 0) ++ [.call (.poll [])])
    s.answers.map Fetcher.Answer.batch =
        [[], [.change Sample.split.id first, .change Sample.split.id second], []] ∧
      s.fetcher.isFinished = true := by
  decide

end Session

end ChangeStream
