import ChangeStream.Execution
import ChangeStream.Proofs.Reading

/-!
# What one step of an execution does

A step is nothing, an answer of the sink, or a move of the engine. The read changes only with an
answer and with the moves that finish, fail or close it; a record is handed over only on a signal,
and only while the context runs.
-/

namespace ChangeStream

variable {ε ρ κ : Type}

/-- What a step of an execution does. -/
inductive Deed
  /-- Nothing: the engine has left, or the sink has no room. -/
  | nothing
  | answer (record : Record) (reply : Reply)
  | move (move : Move)

/-- Whether the task is closed by what a step does. -/
def Deed.closes : Deed → Bool
  | .answer _ reply => reply.closes
  | .move .close => true
  | _ => false

/-- The read after what a step does. -/
def Reading.after (reading : Reading) : Deed → Reading
  | .answer record reply => (reading.conclude record reply).1
  | .move .finish => reading.finish.2.1
  | .move .fail => reading.fail.2
  | .move .close => reading.close
  | _ => reading

theorem Reading.after_range (reading : Reading) (deed : Deed) :
    (reading.after deed).range = reading.range := by
  cases deed with
  | nothing => rfl
  | answer record reply => rw [after, conclude_eq]
  | move move =>
    cases move with
    | finish => rw [after, finish_eq]
    | fail => rw [after, fail_eq]
    | signal | idle | wait | close | observe | takeRound | executeAgain | log | leave => rfl

namespace Execution

variable (engine : LogEngine ε ρ) (outlet : Outlet κ) (x : Execution ρ) (shared : Shared ε κ)

/-- What the next step does. -/
def deed : Deed :=
  match x.ending, x.offered with
  | some _, _ => .nothing
  | none, some record =>
    match outlet shared.sink record with
    | none => .nothing
    | some (reply, _) => .answer record reply
  | none, none => .move (engine.next x.reading.run.stopReason x.progress shared.engine).1

/-- The three forms of a step. -/
inductive Step : Deed → Execution ρ → Shared ε κ → Trace → Prop
  | nothing : Step .nothing x shared []
  | answer {record : Record} {reply : Reply} {state : κ} (offered : x.offered = some record)
      (answered : outlet shared.sink record = some (reply, state)) :
      Step (.answer record reply) (x.answer record reply).1 { shared with sink := state }
        (x.answer record reply).2
  | move {move : Move} {progress : ρ} {state : ε} (offered : x.offered = none)
      (next : engine.next x.reading.run.stopReason x.progress shared.engine =
        (move, progress, state)) :
      Step (.move move) ({ x with progress }.perform move).1 { shared with engine := state }
        ({ x with progress }.perform move).2

theorem step_spec :
    Step engine outlet x shared (x.deed engine outlet shared) (x.step engine outlet shared).1
      (x.step engine outlet shared).2.1 (x.step engine outlet shared).2.2 := by
  obtain ⟨reading, offered, progress, ending⟩ := x
  cases ending with
  | some ending => exact .nothing
  | none =>
    cases offered with
    | none => exact .move rfl rfl
    | some record =>
      cases hanswer : outlet shared.sink record with
      | none => simp only [step, deed, hanswer]; exact .nothing
      | some answer => simp only [step, deed, hanswer]; exact .answer rfl hanswer

variable {engine outlet x shared} {record : Record} {reply : Reply} {state : κ}

theorem step_of_full (working : x.ending = none) (offered : x.offered = some record)
    (full : outlet shared.sink record = none) : x.step engine outlet shared = (x, shared, []) := by
  simp only [step, working, offered, full]

theorem step_of_answer (working : x.ending = none) (offered : x.offered = some record)
    (answered : outlet shared.sink record = some (reply, state)) :
    x.step engine outlet shared =
      ((x.answer record reply).1, { shared with sink := state }, (x.answer record reply).2) := by
  simp only [step, working, offered, answered]

theorem step_of_move (working : x.ending = none) (idle : x.offered = none) {move : Move}
    {progress : ρ} {state : ε}
    (next : engine.next x.reading.run.stopReason x.progress shared.engine =
      (move, progress, state)) :
    x.step engine outlet shared =
      (({ x with progress }.perform move).1, { shared with engine := state },
        ({ x with progress }.perform move).2) := by
  simp only [step, working, idle, next]

variable {deed : Deed} {x' : Execution ρ} {shared' : Shared ε κ} {trace : Trace}

theorem perform_progress (x : Execution ρ) (move : Move) :
    (x.perform move).1.progress = x.progress := by
  cases move <;> rfl

theorem perform_reading (x : Execution ρ) (move : Move) :
    (x.perform move).1.reading = x.reading.after (.move move) := by
  cases move <;> rfl

theorem Step.reading (h : Step engine outlet x shared deed x' shared' trace) :
    x'.reading = x.reading.after deed := by
  cases h with
  | nothing => rfl
  | answer => rfl
  | move => exact perform_reading _ _

end Execution

end ChangeStream
