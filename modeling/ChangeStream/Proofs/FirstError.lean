import ChangeStream.Reporter
import Mathlib.Data.List.ReduceOption

/-!
# The first error of each period

Any number of tasks report errors to one slot, and now and then somebody takes what is in it. The
takes divide the calls, in whatever order they come, into periods. Each take gives the first error
of its period, and nothing if there was none; the slot holds an error just if one was reported in
the period that is not over yet.
-/

namespace ChangeStream.ErrorSlot

/-- Something that is done to a slot. -/
inductive Call
  | report (error : FetchError)
  | take
deriving DecidableEq

namespace Call

/-- The error that is reported. -/
def reported? : Call → Option FetchError
  | report error => some error
  | take => none

/-- Whether the slot is emptied. -/
def isTake : Call → Bool
  | report _ => false
  | take => true

end Call

/-- The slot after some calls. -/
def after (slot : ErrorSlot) : List Call → ErrorSlot
  | [] => slot
  | .report error :: calls => (slot.report error).2.after calls
  | .take :: calls => slot.take.2.after calls

/-- What the takes among some calls give. -/
def answers (slot : ErrorSlot) : List Call → List (Option FetchError)
  | [] => []
  | .report error :: calls => (slot.report error).2.answers calls
  | .take :: calls => slot.take.1 :: slot.take.2.answers calls

/-- The errors reported before the first take, between it and the second, and so on; the last
period is not over. -/
def periods (calls : List Call) : List (List FetchError) :=
  (calls.splitOnP Call.isTake).map (List.filterMap Call.reported?)

/-! ## Periods -/

theorem periods_take (calls : List Call) : periods (.take :: calls) = [] :: periods calls := by
  simp [periods, List.splitOnP_cons_eq_if_modifyHead, Call.isTake]

theorem periods_ne_nil (calls : List Call) : periods calls ≠ [] := by
  simp [periods, List.splitOnP_ne_nil]

theorem periods_report (error : FetchError) {calls : List Call} {first : List FetchError}
    {others : List (List FetchError)} (same : periods calls = first :: others) :
    periods (.report error :: calls) = (error :: first) :: others := by
  rw [periods] at same ⊢
  cases segments : calls.splitOnP Call.isTake with
  | nil => exact absurd segments (List.splitOnP_ne_nil _ _)
  | cons segment segments' =>
    rw [segments, List.map_cons, List.cons.injEq] at same
    simp [List.splitOnP_cons_eq_if_modifyHead, Call.isTake, segments, Call.reported?, same]

/-! ## Any slot -/

/-- A report counts if the slot was empty. -/
theorem report_pending (slot : ErrorSlot) (error : FetchError) :
    (slot.report error).2.pending = slot.pending.or (some error) := by
  obtain ⟨_ | _⟩ := slot <;> rfl

/-- The answers, and then what is in the slot in the end, are the first errors of the periods. What
was in the slot comes before those of the first. -/
theorem answers_eq (slot : ErrorSlot) {calls : List Call} {first : List FetchError}
    {others : List (List FetchError)} (same : periods calls = first :: others) :
    slot.answers calls ++ [(slot.after calls).pending] =
      ((slot.pending.toList ++ first) :: others).map List.head? := by
  induction calls generalizing slot first others with
  | nil =>
    cases same
    cases slot with
    | mk pending => cases pending <;> rfl
  | cons call calls ih =>
    obtain ⟨next, rest, further⟩ := List.exists_cons_of_ne_nil (periods_ne_nil calls)
    cases call with
    | report error =>
      rw [periods_report error further] at same
      cases same
      rw [answers, after, ih _ further, report_pending]
      cases slot.pending <;> rfl
    | take =>
      rw [periods_take, further] at same
      cases same
      rw [answers, after, List.cons_append, ih _ further, take]
      cases slot.pending <;> rfl

/-- What is taken was in the slot or is reported, in this order. -/
theorem taken_sublist (slot : ErrorSlot) (calls : List Call) :
    (slot.answers calls).reduceOption.Sublist
      (slot.pending.toList ++ calls.filterMap Call.reported?) := by
  induction calls generalizing slot with
  | nil => simp [answers]
  | cons call calls ih =>
    cases call with
    | report error =>
      have later := ih (slot.report error).2
      rw [report_pending] at later
      rw [answers, List.filterMap_cons, Call.reported?]
      cases pending : slot.pending with
      | none => simpa [pending] using later
      | some kept =>
        rw [pending] at later
        exact later.trans (.cons_cons kept (List.sublist_cons_self _ _))
    | take =>
      have later : (empty.answers calls).reduceOption.Sublist (calls.filterMap Call.reported?) :=
        ih empty
      rw [answers, List.filterMap_cons, Call.reported?, take]
      cases slot.pending with
      | none => exact later
      | some kept => exact later.cons_cons kept

/-! ## The empty slot -/

/-- A slot that was empty in the beginning gives to each take the first error of the period that it
ends, whatever was reported after it, and nothing if no error was. It holds an error exactly if one
was reported since the last take. What was taken is taken from what was reported, in this order and
no error more often than it was reported, and a period with a report never gives nothing. -/
theorem first_of_each_period_kept (calls : List Call) :
    ∃ closed current, periods calls = closed ++ [current] ∧
      empty.answers calls = closed.map List.head? ∧
      ((empty.after calls).hasError = true ↔ current ≠ []) ∧
      (empty.after calls).take.1 = current.head? ∧
      (empty.answers calls).reduceOption.Sublist (calls.filterMap Call.reported?) ∧
      (∀ error, (empty.answers calls).count (some error) ≤ calls.count (.report error)) ∧
      ∀ (i : Nat) (period : List FetchError), closed[i]? = some period → period ≠ [] →
        ∃ error ∈ period, (empty.answers calls)[i]? = some (some error) := by
  have split := List.dropLast_append_getLast (periods_ne_nil calls)
  generalize (periods calls).dropLast = closed,
    (periods calls).getLast (periods_ne_nil calls) = current at split
  obtain ⟨first, others, same⟩ := List.exists_cons_of_ne_nil (periods_ne_nil calls)
  have answered : empty.answers calls ++ [(empty.after calls).pending] =
      (first :: others).map List.head? :=
    empty.answers_eq same
  rw [← same, ← split, List.map_append, List.map_singleton, List.append_singleton_inj] at answered
  obtain ⟨answered, pending⟩ := answered
  have reported : (empty.answers calls).reduceOption.Sublist (calls.filterMap Call.reported?) :=
    empty.taken_sublist calls
  refine ⟨closed, current, split.symm, answered, ?_, pending, reported, ?_, ?_⟩
  · rw [hasError, pending, List.isSome_head?]
  · intro error
    have often := reported.count_le error
    rw [List.reduceOption, List.count_filterMap, List.count_filterMap] at often
    have reports : (fun call => Call.reported? call == some error) = (· == Call.report error) := by
      funext call
      cases call <;> simp [Call.reported?]
    rw [reports] at often
    exact often
  · intro i period found reports
    obtain ⟨error, rest, rfl⟩ := List.exists_cons_of_ne_nil reports
    exact ⟨error, List.mem_cons_self, by rw [answered, List.getElem?_map, found]; rfl⟩

end ChangeStream.ErrorSlot
