import ChangeStream.Sink.Basic

/-!
# Sinks that record what they take

A recorder is a sink that keeps the records it takes and counts the watermarks it is handed. It
refuses the first few watermarks, as many as it was told to, and nothing else.

A planned sink stands before a recorder. For each of the first changes, and likewise for each of
the first watermarks, it has a plan: to pass it on, to have the read closed and then pass it on,
or to refuse it.
-/

namespace ChangeStream

/-- A sink that records, and what it has seen. -/
structure Recorder where
  /-- The records taken, the latest first. -/
  kept : List Record
  /-- How many watermarks are still to be refused. -/
  refusals : Nat
  attempts : Nat
deriving DecidableEq

namespace Recorder

/-- A sink that refuses the first watermarks, as many as are given. -/
def refusing (count : Nat) : Recorder := { kept := [], refusals := count, attempts := 0 }

/-- A sink that takes everything. -/
def fresh : Recorder := refusing 0

/-- The records taken, in the order in which they came. -/
def records (sink : Recorder) : List Record := sink.kept.reverse

/-- The watermarks taken. -/
def watermarks (sink : Recorder) : List Watermark := sink.records.filterMap Record.watermark?

/-- The changes taken. -/
def changes (sink : Recorder) : List Change := sink.records.filterMap Record.change?

/-- Keeps a record. -/
def keep (sink : Recorder) (record : Record) : Recorder :=
  { sink with kept := record :: sink.kept }

@[simp] theorem records_keep (sink : Recorder) (record : Record) :
    (sink.keep record).records = sink.records ++ [record] := by
  simp [records, keep]

/-- The refusal of a record, if it is refused, and the sink afterwards. -/
def handle (sink : Recorder) (record : Record) : Option DispatchError × Recorder :=
  match record with
  | .change .. => (none, sink.keep record)
  | .watermark _ =>
    let sink := { sink with attempts := sink.attempts + 1 }
    match sink.refusals with
    | 0 => (none, sink.keep record)
    | left + 1 => (some .interrupted, { sink with refusals := left })

/-- The sink as such. -/
def sink : Sink Recorder := fun state record =>
  let (refusal, state) := state.handle record
  (⟨false, refusal⟩, state)

end Recorder

/-- What a planned sink does with a record. -/
inductive Plan
  | pass
  | closeAndPass
  | refuse (error : DispatchError)
deriving DecidableEq

/-- A sink with plans for what comes first. -/
structure PlannedSink where
  changePlans : List Plan
  watermarkPlans : List Plan
  recorder : Recorder
deriving DecidableEq

namespace PlannedSink

/-- Carries a plan out. -/
def carryOut (sink : PlannedSink) (record : Record) : Plan → Reply × PlannedSink
  | .pass =>
    let (refusal, recorder) := sink.recorder.handle record
    (⟨false, refusal⟩, { sink with recorder })
  | .closeAndPass =>
    let (refusal, recorder) := sink.recorder.handle record
    (⟨true, refusal⟩, { sink with recorder })
  | .refuse error => (.refused error, sink)

/-- The plan for a record, and the sink without it. Where no plan is left, records are passed on. -/
def plan (sink : PlannedSink) : Record → Plan × PlannedSink
  | .change .. =>
    match sink.changePlans with
    | plan :: rest => (plan, { sink with changePlans := rest })
    | [] => (.pass, sink)
  | .watermark _ =>
    match sink.watermarkPlans with
    | plan :: rest => (plan, { sink with watermarkPlans := rest })
    | [] => (.pass, sink)

/-- The sink as such. -/
def sink : Sink PlannedSink := fun state record =>
  let (plan, state) := state.plan record
  state.carryOut record plan

end PlannedSink

end ChangeStream
