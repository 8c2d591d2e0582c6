import ChangeStream.Sink.Recording

/-!
# The books of a recording sink

A sink that was told to refuse some watermarks refuses just the first ones of those that it is
handed, each as interrupted, and takes everything else. It keeps what it takes in the order in which
it comes, counts all watermarks that it is handed, and knows how many it is still to refuse.
-/

namespace ChangeStream

variable {κ : Type}

namespace Sink

/-- The answers of a sink to records that it is handed one after the other. -/
def replies (sink : Sink κ) (state : κ) : List Record → List Reply
  | [] => []
  | record :: records => (sink state record).1 :: sink.replies (sink state record).2 records

/-- The sink after some records. -/
def after (sink : Sink κ) (state : κ) : List Record → κ
  | [] => state
  | record :: records => sink.after (sink state record).2 records

/-- The records that a sink takes of those that it is handed. -/
def taken (sink : Sink κ) (state : κ) (records : List Record) : List Record :=
  ((records.zip (sink.replies state records)).filter fun answered => answered.2.refusal.isNone).map
    Prod.fst

theorem taken_cons (sink : Sink κ) (state : κ) (record : Record) (records : List Record) :
    sink.taken state (record :: records) =
      if (sink state record).1.refusal.isNone then
        record :: sink.taken (sink state record).2 records
      else sink.taken (sink state record).2 records := by
  rw [taken, replies, List.zip_cons_cons, List.filter_cons]
  split <;> rfl

end Sink

namespace Recorder

/-! ## One record -/

theorem sink_change (state : Recorder) (split : SplitId) (event : Change) :
    sink state (.change split event) = (.accepted, state.keep (.change split event)) := rfl

theorem sink_watermark (kept : List Record) (attempts : Nat) (event : Watermark) :
    sink ⟨kept, 0, attempts⟩ (.watermark event) =
      (.accepted, ⟨.watermark event :: kept, 0, attempts + 1⟩) := rfl

theorem sink_refused_watermark (kept : List Record) (left attempts : Nat) (event : Watermark) :
    sink ⟨kept, left + 1, attempts⟩ (.watermark event) =
      (.refused .interrupted, ⟨kept, left, attempts + 1⟩) := rfl

/-- A sink that is handed records goes on with the rest after a change, after a watermark that it
takes and after one that it refuses. -/
theorem handing_induction {motive : Recorder → List Record → Prop}
    (nil : ∀ state, motive state [])
    (change :
      ∀ state split event records, motive (state.keep (.change split event)) records →
      motive state (.change split event :: records))
    (taken :
      ∀ kept attempts event records, motive ⟨.watermark event :: kept, 0, attempts + 1⟩ records →
      motive ⟨kept, 0, attempts⟩ (.watermark event :: records))
    (refused :
      ∀ kept left attempts event records, motive ⟨kept, left, attempts + 1⟩ records →
      motive ⟨kept, left + 1, attempts⟩ (.watermark event :: records))
    (state : Recorder) (records : List Record) : motive state records := by
  induction records generalizing state with
  | nil => exact nil state
  | cons record records ih =>
    obtain ⟨kept, refusals, attempts⟩ := state
    cases record with
    | change split event => exact change _ split event records (ih _)
    | watermark event =>
      cases refusals with
      | zero => exact taken kept attempts event records (ih _)
      | succ left => exact refused kept left attempts event records (ih _)

/-! ## Any number of records -/

theorem attempts_after (state : Recorder) (records : List Record) :
    (sink.after state records).attempts = state.attempts + records.countP Record.isWatermark := by
  induction state, records using handing_induction with
  | nil state => rfl
  | change state split event records ih => exact ih
  | taken kept attempts event records ih =>
    rw [Sink.after, sink_watermark, ih, List.countP_cons_of_pos rfl]
    exact Nat.add_right_comm attempts 1 _
  | refused kept left attempts event records ih =>
    rw [Sink.after, sink_refused_watermark, ih, List.countP_cons_of_pos rfl]
    exact Nat.add_right_comm attempts 1 _

theorem refusals_after (state : Recorder) (records : List Record) :
    (sink.after state records).refusals = state.refusals - records.countP Record.isWatermark := by
  induction state, records using handing_induction with
  | nil state => rfl
  | change state split event records ih => exact ih
  | taken kept attempts event records ih =>
    rw [Sink.after, sink_watermark, ih, Nat.zero_sub, Nat.zero_sub]
  | refused kept left attempts event records ih =>
    rw [Sink.after, sink_refused_watermark, ih, List.countP_cons_of_pos rfl]
    exact (Nat.add_sub_add_right left 1 _).symm

theorem records_after (state : Recorder) (records : List Record) :
    (sink.after state records).records = state.records ++ sink.taken state records := by
  induction state, records using handing_induction with
  | nil state => exact (List.append_nil _).symm
  | change state split event records ih =>
    rw [Sink.after, sink_change, ih, records_keep, Sink.taken_cons, List.append_assoc]
    rfl
  | taken kept attempts event records ih =>
    rw [Sink.after, sink_watermark, ih, Sink.taken_cons]
    simp [Recorder.records, sink_watermark, Reply.accepted]
  | refused kept left attempts event records ih =>
    rw [Sink.after, sink_refused_watermark, ih, Sink.taken_cons]
    rfl

/-- Changes are never refused. -/
theorem changes_taken (state : Recorder) (records : List Record) :
    (sink.taken state records).filterMap Record.change? = records.filterMap Record.change? := by
  induction state, records using handing_induction with
  | nil state => rfl
  | change state split event records ih =>
    rw [Sink.taken_cons, sink_change]
    exact congrArg (event :: ·) ih
  | taken kept attempts event records ih =>
    rw [Sink.taken_cons, sink_watermark]
    exact ih
  | refused kept left attempts event records ih =>
    rw [Sink.taken_cons, sink_refused_watermark]
    exact ih

/-- The first watermarks are refused, as many as are still to be. -/
theorem watermarks_taken (state : Recorder) (records : List Record) :
    (sink.taken state records).filterMap Record.watermark? =
      (records.filterMap Record.watermark?).drop state.refusals := by
  induction state, records using handing_induction with
  | nil state => simp [Sink.taken, Sink.replies]
  | change state split event records ih =>
    rw [Sink.taken_cons, sink_change]
    exact ih
  | taken kept attempts event records ih =>
    rw [Sink.taken_cons, sink_watermark]
    exact congrArg (event :: ·) ih
  | refused kept left attempts event records ih =>
    rw [Sink.taken_cons, sink_refused_watermark]
    exact ih

/-- A record is refused if it is a watermark and fewer watermarks came before it than are
to be refused. -/
theorem replies_eq (state : Recorder) (records : List Record) :
    sink.replies state records =
      records.mapIdx fun i record =>
        if record.isWatermark && (records.take i).countP Record.isWatermark < state.refusals then
          .refused .interrupted
        else .accepted := by
  induction state, records using handing_induction with
  | nil state => rfl
  | change state split event records ih =>
    rw [Sink.replies, sink_change, ih, List.mapIdx_cons]
    rfl
  | taken kept attempts event records ih =>
    rw [Sink.replies, sink_watermark, ih, List.mapIdx_cons]
    simp
  | refused kept left attempts event records ih =>
    rw [Sink.replies, sink_refused_watermark, ih, List.mapIdx_cons]
    have one_more (i : Nat) :
        ((Record.watermark event :: records).take (i + 1)).countP Record.isWatermark =
        (records.take i).countP Record.isWatermark + 1 := List.countP_cons_of_pos rfl
    simp only [one_more, Nat.add_lt_add_iff_right]
    rfl

theorem count_refused (state : Recorder) (records : List Record) :
    (sink.replies state records).countP (·.refusal.isSome) =
      min state.refusals (records.countP Record.isWatermark) := by
  induction state, records using handing_induction with
  | nil state => exact (Nat.min_zero _).symm
  | change state split event records ih =>
    rw [Sink.replies, sink_change, List.countP_cons_of_neg Bool.false_ne_true, ih,
      List.countP_cons_of_neg Bool.false_ne_true]
    rfl
  | taken kept attempts event records ih =>
    rw [Sink.replies, sink_watermark, List.countP_cons_of_neg Bool.false_ne_true, ih,
      Nat.zero_min, Nat.zero_min]
  | refused kept left attempts event records ih =>
    rw [Sink.replies, sink_refused_watermark, List.countP_cons_of_pos rfl, ih,
      List.countP_cons_of_pos rfl]
    exact (Nat.add_min_add_right left _ 1).symm

/-- A record is a watermark or a change. -/
theorem length_watermarks_add_changes (records : List Record) :
    (records.filterMap Record.watermark?).length + (records.filterMap Record.change?).length =
      records.length := by
  induction records with
  | nil => rfl
  | cons record records ih =>
    cases record with
    | change split event => exact congrArg (· + 1) ih
    | watermark event =>
      have next := congrArg (· + 1) ih
      rwa [← Nat.add_right_comm] at next

/-- A sink that is to refuse so many watermarks and is handed some records refuses the first
watermarks, that many or all of them, each as interrupted, and takes everything else. It keeps the
records that it takes, in order, of which the changes are all that it was handed and the watermarks
those after the first ones. It has counted all watermarks, and what it is still to refuse is what it
was to refuse less what it has refused. -/
theorem books_of_recording (count : Nat) (records : List Record) :
    let last := sink.after (refusing count) records
    let replies := sink.replies (refusing count) records
    let watermarks := records.countP Record.isWatermark
    (replies = records.mapIdx fun i record =>
        if record.isWatermark && (records.take i).countP Record.isWatermark < count then
          .refused .interrupted
        else .accepted) ∧
      replies.countP (·.refusal.isSome) = min count watermarks ∧
      last.attempts = watermarks ∧
      last.records = sink.taken (refusing count) records ∧
      last.watermarks = (records.filterMap Record.watermark?).drop count ∧
      last.changes = records.filterMap Record.change? ∧
      last.watermarks.length + last.changes.length = last.records.length ∧
      last.refusals + min count watermarks = count := by
  intro last replies watermarks
  have kept : last.records = sink.taken (refusing count) records := records_after _ _
  have left : last.refusals = count - watermarks := refusals_after _ _
  refine ⟨replies_eq _ _, count_refused _ _, ?attempts, kept, ?watermarks, ?changes,
    length_watermarks_add_changes _, by omega⟩
  case attempts => exact (attempts_after _ _).trans (Nat.zero_add _)
  case watermarks => rw [Recorder.watermarks, kept, watermarks_taken]; rfl
  case changes => rw [changes, kept, changes_taken]

end Recorder

end ChangeStream
