import ChangeStream.Proofs.LastAttempt

/-!
# A close only truncates

A task that is closed while it runs hands over what it would have handed over without the close, up
to the record that is with the sink at that moment. Until the close the two runs are the same. After
it the closed one attempts nothing new, while the other one can only add to what it has attempted.
-/

namespace ChangeStream

variable {ε ρ κ : Type}

/-! ## The same without closes -/

/-- The move, which does nothing where it would close the task. -/
def Move.withoutClose : Move → Move
  | .close => .idle
  | move => move

/-- The engine, which does nothing where it would close the task. -/
def LogEngine.withoutCloses (engine : LogEngine ε ρ) : LogEngine ε ρ where
  start := engine.start
  next stopped progress state :=
    let (move, progress, state) := engine.next stopped progress state
    (move.withoutClose, progress, state)

/-- The outlet, which never has the task closed while it has a record. -/
def Outlet.withoutCloses (outlet : Outlet κ) : Outlet κ := fun state record =>
  (outlet state record).map fun (reply, state) => ({ reply with closes := false }, state)

/-- What a task is executed with, where neither the engine nor the sink closes it. -/
def TaskContext.withoutCloses (context : TaskContext ε ρ κ) : TaskContext ε ρ κ :=
  { context with engine := context.engine.withoutCloses, outlet := context.outlet.withoutCloses }

theorem Outlet.withoutCloses_of_full {outlet : Outlet κ} {state : κ} {record : Record}
    (full : outlet state record = none) : outlet.withoutCloses state record = none := by
  rw [withoutCloses, full, Option.map_none]

theorem Outlet.withoutCloses_of_answer {outlet : Outlet κ} {state next : κ} {record : Record}
    {reply : Reply} (answered : outlet state record = some (reply, next)) :
    outlet.withoutCloses state record = some ({ reply with closes := false }, next) := by
  rw [withoutCloses, answered, Option.map_some]

theorem LogEngine.withoutCloses_next {engine : LogEngine ε ρ} {stopped : Option StopReason}
    {progress after : ρ} {state later : ε} {move : Move}
    (next : engine.next stopped progress state = (move, after, later)) :
    engine.withoutCloses.next stopped progress state = (move.withoutClose, after, later) := by
  simp only [withoutCloses, next]

theorem Move.withoutClose_of_kept {move : Move} (kept : (Deed.move move).closes = false) :
    move.withoutClose = move := by
  cases move with
  | close => cases kept
  | _ => rfl

theorem Move.withoutClose_kept (move : Move) : (Deed.move move.withoutClose).closes = false := by
  cases move <;> rfl

namespace Execution

variable {engine : LogEngine ε ρ} {outlet : Outlet κ} {x : Execution ρ} {shared : Shared ε κ}
  {record : Record} {reply : Reply} {state : κ}

/-- A step that closes nothing is the same without closes. -/
theorem step_withoutCloses (working : x.ending = none)
    (kept : (x.deed engine outlet shared).closes = false) :
    x.step engine.withoutCloses outlet.withoutCloses shared = x.step engine outlet shared := by
  cases offered : x.offered with
  | some record =>
    cases answer : outlet shared.sink record with
    | none =>
      rw [step_of_full working offered answer,
        step_of_full working offered (Outlet.withoutCloses_of_full answer)]
    | some answered =>
      obtain ⟨⟨closes, refusal⟩, state⟩ := answered
      simp only [deed, working, offered, answer, Deed.closes] at kept
      subst kept
      rw [step_of_answer working offered answer,
        step_of_answer working offered (Outlet.withoutCloses_of_answer answer)]
  | none =>
    obtain ⟨⟨move, progress, state⟩, hnext⟩ :
        ∃ next, engine.next x.reading.run.stopReason x.progress shared.engine = next := ⟨_, rfl⟩
    simp only [deed, working, offered, hnext] at kept
    have also := LogEngine.withoutCloses_next hnext
    rw [Move.withoutClose_of_kept kept] at also
    rw [step_of_move working offered hnext, step_of_move working offered also]

theorem deed_withoutCloses (engine : LogEngine ε ρ) (outlet : Outlet κ) (x : Execution ρ)
    (shared : Shared ε κ) :
    (x.deed engine.withoutCloses outlet.withoutCloses shared).closes = false := by
  cases working : x.ending with
  | some ending =>
    simp only [deed, working]
    rfl
  | none =>
    cases offered : x.offered with
    | none =>
      simp only [deed, working, offered]
      exact Move.withoutClose_kept _
    | some record =>
      simp only [deed, working, offered, Outlet.withoutCloses]
      cases outlet shared.sink record <;> rfl

/-- A cleared flag stays cleared, so that nothing more is offered. -/
theorem Step.stopped {x' : Execution ρ} {shared' : Shared ε κ} {deed : Deed} {more : Trace}
    (step : Step engine outlet x shared deed x' shared' more) (idle : x.offered = none)
    (stopped : x.reading.run.running = false) :
    x'.offered = none ∧ x'.reading.run.running = false ∧ more.attempts = [] := by
  cases step with
  | nothing => exact ⟨idle, stopped, rfl⟩
  | answer offered answered => cases idle.symm.trans offered
  | @move move progress state offered next =>
    refine ⟨?_, ?_, (perform_quiet _ _).attempts⟩
    · cases later : ({ x with progress }.perform move).1.offered with
      | none => rfl
      | some record =>
        have running := (signal_of_offered offered later).2
        cases stopped.symm.trans ((RunContext.isRunning_iff _).mp running).2
    · rw [perform_reading]
      cases move with
      | finish => simpa only [Reading.after, Reading.finish_eq] using stopped
      | fail => simpa only [Reading.after, Reading.fail_eq] using stopped
      | close => rfl
      | signal | idle | wait | observe | takeRound | executeAgain | log | leave => exact stopped

end Execution

/-! ## Up to the first close -/

namespace Course

variable {context : TaskContext ε ρ κ} {course : Course ε ρ κ} {turn : Turn} {range : Range}

theorem deed_withoutCloses (context : TaskContext ε ρ κ) (run : TaskRun ρ) (shared : Shared ε κ) :
    (run.deed context.withoutCloses shared).closes = false := by
  cases run with
  | executing x => exact x.deed_withoutCloses context.engine context.outlet shared
  | starting | settled | exited => rfl

theorem step_withoutCloses {run : TaskRun ρ} {shared : Shared ε κ}
    (kept : (run.deed context shared).closes = false) :
    run.step context.withoutCloses.engine context.withoutCloses.outlet context.withoutCloses.source
        context.withoutCloses.pollInterval shared =
      run.step context.engine context.outlet context.source context.pollInterval shared := by
  cases run with
  | starting | settled | exited => rfl
  | executing x =>
    cases working : x.ending with
    | some ending => simp only [TaskRun.step, working]
    | none =>
      have same := Execution.step_withoutCloses working kept
      simp only [TaskRun.step, working, TaskContext.withoutCloses, same]

theorem take_step_withoutCloses (kept : (course.run.deed context course.shared).closes = false) :
    course.take context.withoutCloses .step = course.take context .step := by
  simp only [take, deed_withoutCloses, kept, step_withoutCloses kept]

theorem closes_isPrefix (context : TaskContext ε ρ κ) (course : Course ε ρ κ) (turns : List Turn) :
    course.closes <+: (course.takeAll context turns).closes := by
  induction turns generalizing course with
  | nil => exact List.prefix_rfl
  | cons turn rest ih =>
    refine List.IsPrefix.trans ?_ (ih (course.take context turn))
    cases turn with
    | close => exact List.prefix_append ..
    | step =>
      simp only [take]
      split
      · exact List.prefix_append ..
      · exact List.prefix_rfl

/-- A turn that closes nothing is a step that closes nothing. -/
theorem step_of_unclosed (unclosed : (course.take context turn).closes = []) :
    turn = .step ∧ (course.run.deed context course.shared).closes = false := by
  cases turn with
  | close => exact absurd unclosed (List.append_ne_nil_of_right_ne_nil _ (List.cons_ne_nil _ _))
  | step =>
    simp only [take] at unclosed
    split at unclosed
    · exact absurd unclosed (List.append_ne_nil_of_right_ne_nil _ (List.cons_ne_nil _ _))
    · next kept => exact ⟨rfl, Bool.eq_false_iff.mpr kept⟩

/-- As long as the task has not been closed, the course is the one without closes. -/
theorem takeAll_withoutCloses {turns : List Turn}
    (unclosed : (course.takeAll context turns).closes = []) :
    course.takeAll context.withoutCloses (turns.filter (· = .step)) =
      course.takeAll context turns := by
  induction turns generalizing course with
  | nil => rfl
  | cons turn rest ih =>
    -- What has closed the task by the first turn would still be there in the end.
    have first : (course.take context turn).closes = [] :=
      List.prefix_nil.mp (unclosed ▸ closes_isPrefix context (course.take context turn) rest)
    obtain ⟨rfl, kept⟩ := step_of_unclosed first
    rw [List.filter_cons_of_pos (by rfl), takeAll_cons, takeAll_cons, take_step_withoutCloses kept]
    exact ih unclosed

theorem attempts_isPrefix (context : TaskContext ε ρ κ) (course : Course ε ρ κ) (turn : Turn) :
    course.trace.attempts <+: (course.take context turn).trace.attempts := by
  cases turn with
  | close => exact List.prefix_rfl
  | step =>
    rw [show (course.take context .step).trace.attempts = _ from Trace.attempts_append ..]
    exact List.prefix_append ..

/-! ## After the first close -/

/-- The task will attempt nothing more. -/
inductive Silent (course : Course ε ρ κ) : Prop
  | stopped {x : Execution ρ} (run : course.run = .executing x) (idle : x.offered = none)
      (stopped : x.reading.run.running = false)
  | finished (ended : course.run.IsOver)

theorem Later.attempts {other : Course ε ρ κ} (later : course.Later other) :
    other.trace.attempts = course.trace.attempts := by
  obtain ⟨events, hlogs⟩ := later.logs
  rw [hlogs, Trace.attempts_append, Trace.attempts_ofLogs, List.append_nil]

theorem Silent.take (silent : course.Silent) (context : TaskContext ε ρ κ) (turn : Turn) :
    (course.take context turn).Silent ∧
    (course.take context turn).trace.attempts = course.trace.attempts := by
  cases silent with
  | finished ended =>
    obtain ⟨later, stays⟩ := later_of_over ended context turn
    exact ⟨.finished stays, later.attempts⟩
  | @stopped x run idle stopped =>
    cases turn with
    | close =>
      refine ⟨.stopped (x := { x with reading := x.reading.close }) ?_ idle rfl, rfl⟩
      rw [Course.take, run, TaskRun.close]
    | step =>
      cases left : x.ending with
      | some ending =>
        exact ⟨.finished (over_of_leaving run left), (later_of_leaving run left).attempts⟩
      | none =>
        obtain ⟨hidle, hstopped, hattempts⟩ :=
          (x.step_spec context.engine context.outlet course.shared).stopped idle stopped
        rw [take_step_working run left]
        refine ⟨.stopped rfl hidle hstopped, ?_⟩
        rw [Trace.attempts_append, hattempts, List.append_nil]

/-- The close has come while the sink had a record, and the sink still has it. -/
structure UnderWay (closed whole : Course ε ρ κ) (x y : Execution ρ) (record : Record) : Prop where
  run : closed.run = .executing x
  wholeRun : whole.run = .executing y
  stopped : x.reading.run.running = false
  offered : x.offered = some record
  wholeOffered : y.offered = some record
  working : x.ending = none
  wholeWorking : y.ending = none
  sink : whole.shared.sink = closed.shared.sink
  attempts : whole.trace.attempts = closed.trace.attempts

/-- A course that was closed, next to the one without closes: the attempts of the first are so many
of the other. -/
inductive Trails (cut : Nat) (closed whole : Course ε ρ κ) : Prop
  | underWay {x y : Execution ρ} {record : Record} (underWay : closed.UnderWay whole x y record)
      (last : cut = closed.trace.attempts.length + 1)
  | silent (silent : closed.Silent) (enough : cut ≤ whole.trace.attempts.length)
      (attempts : closed.trace.attempts = whole.trace.attempts.take cut)

namespace Trails

variable {cut : Nat} {closed whole : Course ε ρ κ}

theorem attempts_eq (trails : Trails cut closed whole) :
    closed.trace.attempts = whole.trace.attempts.take cut := by
  cases trails with
  | silent silent enough attempts => exact attempts
  | underWay underWay last => rw [underWay.attempts, List.take_of_length_le (by omega)]

theorem close (trails : Trails cut closed whole) (context : TaskContext ε ρ κ) :
    Trails cut (closed.take context .close) whole := by
  cases trails with
  | silent silent enough attempts =>
    obtain ⟨still, same⟩ := silent.take context .close
    exact .silent still enough (same.trans attempts)
  | @underWay x y record underWay last =>
    have closedRun : (closed.take context .close).run =
        .executing { x with reading := x.reading.close } := by
      rw [Course.take, underWay.run, TaskRun.close]
    exact .underWay { underWay with run := closedRun, stopped := rfl } last

theorem silent_step (silent : closed.Silent) (enough : cut ≤ whole.trace.attempts.length)
    (attempts : closed.trace.attempts = whole.trace.attempts.take cut)
    (context other : TaskContext ε ρ κ) :
    Trails cut (closed.take context .step) (whole.take other .step) := by
  obtain ⟨still, same⟩ := silent.take context .step
  obtain ⟨more, grown⟩ := attempts_isPrefix other whole .step
  refine .silent still ?_ ?_
  · rw [← grown, List.length_append]
    exact Nat.le_add_right_of_le enough
  · rw [same, attempts, ← grown, List.take_append_of_le_length enough]

/-- The sink answers both or neither. -/
theorem underWay_step {x y : Execution ρ} {record : Record}
    (underWay : closed.UnderWay whole x y record) (last : cut = closed.trace.attempts.length + 1)
    (context : TaskContext ε ρ κ) :
    Trails cut (closed.take context .step) (whole.take context.withoutCloses .step) := by
  have closedTake : closed.take context .step = _ := take_step_working underWay.run underWay.working
  have wholeTake : whole.take context.withoutCloses .step = _ :=
    take_step_working underWay.wholeRun underWay.wholeWorking
  cases answer : context.outlet closed.shared.sink record with
  | none =>
    have full : context.withoutCloses.outlet whole.shared.sink record = none :=
      underWay.sink ▸ Outlet.withoutCloses_of_full answer
    simp only [Execution.step_of_full underWay.working underWay.offered answer,
      List.append_nil] at closedTake
    simp only [Execution.step_of_full underWay.wholeWorking underWay.wholeOffered full,
      List.append_nil]
      at wholeTake
    rw [closedTake, wholeTake]
    exact .underWay { underWay with run := rfl, wholeRun := rfl } last
  | some answered =>
    obtain ⟨reply, state⟩ := answered
    have also : context.withoutCloses.outlet whole.shared.sink record =
        some ({ reply with closes := false }, state) :=
          underWay.sink ▸ Outlet.withoutCloses_of_answer answer
    rw [Execution.step_of_answer underWay.working underWay.offered answer] at closedTake
    rw [Execution.step_of_answer underWay.wholeWorking underWay.wholeOffered also] at wholeTake
    have grown : (closed.take context .step).trace.attempts =
        closed.trace.attempts ++ [(record, reply.refusal)] := by
      rw [closedTake, Trace.attempts_append]
      exact congrArg _ (x.reading.conclude_attempts record reply)
    have wholeGrown : (whole.take context.withoutCloses .step).trace.attempts =
        closed.trace.attempts ++ [(record, reply.refusal)] := by
      rw [wholeTake, Trace.attempts_append, underWay.attempts]
      exact congrArg _ (y.reading.conclude_attempts record { reply with closes := false })
    have length : cut = (whole.take context.withoutCloses .step).trace.attempts.length := by
      rw [wholeGrown, List.length_append, List.length_singleton, last]
    refine .silent ?_ (Nat.le_of_eq length) ?_
    · rw [closedTake]
      refine .stopped rfl rfl ?_
      simp only [Execution.answer, Reading.conclude_eq, underWay.stopped, Bool.false_and]
    · rw [grown, length, List.take_length, wholeGrown]

theorem step (trails : Trails cut closed whole) (context : TaskContext ε ρ κ) :
    Trails cut (closed.take context .step) (whole.take context.withoutCloses .step) := by
  cases trails with
  | silent silent enough attempts =>
    exact silent_step silent enough attempts context context.withoutCloses
  | underWay underWay last => exact underWay_step underWay last context

theorem takeAll (trails : Trails cut closed whole) (context : TaskContext ε ρ κ)
    (turns : List Turn) :
    Trails cut (closed.takeAll context turns)
      (whole.takeAll context.withoutCloses (turns.filter (· = .step))) := by
  induction turns generalizing closed whole with
  | nil => exact trails
  | cons turn rest ih =>
    cases turn with
    | close => exact ih (trails.close context)
    | step =>
      rw [List.filter_cons_of_pos (by rfl)]
      exact ih (trails.step context)

end Trails

end Course

/-- The record that is with the sink. -/
def TaskRun.offered? : TaskRun ρ → Option Record
  | .executing x => x.offered
  | .starting _ | .settled .. | .exited .. => none

namespace Course

/-- Where the attempts are cut off by a close that has just come: after the last one, or after the
one under way. -/
def cutHere (course : Course ε ρ κ) : Nat :=
  course.trace.attempts.length + course.run.offered?.toList.length

variable {context : TaskContext ε ρ κ} {course : Course ε ρ κ} {turn : Turn} {range : Range}

theorem trails_of_silent {closed whole : Course ε ρ κ} (silent : closed.Silent)
    (nothing : closed.run.offered? = none)
    (attempts : whole.trace.attempts = closed.trace.attempts) :
    Trails closed.cutHere closed whole := by
  have cut : closed.cutHere = closed.trace.attempts.length := by
    rw [cutHere, nothing]
    rfl
  rw [cut]
  refine .silent silent ?_ ?_
  · exact Nat.le_of_eq (congrArg List.length attempts).symm
  · rw [attempts, List.take_length]

/-- Another party closes the task. -/
theorem trails_of_close {x : Execution ρ} (run : course.run = .executing x)
    (undecided : x.Undecided range course.trace) (context : TaskContext ε ρ κ) :
    Trails (course.take context .close).cutHere (course.take context .close) course := by
  have closed : (course.take context .close).run =
      .executing { x with reading := x.reading.close } := by
    rw [take, run, TaskRun.close]
  cases offered : x.offered with
  | none =>
    refine trails_of_silent (.stopped closed offered rfl) ?_ rfl
    rw [closed]
    exact offered
  | some record =>
    have working := undecided.ending offered
    refine .underWay ⟨closed, run, rfl, offered, offered, working, working, rfl, rfl⟩ ?_
    rw [cutHere, closed, TaskRun.offered?, offered]
    rfl

/-- The sink closes the task while it has a record. -/
theorem trails_of_answer {x : Execution ρ} {record : Record} {reply : Reply} {state : κ}
    (run : course.run = .executing x) (working : x.ending = none)
    (offered : x.offered = some record)
    (answered : context.outlet course.shared.sink record = some (reply, state))
    (closes : reply.closes = true) :
    Trails (course.take context .step).cutHere (course.take context .step)
      (course.take context.withoutCloses .step) := by
  have closedTake : course.take context .step = _ := take_step_working run working
  have wholeTake : course.take context.withoutCloses .step = _ := take_step_working run working
  have also : context.withoutCloses.outlet course.shared.sink record =
      some ({ reply with closes := false }, state) := Outlet.withoutCloses_of_answer answered
  rw [Execution.step_of_answer working offered answered] at closedTake
  rw [Execution.step_of_answer working offered also] at wholeTake
  rw [closedTake, wholeTake]
  refine trails_of_silent (.stopped rfl rfl ?_) rfl ?_
  · simp only [Execution.answer, Reading.conclude_eq, closes, Bool.not_true, Bool.and_false]
  · simp only [Execution.answer, Trace.attempts_append, Reading.conclude_attempts]

/-- The engine closes the task. -/
theorem trails_of_closing_move {x : Execution ρ} {progress : ρ} {state : ε}
    (run : course.run = .executing x) (working : x.ending = none) (idle : x.offered = none)
    (next : context.engine.next x.reading.run.stopReason x.progress course.shared.engine =
      (.close, progress, state)) :
    Trails (course.take context .step).cutHere (course.take context .step)
      (course.take context.withoutCloses .step) := by
  have closedTake : course.take context .step = _ := take_step_working run working
  have wholeTake : course.take context.withoutCloses .step = _ := take_step_working run working
  have also :
      context.withoutCloses.engine.next x.reading.run.stopReason x.progress course.shared.engine =
      (.idle, progress, state) := LogEngine.withoutCloses_next next
  rw [Execution.step_of_move working idle next] at closedTake
  rw [Execution.step_of_move working idle also] at wholeTake
  rw [closedTake, wholeTake]
  exact trails_of_silent (.stopped rfl idle rfl) idle rfl

theorem trails_of_step {x : Execution ρ} (run : course.run = .executing x)
    (closes : (x.deed context.engine context.outlet course.shared).closes = true) :
    Trails (course.take context .step).cutHere (course.take context .step)
      (course.take context.withoutCloses .step) := by
  cases working : x.ending with
  | some ending =>
    simp only [Execution.deed, working] at closes
    cases closes
  | none =>
    cases offered : x.offered with
    | some record =>
      cases answer : context.outlet course.shared.sink record with
      | none =>
        simp only [Execution.deed, working, offered, answer] at closes
        cases closes
      | some answered =>
        simp only [Execution.deed, working, offered, answer] at closes
        exact trails_of_answer run working offered answer closes
    | none =>
      obtain ⟨⟨move, progress, state⟩, next⟩ :
          ∃ next, context.engine.next x.reading.run.stopReason x.progress course.shared.engine =
            next := ⟨_, rfl⟩
      simp only [Execution.deed, working, offered, next] at closes
      obtain rfl : move = .close := by
        cases move with
        | close => rfl
        | _ => cases closes
      exact trails_of_closing_move run working offered next

/-- The first close of a task that is being executed. -/
theorem trails_of_first_close (proper : course.Proper range) (unclosed : course.closes = [])
    (closes : (course.take context turn).closes = [.executing]) :
    Trails (course.take context turn).cutHere (course.take context turn)
      (course.takeAll context.withoutCloses ([turn].filter (· = .step))) := by
  cases turn with
  | close =>
    have executing : course.run.phase = .executing := by
      simp only [take, unclosed, List.nil_append] at closes
      exact (List.cons.inj closes).1
    cases run : course.run with
    | executing x => exact trails_of_close run (proper.undecided run) context
    | starting task | settled task result | exited task result =>
      rw [run] at executing
      cases executing
  | step =>
    cases deed : (course.run.deed context course.shared).closes with
    | false =>
      simp only [take, deed, unclosed] at closes
      cases closes
    | true =>
      cases run : course.run with
      | executing x =>
        rw [run] at deed
        exact trails_of_step run deed
      | starting task | settled task result | exited task result =>
        rw [run] at deed
        cases deed

/-! ## The two runs -/

theorem closes_withoutCloses (context : TaskContext ε ρ κ) (course : Course ε ρ κ)
    (turns : List Turn) :
    (course.takeAll context.withoutCloses (turns.filter (· = .step))).closes = course.closes := by
  induction turns generalizing course with
  | nil => rfl
  | cons turn rest ih =>
    cases turn with
    | close => exact ih course
    | step =>
      rw [List.filter_cons_of_pos (by rfl), takeAll_cons, ih]
      simp only [take, deed_withoutCloses, Bool.false_eq_true, if_false]

/-- A task that is closed while it is executed has been entered. -/
theorem entered_of_first_close {range : Range} {shared : Shared ε κ} {before : List Turn}
    (unclosed : ((start (.create range) shared).takeAll context before).closes = [])
    (closes : (((start (.create range) shared).takeAll context before).take context turn).closes =
      [.executing]) :
    ∃ rest, before = .step :: rest := by
  cases before with
  | nil =>
    cases turn with
    | step => cases closes
    | close => cases closes
  | cons first rest =>
    have none_yet : ((start (.create range) shared).take context first).closes = [] :=
      List.prefix_nil.mp (unclosed ▸ closes_isPrefix context _ rest)
    obtain ⟨rfl, -⟩ := step_of_unclosed none_yet
    exact ⟨rest, rfl⟩

/-- A last attempt that gives a verdict decides in which state the task is left. -/
theorem state_of_last_attempt (context : TaskContext ε ρ κ) (range : Range) (shared : Shared ε κ)
    (turns : List Turn) {attempt : Record × Option DispatchError} {verdict : Verdict}
    {result : TaskResult} :
    let course := (start (.create range) shared).takeAll context (.step :: turns)
    course.trace.attempts.getLast? = some attempt →
    (Occurrence.dispatched attempt.1 attempt.2).verdict? range.isBounded = some verdict →
    course.run.result? = some result →
    ∃ ending : Ending, result = ending.result ∧
      course.run.task.state = ending.settles (some verdict) course.closedInTime := by
  intro course last gives exited
  obtain ⟨earlier, split⟩ := List.getLast?_eq_some_iff.mp last
  have orderly := (proper_takeAll context range shared (.step :: turns)).orderly
  obtain ⟨-, verdict_eq⟩ := orderly.last split gives
  have created : (FetchTask.create range).state = .created := rfl
  obtain ⟨ending, -, hresult, -, hstate⟩ :=
    (settlement_law context created shared turns).2 result exited
  exact ⟨ending, hresult, hstate.trans (congrArg (ending.settles · course.closedInTime) verdict_eq)⟩

/-- A created task is executed with any engine and any sink, and at any time while it is executed
it is closed for the first time, by another party, by the engine, or by the sink while it has a
record. Its attempts are those of the run with the same steps in which nobody closes the task,
cut off after the last attempt so far, or after the one that is under way; whatever comes later,
be it further closes, adds none. If the last of them was refused the task ends as failed, and if
it was the END watermark and was taken, as completed, or as failed where the engine does not
return as it should. -/
theorem close_only_truncates (context : TaskContext ε ρ κ) (range : Range) (shared : Shared ε κ)
    (before : List Turn) (turn : Turn) (after : List Turn) :
    let course := (start (.create range) shared).takeAll context before
    let closing := course.take context turn
    let closed := closing.takeAll context after
    let whole := (start (.create range) shared).takeAll context.withoutCloses
      ((before ++ turn :: after).filter (· = .step))
    course.closes = [] → closing.closes = [.executing] →
    whole.closes = [] ∧ closed.trace.attempts = whole.trace.attempts.take closing.cutHere ∧
    (∀ record error result, closed.trace.attempts.getLast? = some (record, some error) →
      closed.run.result? = some result → closed.run.task.state = .failed) ∧
    (∀ record result, closed.trace.attempts.getLast? = some (record, none) → record.isEnd = true →
      closed.run.result? = some result →
      (result = .ok → closed.run.task.state = .completed) ∧
        (result ≠ .ok → closed.run.task.state = .failed)) := by
  intro course closing closed whole unclosed closes
  have proper : course.Proper range := proper_takeAll context range shared before
  -- Up to the close the two runs are one, and from there on the closed one trails the other.
  have same : whole = (course.takeAll context.withoutCloses ([turn].filter (· = .step))).takeAll
      context.withoutCloses (after.filter (· = .step)) := by
    have split : before ++ turn :: after = before ++ [turn] ++ after := by
      rw [List.append_assoc]; rfl
    change Course.takeAll _ _ _ = _
    rw [split, List.filter_append, List.filter_append, takeAll_append, takeAll_append,
      takeAll_withoutCloses unclosed]
  obtain ⟨rest, hbefore⟩ := entered_of_first_close unclosed closes
  have hclosed : closed =
      (start (.create range) shared).takeAll context (.step :: (rest ++ turn :: after)) := by
    rw [← List.cons_append, ← hbefore, takeAll_append]
    rfl
  refine ⟨closes_withoutCloses context _ _, ?_, ?_, ?_⟩
  · rw [same]
    exact ((trails_of_first_close proper unclosed closes).takeAll context after).attempts_eq
  · intro record error result last exited
    rw [hclosed] at last exited ⊢
    obtain ⟨ending, -, state⟩ := state_of_last_attempt context range shared _ last rfl exited
    rw [state]
    cases ending <;> rfl
  · intro record result last isEnd exited
    rw [hclosed] at last exited ⊢
    have orderly := (proper_takeAll context range shared (.step :: (rest ++ turn :: after))).orderly
    have attempted := List.mem_of_getLast? last
    obtain ⟨ending, rfl, state⟩ := state_of_last_attempt context range shared _ last
      ((orderly.offers _ attempted).verdict_of_isEnd isEnd) exited
    rw [state]
    cases ending with
    | returned => exact ⟨fun _ => rfl, fun failed => absurd rfl failed⟩
    | failed error => exact ⟨nofun, fun _ => rfl⟩
    | panicked message => exact ⟨nofun, fun _ => rfl⟩

/-- A task is closed while the sink has its second change: this change is the last record, and there
is no END watermark. -/
theorem truncated_at_second_change :
    let engine := playedEngine [.move (.signal (.change (Sample.insert "ORDERS" 150))),
      .move (.signal (.change (Sample.insert "ORDERS" 160))),
      .move (.signal (.advance (Sample.scn 250)))]
    let context : TaskContext Unit (List PlayedMove) Recorder :=
      ⟨engine, Sink.outlet Recorder.sink, .named "ORCLCDB", .ofMillis 1⟩
    let before : List Turn := [.step, .step, .step, .step]
    let after : List Turn := [.step, .step, .step, .step, .step, .step]
    let course := (start (.create Sample.split) ⟨(), .fresh⟩).takeAll context before
    let closed := (course.take context .close).takeAll context after
    let whole := (start (.create Sample.split) ⟨(), .fresh⟩).takeAll context.withoutCloses
      ((before ++ .close :: after).filter (· = .step))
    course.closes = [] ∧ (course.take context .close).closes = [.executing] ∧
      whole.trace.attempts.length = 3 ∧
      (course.take context .close).cutHere = 2 ∧
      closed.trace.attempts = whole.trace.attempts.take (course.take context .close).cutHere ∧
      closed.run.task.state = .closed := by
  intro engine context before after course closed whole
  have unclosed : course.closes = [] := by decide
  have closes : (course.take context .close).closes = [.executing] := by decide
  have truncates :=
    close_only_truncates context Sample.split ⟨(), .fresh⟩ before .close after unclosed closes
  exact ⟨unclosed, closes, by decide, by decide, truncates.2.1, by decide⟩

end Course

end ChangeStream
