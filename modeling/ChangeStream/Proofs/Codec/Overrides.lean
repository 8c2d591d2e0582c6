import ChangeStream.Codec.Settings
import ChangeStream.Proofs.Codec.Records

/-!
# Settings that override the standard ones

An object gives settings if each field that it has can be read, and then they are the standard ones
but for those fields, wherever they stand and whatever else there is. A list stands for the object
of the first fields. A duration is spelled by its seconds and nanoseconds, whose carry must fit, and
it is as long as they say.
-/

namespace ChangeStream

open Codec

/-! ## Durations -/

namespace Duration

/-- There is one duration of each length. -/
theorem totalNanos_injective : Function.Injective totalNanos := by
  intro first second same
  obtain ⟨seconds, nanos, _, small⟩ := first
  obtain ⟨seconds', nanos', _, small'⟩ := second
  simp only [totalNanos, nanosPerSecond] at same small small'
  obtain rfl : seconds = seconds' := by omega
  obtain rfl : nanos = nanos' := by omega
  rfl

/-- The parts give the duration that is as long as they are together. -/
theorem ofParts?_eq_some_iff {seconds nanos : Nat} {d : Duration} :
    ofParts? seconds nanos = some d ↔ d.totalNanos = seconds * nanosPerSecond + nanos := by
  have whole := Nat.div_add_mod nanos nanosPerSecond
  rw [ofParts?]
  split
  · next fits =>
    have length : totalNanos ⟨seconds + nanos / nanosPerSecond, nanos % nanosPerSecond, fits,
        Nat.mod_lt _ (by decide)⟩ = seconds * nanosPerSecond + nanos := by
      rw [totalNanos, Nat.add_mul, Nat.add_assoc, Nat.mul_comm (nanos / nanosPerSecond), whole]
    rw [Option.some.injEq, ← totalNanos_injective.eq_iff, length, eq_comm]
  · next large =>
    simp only [reduceCtorEq, false_iff]
    intro length
    have fits := d.seconds_lt
    have small := d.nanos_lt
    simp only [totalNanos, nanosPerSecond] at length small large whole
    omega

theorem exists_ofParts?_iff {seconds nanos : Nat} :
    (∃ d, ofParts? seconds nanos = some d) ↔ seconds + nanos / nanosPerSecond < Nat.pow 2 64 := by
  rw [ofParts?]
  split
  · next fits => exact iff_of_true ⟨_, rfl⟩ fits
  · next large => exact iff_of_false (by simp) large

theorem ofDecoded_eq_ok {parts : Nat × Nat} {d : Duration} :
    ofDecoded parts = .ok d ↔ ofParts? parts.1 parts.2 = some d := by
  rw [ofDecoded]
  split <;> simp [*]

end Duration

namespace Codec

variable {α β : Type}

theorem number_eq_ok {width : Width} {j : Json} {n : Nat} :
    number width j = .ok n ↔ j = .number (.natural n) ∧ n < width.limit := by
  cases j with
  | number m =>
    cases m with
    | natural m =>
      rw [number]
      split <;> grind
    | negative m => simp [number]
    | float x => simp [number]
  | _ => simp [number]

theorem field_eq_ok {name : String} {decode : Decoder α} {given : Given} {x : α} :
    (field name decode).build given = .ok x ↔
    ∃ j, given.values.lookup name = some j ∧ decode j = .ok x := by
  simp only [field]
  split
  · next j found => simp [found]
  · next missing => simp [missing]

/-! ## Records that know all their members -/

/-- A visit that refuses unknown names passes only members with different names. -/
theorem distinct_of_visit {style : RecordStyle} (strict : style.refusesUnknown = true)
    {fields : Fields α} {members : List (String × Json)} {seen : List String}
    (visited : visit style fields seen members = .ok ()) :
    (members.map Prod.fst).Nodup ∧ ∀ member ∈ members, member.1 ∉ seen := by
  induction members generalizing seen with
  | nil => simp
  | cons first rest ih =>
    obtain ⟨name, item⟩ := first
    rw [visit] at visited
    split at visited
    · rw [if_pos strict] at visited
      cases visited
    · split at visited
      · cases visited
      · next reader _ new =>
        obtain ⟨⟨⟩, -, others⟩ := bind_eq_ok.mp visited
        obtain ⟨distinct, unlike⟩ := ih others
        simp only [List.mem_cons, not_or] at unlike
        have fresh : name ∉ rest.map Prod.fst := by
          intro again
          obtain ⟨member, listed, same⟩ := List.mem_map.mp again
          exact (unlike member listed).1 same
        refine ⟨List.nodup_cons.mpr ⟨fresh, distinct⟩,
          List.forall_mem_cons.mpr ⟨by simpa using new, ?_⟩⟩
        exact fun member listed => (unlike member listed).2

end Codec

namespace Duration

/-- The trees that spell a number of seconds and one of nanoseconds, in two fields or in a list. -/
inductive Spells (seconds nanos : Nat) : Json → Prop
  | fields {members : List (String × Json)}
      (parts :
        members.Perm [("secs", .number (.natural seconds)), ("nanos", .number (.natural nanos))]) :
      Spells seconds nanos (.object members)
  | list : Spells seconds nanos (.array [.number (.natural seconds), .number (.natural nanos)])

/-- A tree spells at most two numbers. -/
theorem Spells.unique {seconds nanos seconds' nanos' : Nat} {j : Json}
    (spelled : Spells seconds nanos j) (again : Spells seconds' nanos' j) :
    seconds = seconds' ∧ nanos = nanos' := by
  cases spelled with
  | list =>
    cases again
    exact ⟨rfl, rfl⟩
  | fields parts =>
    cases again with
    | fields parts' =>
      have same := parts.symm.trans parts'
      have first := same.subset (List.mem_cons_self)
      have second := same.subset (List.mem_cons_of_mem _ List.mem_cons_self)
      simpa using And.intro first second

theorem build_fields {given : Given} {d : Duration} :
    fields.build given = .ok d ↔
      ∃ seconds nanos, (seconds < Nat.pow 2 64 ∧ nanos < Nat.pow 2 32) ∧
        (given.values.lookup "secs" = some (.number (.natural seconds)) ∧
          given.values.lookup "nanos" = some (.number (.natural nanos))) ∧
        ofParts? seconds nanos = some d := by
  simp only [fields, Fields.andThen, bind_eq_ok, Fields.build_seq, Fields.build_map, field_eq_ok,
    number_eq_ok, ofDecoded_eq_ok, Width.limit]
  constructor
  · rintro ⟨_,
      ⟨_, ⟨seconds, ⟨_, inSeconds, rfl, first⟩, rfl⟩, nanos, ⟨_, inNanos, rfl, second⟩, rfl⟩, parts⟩
    exact ⟨seconds, nanos, ⟨first, second⟩, ⟨inSeconds, inNanos⟩, parts⟩
  · rintro ⟨seconds, nanos, ⟨first, second⟩, ⟨inSeconds, inNanos⟩, parts⟩
    exact ⟨_,
      ⟨_, ⟨seconds, ⟨_, inSeconds, rfl, first⟩, rfl⟩, nanos, ⟨_, inNanos, rfl, second⟩, rfl⟩, parts⟩

/-- Where no key is repeated, an object spells two numbers if it has them under their names and has
no other member. -/
theorem spells_fields_iff {seconds nanos : Nat} {members : List (String × Json)}
    (distinct : (members.map Prod.fst).Nodup) :
    Spells seconds nanos (.object members) ↔
      (members.lookup "secs" = some (.number (.natural seconds)) ∧
          members.lookup "nanos" = some (.number (.natural nanos))) ∧
        ∀ member ∈ members, member.1 = "secs" ∨ member.1 = "nanos" := by
  have spelled : Spells seconds nanos (.object members) ↔
      members.Perm [("secs", .number (.natural seconds)), ("nanos", .number (.natural nanos))] :=
    ⟨fun | .fields parts => parts, .fields⟩
  rw [spelled, List.perm_ext_iff_of_nodup distinct.of_map (by simp),
    lookup_eq_some_iff_mem distinct, lookup_eq_some_iff_mem distinct]
  constructor
  · intro same
    refine ⟨⟨(same _).mpr (by simp), (same _).mpr (by simp)⟩, fun member listed => ?_⟩
    have known := (same member).mp listed
    simp only [List.mem_cons, List.not_mem_nil, or_false] at known
    rcases known with rfl | rfl
    · exact .inl rfl
    · exact .inr rfl
  · rintro ⟨⟨inSeconds, inNanos⟩, known⟩ ⟨name, item⟩
    simp only [List.mem_cons, List.not_mem_nil, or_false, Prod.mk.injEq]
    constructor
    · intro listed
      have here := (lookup_eq_some_iff_mem distinct name item).mpr listed
      rcases known _ listed with rfl | rfl
      · rw [(lookup_eq_some_iff_mem distinct _ _).mpr inSeconds] at here
        exact .inl ⟨rfl, (Option.some.inj here).symm⟩
      · rw [(lookup_eq_some_iff_mem distinct _ _).mpr inNanos] at here
        exact .inr ⟨rfl, (Option.some.inj here).symm⟩
    · rintro (⟨rfl, rfl⟩ | ⟨rfl, rfl⟩)
      · exact inSeconds
      · exact inNanos

theorem takes_iff {name : String} {item : Json} :
    fields.Takes ⟨"Duration", true, false⟩ name item ↔
      (name = "secs" ∧ ∃ seconds, number .word64 item = .ok seconds) ∨
        (name = "nanos" ∧ ∃ nanos, number .word32 item = .ok nanos) := by
  have readers : fields.readers =
      [("secs", fun j => (number .word64 j).map fun _ => ()),
        ("nanos", fun j => (number .word32 j).map fun _ => ())] :=
    rfl
  rw [Fields.Takes, readers, Dictionary.lookup_cons_ite, Dictionary.lookup_cons_ite,
    List.lookup_nil]
  by_cases first : name = "secs"
  · simp [first, map_eq_ok]
  · by_cases second : name = "nanos"
    · simp [second, map_eq_ok]
    · simp [first, second]

theorem ofJson_object {members : List (String × Json)} {d : Duration} :
    ofJson (.object members) = .ok d ↔
      ∃ seconds nanos, (seconds < Nat.pow 2 64 ∧ nanos < Nat.pow 2 32) ∧
        Spells seconds nanos (.object members) ∧
        ofParts? seconds nanos = some d := by
  constructor
  · intro read
    obtain ⟨⟨⟩, visited, -⟩ := bind_eq_ok.mp read
    have distinct := (distinct_of_visit rfl visited).1
    obtain ⟨taken, built⟩ := (record_object_eq_ok_iff distinct).mp read
    obtain ⟨seconds, nanos, bounds, found, parts⟩ := build_fields.mp built
    refine ⟨seconds, nanos, bounds,
      (spells_fields_iff distinct).mpr ⟨found, fun member listed => ?_⟩, parts⟩
    have taken := taken member.1 member.2 ((lookup_eq_some_iff_mem distinct _ _).mpr listed)
    rcases takes_iff.mp taken with ⟨name, -⟩ | ⟨name, -⟩
    · exact .inl name
    · exact .inr name
  · rintro ⟨seconds, nanos, bounds, spelled, parts⟩
    have distinct : (members.map Prod.fst).Nodup := by
      cases spelled with
      | fields parts => exact (parts.map Prod.fst).nodup_iff.mpr (by simp)
    obtain ⟨found, known⟩ := (spells_fields_iff distinct).mp spelled
    refine (record_object_eq_ok_iff distinct).mpr ⟨fun name item here => takes_iff.mpr ?_, ?_⟩
    · rcases known _ ((lookup_eq_some_iff_mem distinct _ _).mp here) with rfl | rfl
      · cases found.1.symm.trans here
        exact .inl ⟨rfl, seconds, number_eq_ok.mpr ⟨rfl, bounds.1⟩⟩
      · cases found.2.symm.trans here
        exact .inr ⟨rfl, nanos, number_eq_ok.mpr ⟨rfl, bounds.2⟩⟩
    · exact build_fields.mpr ⟨seconds, nanos, bounds, found, parts⟩

theorem ofJson_array {items : List Json} {d : Duration} :
    ofJson (.array items) = .ok d ↔
      ∃ seconds nanos, (seconds < Nat.pow 2 64 ∧ nanos < Nat.pow 2 32) ∧
        Spells seconds nanos (.array items) ∧
        ofParts? seconds nanos = some d := by
  have read : ofJson (.array items) = .ok d ↔ _ := record_array_eq_ok_iff
  have names : fields.names = ["secs", "nanos"] := rfl
  have count : fields.readers.length = 2 := rfl
  rw [read, build_fields, names, count]
  constructor
  · rintro ⟨⟨seconds, nanos, bounds, ⟨inSeconds, inNanos⟩, parts⟩, length⟩
    refine ⟨seconds, nanos, bounds, ?_, parts⟩
    match items with
    | [] => cases inSeconds
    | [_] => cases inNanos
    | [first, second] =>
      cases inSeconds
      cases inNanos
      exact .list
    | _ :: _ :: _ :: _ => exact absurd length (by simp)
  · rintro ⟨seconds, nanos, bounds, spelled, parts⟩
    cases spelled with
    | list => exact ⟨⟨seconds, nanos, bounds, ⟨rfl, rfl⟩, parts⟩, Nat.le_refl 2⟩

/-- A duration is read from what spells two numbers that fit, also with the carry. -/
theorem ofJson_eq_ok_iff {j : Json} {d : Duration} :
    ofJson j = .ok d ↔
      ∃ seconds nanos, (seconds < Nat.pow 2 64 ∧ nanos < Nat.pow 2 32) ∧ Spells seconds nanos j ∧
        ofParts? seconds nanos = some d := by
  cases j with
  | object members => exact ofJson_object
  | array items => exact ofJson_array
  | null | bool value | number n | string s | meaningless =>
    refine iff_of_false (by simp [ofJson, record]) ?_
    rintro ⟨_, _, _, ⟨⟩, _⟩

end Duration

/-! ## Fields with a standard value -/

namespace Codec

variable {α β : Type}

/-- What a field that need not be there is read as: nothing, or what its item says. -/
theorem fieldOr_eq_ok {name : String} {standard : α} {decode : Decoder α} {given : Given} {x : α} :
    (fieldOr name standard decode).build given = .ok x ↔
      ∃ override, Option.Rel (fun j y => decode j = .ok y) (given.values.lookup name) override ∧
        override.getD standard = x := by
  simp only [fieldOr]
  cases given.values.lookup name with
  | none =>
    constructor
    · intro same
      cases same
      exact ⟨none, .none, rfl⟩
    · rintro ⟨_, ⟨⟩, rfl⟩
      rfl
  | some j =>
    constructor
    · intro read
      exact ⟨some x, .some read, rfl⟩
    · rintro ⟨_, read, rfl⟩
      cases read with
      | some read => exact read

namespace Fields

theorem fieldOr_heeds (name : String) (standard : α) (decode : Decoder α) :
    (fieldOr name standard decode).Heeds := by
  intro given x built reader listed j found
  rw [fieldOr, List.mem_singleton] at listed
  subst listed
  simp only [fieldOr, found] at built
  simp [built, Except.map]

end Fields

end Codec

/-! ## Settings -/

namespace FetchSettings

/-- What some source says about the settings. What it does not say is absent. -/
structure Overrides where
  pollInterval : Option Duration
  /-- The capacity of the queue, which may be said to be any number. -/
  queueCapacity : Option (Option Nat)
  threadLabel : Option String

namespace Overrides

/-- The settings with what is said set, and nothing else. -/
def onto (overrides : Overrides) (config : FetchSettings) : FetchSettings :=
  let config := overrides.pollInterval.elim config config.withPollInterval
  let config := overrides.queueCapacity.elim config fun
    | some capacity => config.withQueueCapacity capacity
    | none => config.withUnboundedQueue
  overrides.threadLabel.elim config config.withThreadLabel

/-- A tree says how long the poll interval is. -/
def IsPollInterval (j : Json) (d : Duration) : Prop :=
  ∃ seconds nanos, (seconds < Nat.pow 2 64 ∧ nanos < Nat.pow 2 32) ∧
    Duration.Spells seconds nanos j ∧
    d.totalNanos = seconds * nanosPerSecond + nanos

/-- A tree says what the capacity of the queue is. -/
inductive IsQueueCapacity : Json → Option Nat → Prop
  | unbounded : IsQueueCapacity .null none
  | bounded {capacity : Nat} (fits : capacity < Nat.pow 2 64) :
      IsQueueCapacity (.number (.natural capacity)) (some capacity)

/-- The members of an object give some overrides: each field that is there says the value, and
only those do. -/
structure GivenBy (overrides : Overrides) (members : List (String × Json)) : Prop where
  pollInterval : Option.Rel IsPollInterval (members.lookup "poll_interval") overrides.pollInterval
  queueCapacity :
    Option.Rel IsQueueCapacity (members.lookup "queue_capacity") overrides.queueCapacity
  threadLabel : Option.Rel (fun j label => j = .string label) (members.lookup "thread_name_prefix")
    overrides.threadLabel

theorem onto_eq (overrides : Overrides) (config : FetchSettings) :
    overrides.onto config =
      { pollInterval := overrides.pollInterval.getD config.pollInterval
        queueCapacity := overrides.queueCapacity.getD config.queueCapacity
        threadLabel := overrides.threadLabel.getD config.threadLabel } := by
  obtain ⟨_ | _, _ | _ | _, _ | _⟩ := overrides <;> rfl

theorem isPollInterval_iff {j : Json} {d : Duration} :
    IsPollInterval j d ↔ Duration.ofJson j = .ok d := by
  rw [IsPollInterval, Duration.ofJson_eq_ok_iff]
  simp only [Duration.ofParts?_eq_some_iff]

theorem isQueueCapacity_iff {j : Json} {capacity : Option Nat} :
    IsQueueCapacity j capacity ↔ optional (number .size) j = .ok capacity := by
  constructor
  · rintro (_ | fits)
    · rfl
    · exact map_eq_ok.mpr ⟨_, number_eq_ok.mpr ⟨rfl, fits⟩, rfl⟩
  · intro read
    by_cases null : j = .null
    · subst null
      cases read
      exact .unbounded
    · have read : (number .size j).map some = .ok capacity := by
        cases j with
        | null => exact absurd rfl null
        | _ => exact read
      obtain ⟨n, counted, rfl⟩ := map_eq_ok.mp read
      obtain ⟨rfl, fits⟩ := number_eq_ok.mp counted
      exact .bounded fits

/-- Where the poll interval is spelled by two numbers, it is as long as they say. -/
theorem GivenBy.pollInterval_length {overrides : Overrides} {members : List (String × Json)}
    (given : overrides.GivenBy members) {seconds nanos : Nat} {j : Json}
    (spelled : Duration.Spells seconds nanos j) (found : members.lookup "poll_interval" = some j) :
    (overrides.onto standard).pollInterval.totalNanos = seconds * nanosPerSecond + nanos := by
  have interval := given.pollInterval
  rw [found] at interval
  rw [onto_eq]
  cases said : overrides.pollInterval with
  | none =>
    rw [said] at interval
    cases interval
  | some d =>
    rw [said] at interval
    obtain ⟨_, _, -, again, length⟩ : IsPollInterval j d := by cases interval; assumption
    obtain ⟨rfl, rfl⟩ := spelled.unique again
    exact length

theorem givenBy_iff {overrides : Overrides} {members : List (String × Json)} :
    overrides.GivenBy members ↔
      Option.Rel (fun j d => Duration.ofJson j = .ok d) (members.lookup "poll_interval")
        overrides.pollInterval ∧
        Option.Rel (fun j capacity => optional (number .size) j = .ok capacity)
          (members.lookup "queue_capacity")
          overrides.queueCapacity ∧
        Option.Rel (fun j label => text j = .ok label) (members.lookup "thread_name_prefix")
          overrides.threadLabel := by
  simp only [← isPollInterval_iff, ← isQueueCapacity_iff, text_eq_ok]
  exact ⟨fun ⟨interval, capacity, label⟩ => ⟨interval, capacity, label⟩,
    fun ⟨interval, capacity, label⟩ => ⟨interval, capacity, label⟩⟩

end Overrides

/-- The fields are built one after the other. -/
theorem build_eq (given : Given) :
    fields.build given = do
      let interval ← (fieldOr "poll_interval" standard.pollInterval Duration.ofJson).build given
      let capacity ← (fieldOr "queue_capacity" standard.queueCapacity
        (optional (number .size))).build given
      let label ← (fieldOr "thread_name_prefix" standard.threadLabel text).build given
      return ⟨interval, capacity, label⟩ := by
  have sequence : fields.build given =
      (((fieldOr "poll_interval" standard.pollInterval Duration.ofJson).build given >>=
          fun x => pure (mk x)) >>= fun f =>
        (fieldOr "queue_capacity" standard.queueCapacity (optional (number .size))).build given >>=
          fun x => pure (f x)) >>= fun f =>
      (fieldOr "thread_name_prefix" standard.threadLabel text).build given >>=
        fun x => pure (f x) := rfl
  simp only [sequence, bind_assoc, pure_bind]

theorem build_fields {given : Given} {config : FetchSettings} :
    fields.build given = .ok config ↔
      ∃ overrides : Overrides, overrides.GivenBy given.values ∧
      overrides.onto standard = config := by
  simp only [build_eq, bind_eq_ok, fieldOr_eq_ok, Overrides.givenBy_iff, Overrides.onto_eq, pure,
    Except.pure, Except.ok.injEq]
  constructor
  · rintro ⟨_, ⟨interval, givenInterval, rfl⟩, _, ⟨capacity, givenCapacity, rfl⟩, _,
      ⟨label, givenLabel, rfl⟩, rfl⟩
    exact ⟨⟨interval, capacity, label⟩, ⟨givenInterval, givenCapacity, givenLabel⟩, rfl⟩
  · rintro ⟨⟨interval, capacity, label⟩, ⟨givenInterval, givenCapacity, givenLabel⟩, rfl⟩
    exact ⟨_, ⟨interval, givenInterval, rfl⟩, _, ⟨capacity, givenCapacity, rfl⟩, _,
      ⟨label, givenLabel, rfl⟩, rfl⟩

theorem heeds_fields : fields.Heeds :=
  (((Fields.fieldOr_heeds _ _ _).map _).seq (Fields.fieldOr_heeds _ _ _)).seq
    (Fields.fieldOr_heeds _ _ _)

theorem ofJson_object {members : List (String × Json)} (distinct : (members.map Prod.fst).Nodup)
    {config : FetchSettings} :
    ofJson (.object members) = .ok config ↔
      ∃ overrides : Overrides, overrides.GivenBy members ∧ overrides.onto standard = config := by
  have read : ofJson (.object members) = .ok config ↔ _ :=
    heeds_fields.record_object (by decide) rfl distinct config
  rw [read, build_fields]

/-- Both stop at the first item that cannot be read. -/
theorem ofJson_array {items : List Json} (few : items.length ≤ 3) :
    ofJson (.array items) =
      ofJson (.object (["poll_interval", "queue_capacity", "thread_name_prefix"].zip items)) := by
  have names : fields.names = ["poll_interval", "queue_capacity", "thread_name_prefix"] := rfl
  have readers : fields.readers =
      [("poll_interval", fun j => (Duration.ofJson j).map fun _ => ()),
        ("queue_capacity", fun j => (optional (number .size) j).map fun _ => ()),
        ("thread_name_prefix", fun j => (text j).map fun _ => ())] := rfl
  rcases items with _ | ⟨interval, _ | ⟨capacity, _ | ⟨label, _ | ⟨_, _⟩⟩⟩⟩
  case nil => rfl
  case cons.cons.cons.cons =>
    simp only [List.length_cons] at few
    omega
  case' cons.nil => cases first : Duration.ofJson interval
  case' cons.cons.nil =>
    cases first : Duration.ofJson interval <;> cases second : Codec.optional (number .size) capacity
  case' cons.cons.cons.nil =>
    cases first : Duration.ofJson interval <;>
      cases second : Codec.optional (number .size) capacity <;>
      cases third : text label
  all_goals
    simp [ofJson, record, build_eq, visit, fieldOr, Dictionary.lookup_cons_ite, bind, Except.bind,
      Except.map, pure, Except.pure, *]

/-- An object that names no key twice is read exactly if the fields that it has can be read, and
gives the standard settings but for those fields. A list is read like the object of the first
fields. Of two numbers that fit into 64 and 32 bits, a poll interval that they spell is accepted
exactly if the seconds fit with the carry, and it is as long as they say. -/
theorem read_overrides_standard {members : List (String × Json)}
    (distinct : (members.map Prod.fst).Nodup) :
    (∀ config, ofJson (.object members) = .ok config ↔
        ∃ overrides : Overrides, overrides.GivenBy members ∧ overrides.onto standard = config) ∧
      (∀ items, items.length ≤ 3 →
        ofJson (.array items) =
          ofJson (.object (["poll_interval", "queue_capacity", "thread_name_prefix"].zip items))) ∧
      ∀ seconds nanos j, seconds < Nat.pow 2 64 → nanos < Nat.pow 2 32 →
        Duration.Spells seconds nanos j →
        members.lookup "poll_interval" = some j →
        (∀ config, ofJson (.object members) = .ok config →
          config.pollInterval.totalNanos = seconds * nanosPerSecond + nanos ∧
            config.pollInterval.nanos < nanosPerSecond) ∧
        ∀ capacity label,
          Option.Rel Overrides.IsQueueCapacity (members.lookup "queue_capacity") capacity →
          Option.Rel (fun j label => j = .string label)
            (members.lookup "thread_name_prefix") label →
          ((∃ config, ofJson (.object members) = .ok config) ↔
            seconds + nanos / nanosPerSecond < Nat.pow 2 64) := by
  refine ⟨fun config => ofJson_object distinct, fun items => ofJson_array, ?_⟩
  intro seconds nanos j inSeconds inNanos spelled found
  have length : ∀ config, ofJson (.object members) = .ok config →
      config.pollInterval.totalNanos = seconds * nanosPerSecond + nanos := by
    intro config read
    obtain ⟨overrides, given, rfl⟩ := (ofJson_object distinct).mp read
    exact given.pollInterval_length spelled found
  refine ⟨fun config read => ⟨length config read, config.pollInterval.nanos_lt⟩, ?_⟩
  intro capacity label givenCapacity givenLabel
  rw [← Duration.exists_ofParts?_iff]
  simp only [Duration.ofParts?_eq_some_iff]
  constructor
  · rintro ⟨config, read⟩
    exact ⟨config.pollInterval, length config read⟩
  · rintro ⟨d, fits⟩
    have given : Overrides.GivenBy ⟨some d, capacity, label⟩ members :=
      ⟨found ▸ .some ⟨seconds, nanos, ⟨inSeconds, inNanos⟩, spelled, fits⟩,
        givenCapacity, givenLabel⟩
    exact ⟨_, (ofJson_object distinct).mpr ⟨_, given, rfl⟩⟩

/-- A label, a poll interval with a carry and a queue that may be of any length, and an
unknown member. -/
theorem reordered_settings_override_standard :
    let members : List (String × Json) :=
      [("thread_name_prefix", .string "p"), ("unknown", .array []),
        ("poll_interval",
          .object [("nanos", .number (.natural 2500000000)), ("secs", .number (.natural 3))]),
        ("queue_capacity", .null)]
    (members.map Prod.fst).Nodup ∧
      ofJson (.object members) =
        .ok
          (((standard.withPollInterval
            ⟨5, 500000000, by decide, by decide⟩).withUnboundedQueue).withThreadLabel
          "p") := by
  intro members
  have distinct : (members.map Prod.fst).Nodup := by decide
  have spelled : Duration.Spells 3 2500000000
      (.object [("nanos", .number (.natural 2500000000)), ("secs", .number (.natural 3))]) :=
    .fields (.swap _ _ _)
  have given :
      Overrides.GivenBy ⟨some ⟨5, 500000000, by decide, by decide⟩, some none, some "p"⟩ members :=
    ⟨.some ⟨3, 2500000000, by decide, spelled, rfl⟩, .some .unbounded, .some rfl⟩
  exact ⟨distinct, ((read_overrides_standard distinct).1 _).mpr ⟨_, given, rfl⟩⟩

end FetchSettings

end ChangeStream
