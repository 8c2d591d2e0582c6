/-!
# First in, first out

A queue is seen through the list of its items, the next one to leave first. It is kept as two lists,
so that joining and leaving touch one end each; the lemmas say what either does to the view.
-/

namespace ChangeStream

/-- A queue: the items that leave next, and the ones behind them, the latest first. -/
structure Queue (α : Type) where
  front : List α
  back : List α

namespace Queue

variable {α : Type}

/-- The items, the next one to leave first. -/
def toList (q : Queue α) : List α := q.front ++ q.back.reverse

/-- The queue without items. -/
def empty : Queue α := ⟨[], []⟩

/-- The queue after an item has joined at the end. -/
def enqueue (q : Queue α) (x : α) : Queue α := { q with back := x :: q.back }

/-- The item that leaves next, and the queue after it has left. -/
def dequeue? (q : Queue α) : Option (α × Queue α) :=
  match q.front with
  | x :: rest => some (x, { q with front := rest })
  | [] =>
    match q.back.reverse with
    | x :: rest => some (x, ⟨rest, []⟩)
    | [] => none

/-- The number of items. -/
def size (q : Queue α) : Nat := q.front.length + q.back.length

/-- Whether there are no items. -/
def isEmpty (q : Queue α) : Bool := q.front.isEmpty && q.back.isEmpty

@[simp] theorem toList_empty : (empty : Queue α).toList = [] := rfl

@[simp] theorem toList_enqueue (q : Queue α) (x : α) : (q.enqueue x).toList = q.toList ++ [x] := by
  simp [toList, enqueue]

@[simp] theorem length_toList (q : Queue α) : q.toList.length = q.size := by
  simp [toList, size]

@[simp] theorem isEmpty_toList (q : Queue α) : q.toList.isEmpty = q.isEmpty := by
  cases hf : q.front <;> cases hb : q.back <;> simp [toList, isEmpty, hf, hb]

/-- What leaves is the head of the view, and what stays is its tail. -/
theorem toList_of_dequeue? {q rest : Queue α} {x : α} (h : q.dequeue? = some (x, rest)) :
    q.toList = x :: rest.toList := by
  unfold dequeue? at h
  split at h
  next hfront =>
    cases h
    simp [toList, hfront]
  next hfront =>
    split at h
    next hback =>
      cases h
      simp [toList, hfront, hback]
    next => contradiction

/-- Nothing leaves only where there is nothing. -/
theorem dequeue?_eq_none_iff {q : Queue α} : q.dequeue? = none ↔ q.toList = [] := by
  refine ⟨fun h => ?_, fun h => ?_⟩
  · unfold dequeue? at h
    split at h
    next => contradiction
    next hfront =>
      split at h
      next => contradiction
      next hback => simp [toList, hfront, hback]
  · obtain ⟨hfront, hback⟩ := List.append_eq_nil_iff.1 h
    simp [dequeue?, hfront, hback]

end Queue

end ChangeStream
