/-!
# First in, first out

A line of entries that grows at one end and shrinks at the other, both in constant time on average:
the front is kept in order and the back in reverse, and the back is turned over when the front is
used up. Everything about it can be said through `toList`.
-/

namespace ClusterRelay

variable {α : Type}

/-- A line of entries. -/
structure Fifo (α : Type) where
  front : List α := []
  back : List α := []
  size : Nat := 0
  size_eq : size = front.length + back.length := by rfl

namespace Fifo

/-- The entries, the oldest first. -/
def toList (q : Fifo α) : List α := q.front ++ q.back.reverse

def empty : Fifo α := {}

instance : Inhabited (Fifo α) := ⟨empty⟩

def push (q : Fifo α) (a : α) : Fifo α where
  front := q.front
  back := a :: q.back
  size := q.size + 1
  size_eq := by rw [q.size_eq, List.length_cons]; omega

/-- The oldest entry and the line without it. -/
def pop? (q : Fifo α) : Option (α × Fifo α) :=
  match hf : q.front with
  | a :: front =>
    some (a, ⟨front, q.back, q.size - 1, by rw [q.size_eq, hf, List.length_cons]; omega⟩)
  | [] =>
    match hb : q.back.reverse with
    | [] => none
    | a :: front =>
      some (a, ⟨front, [], q.size - 1, by
        have := congrArg List.length hb
        rw [List.length_reverse, List.length_cons] at this
        rw [q.size_eq, hf, this, List.length_nil]; omega⟩)

@[simp] theorem toList_empty : (empty : Fifo α).toList = [] := rfl

@[simp] theorem toList_push (q : Fifo α) (a : α) : (q.push a).toList = q.toList ++ [a] := by
  simp [toList, push]

theorem size_eq_length (q : Fifo α) : q.size = q.toList.length := by
  rw [q.size_eq, toList, List.length_append, List.length_reverse]

@[simp] theorem pop?_eq_none_iff {q : Fifo α} : q.pop? = none ↔ q.toList = [] := by
  unfold pop? toList
  split
  · next h => simp [h]
  · next h =>
    split
    · next hb => simp [h, hb]
    · next hb => simp [h, hb]

theorem toList_of_pop? {q r : Fifo α} {a : α} (h : q.pop? = some (a, r)) :
    q.toList = a :: r.toList := by
  unfold pop? at h
  unfold toList
  split at h
  · next hf =>
    cases h
    simp [hf]
  · next hf =>
    split at h
    · cases h
    · next hb =>
      cases h
      simp [hf, hb]

end Fifo

end ClusterRelay
