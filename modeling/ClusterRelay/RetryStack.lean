/-!
# The retry stack

Entries whose last delivery failed. Whatever failed last is tried first, so an entry that keeps
failing blocks all that wait behind it, and nothing newer overtakes it.
-/

namespace ClusterRelay

variable {α : Type}

/-- The entries that failed, the latest failure first. -/
structure RetryStack (α : Type) where
  toList : List α := []

namespace RetryStack

/-- One more entry failed. -/
def push (s : RetryStack α) (a : α) : RetryStack α := ⟨a :: s.toList⟩

/-- The entry that failed last, and the others. -/
def pop? (s : RetryStack α) : Option (α × RetryStack α) :=
  match s.toList with
  | [] => none
  | a :: rest => some (a, ⟨rest⟩)

def size (s : RetryStack α) : Nat := s.toList.length

@[simp] theorem toList_push (s : RetryStack α) (a : α) : (s.push a).toList = a :: s.toList := rfl

@[simp] theorem size_push (s : RetryStack α) (a : α) : (s.push a).size = s.size + 1 := rfl

@[simp] theorem pop?_push (s : RetryStack α) (a : α) : (s.push a).pop? = some (a, s) := rfl

@[simp] theorem pop?_eq_none_iff {s : RetryStack α} : s.pop? = none ↔ s.toList = [] := by
  unfold pop?
  split
  · next h => simp [h]
  · next h => simp [h]

theorem toList_of_pop? {s rest : RetryStack α} {a : α} (h : s.pop? = some (a, rest)) :
    s.toList = a :: rest.toList := by
  unfold pop? at h
  split at h
  · cases h
  · next hcons =>
      cases h
      exact hcons

end RetryStack

end ClusterRelay
