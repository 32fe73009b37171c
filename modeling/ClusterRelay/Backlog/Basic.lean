import ClusterRelay.Fault
import ClusterRelay.Fifo
import ClusterRelay.Log

/-!
# The backlog

What a link holds back until its forwarder gets to it: a line of entries, bounded, that never makes
anybody wait. When it is full, the oldest entry has to go before a new one comes in; that is the
price of not holding up those who commit mutations. The backlog counts what was offered to it and
what it evicted.

The places for the entries are allocated when the backlog is made, all of them at once.
-/

namespace ClusterRelay

variable {α : Type}

/-- A bounded line of entries that drops the oldest when it is full. -/
structure Backlog (α : Type) where
  capacity : Nat
  entries : Fifo α := Fifo.empty
  offered : UInt64 := 0
  evicted : UInt64 := 0

namespace Backlog

/-- A backlog with nothing in it; it has room for at least one entry. -/
def ofCapacity (capacity : Nat) : Backlog α := { capacity := max capacity 1 }

/-- The bytes of one place: a stamp, and the mutation that stands there. -/
def placeSize : Nat := 96

/-- The most bytes that can be asked for at once. -/
def largestRequest : Nat := 9223372036854775807

/-- The places of a backlog of this capacity can be asked for. -/
def Fits (capacity : Nat) : Prop := max capacity 1 * placeSize ≤ largestRequest

instance (capacity : Nat) : Decidable (Fits capacity) :=
  inferInstanceAs (Decidable (_ ≤ _))

/-- A backlog with all its places, as long as the memory of the machine lasts. -/
def allocate (capacity : Nat) : Except Crash (Backlog α) :=
  if Fits capacity then .ok (ofCapacity capacity) else .error ⟨some "capacity overflow"⟩

theorem allocate_of_fits {capacity : Nat} (h : Fits capacity) :
    (allocate capacity : Except Crash (Backlog α)) = .ok (ofCapacity capacity) := if_pos h

theorem allocate_of_not_fits {capacity : Nat} (h : ¬ Fits capacity) :
    (allocate capacity : Except Crash (Backlog α)) = .error ⟨some "capacity overflow"⟩ := if_neg h

/-- The entries, the oldest first. -/
def toList (q : Backlog α) : List α := q.entries.toList

def size (q : Backlog α) : Nat := q.entries.size

def isEmpty (q : Backlog α) : Bool := q.entries.size == 0

/-- Takes in an entry. If the backlog is full the oldest entry is evicted first. -/
def offer (q : Backlog α) (a : α) : Option α × Backlog α :=
  if q.entries.size < q.capacity then
    (none, { q with entries := q.entries.push a, offered := q.offered + 1 })
  else
    match q.entries.pop? with
    | none => (none, { q with entries := q.entries.push a, offered := q.offered + 1 })
    | some (oldest, rest) =>
      (some oldest,
        { q with
          entries := rest.push a
          offered := q.offered + 1
          evicted := q.evicted + 1 })

/-- The oldest entry, taken out. -/
def take? (q : Backlog α) : Option (α × Backlog α) :=
  match q.entries.pop? with
  | none => none
  | some (a, rest) => some (a, { q with entries := rest })

@[simp] theorem toList_ofCapacity (capacity : Nat) :
    (ofCapacity capacity : Backlog α).toList = [] := rfl

theorem size_eq_length (q : Backlog α) : q.size = q.toList.length := q.entries.size_eq_length

/-- An offer comes in at the end; either nothing leaves, or the oldest entry does. -/
theorem offer_cases (q : Backlog α) (a : α) :
    (q.offer a).2.offered = q.offered + 1 ∧
    (((q.offer a).1 = none ∧ (q.offer a).2.evicted = q.evicted ∧
        (q.offer a).2.toList = q.toList ++ [a]) ∨
      ∃ oldest rest, q.toList = oldest :: rest ∧ (q.offer a).1 = some oldest ∧
        (q.offer a).2.evicted = q.evicted + 1 ∧ (q.offer a).2.toList = rest ++ [a]) := by
  unfold offer
  split
  · exact ⟨rfl, Or.inl ⟨rfl, rfl, Fifo.toList_push _ _⟩⟩
  · split
    · exact ⟨rfl, Or.inl ⟨rfl, rfl, Fifo.toList_push _ _⟩⟩
    · next oldest rest hpop =>
        refine ⟨rfl, Or.inr ⟨oldest, rest.toList, Fifo.toList_of_pop? hpop, rfl, rfl, ?_⟩⟩
        exact Fifo.toList_push _ _

theorem take?_eq_none_iff {q : Backlog α} : q.take? = none ↔ q.toList = [] := by
  unfold take? toList
  rw [← Fifo.pop?_eq_none_iff]
  split
  · next hpop => simp [hpop]
  · next hpop => simp [hpop]

/-- What is taken is the oldest entry, and only the line changes. -/
theorem of_take? {q r : Backlog α} {a : α} (h : q.take? = some (a, r)) :
    q.toList = a :: r.toList ∧ r.offered = q.offered ∧ r.evicted = q.evicted := by
  unfold take? at h
  split at h
  · cases h
  · next hpop =>
      cases h
      exact ⟨Fifo.toList_of_pop? hpop, rfl, rfl⟩

/-- An overflow is reported at the first eviction and at every thousandth. -/
def reportEvery : UInt64 := 1000

/-- What is said about an offer to the backlog of the link `label`, with the outcome and the
backlog after it. -/
def report (label : String) (evicted : Option α) (q : Backlog α) : List LogLine :=
  if evicted.isSome ∧ (q.evicted = 1 ∨ q.evicted % reportEvery = 0) then
    [.warn (aboutLink label "replication queue full, dropping oldest update")]
  else []

end Backlog

end ClusterRelay
