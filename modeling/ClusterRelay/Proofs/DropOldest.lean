import ClusterRelay.Backlog.Handoff

/-!
# A backlog is a line that drops its oldest entries

What a backlog does can be said with a plain list: an entry is added at the end, the first entry is
taken off, and if there is no room for one more the first entry goes before the new one is added.
`Line` says this and nothing else. A backlog in which there is room for one entry at least, and which
holds no more than it has room for, does the same, deed for deed and entry for entry: `deals_line`.
So whatever holds of lines holds of backlogs, above all that entries leave a line in the order in
which they came (`Line.deals_order`), whether they are taken or evicted.

A handoff adds a consumer that may have to wait. It acts in small steps, and others do as they please
between them. But it touches the backlog in one step alone, the one that brings it an entry, and then
it takes an entry as anybody else would: `deals_run`. That it is brought one whenever there is one is
another matter, and not one of the backlog.
-/

namespace ClusterRelay

variable {α : Type}

theorem filterMap_cons_toList {β γ : Type} (f : β → Option γ) (b : β) (bs : List β) :
    (b :: bs).filterMap f = (f b).toList ++ bs.filterMap f := by
  cases h : f b <;> simp [h]

/-- What can be done to a bounded line of entries. -/
inductive Deed (α : Type) where
  | offer (a : α)
  /-- Somebody takes the oldest entry if there is one, and does not wait for one. -/
  | tryTake
  /-- The consumer takes the oldest entry. -/
  | take
deriving DecidableEq, Repr

/-- What was done to a line, one deed after another, and the entry that left it each time: an offer
evicts, the others take. -/
abbrev Account (α : Type) := List (Deed α × Option α)

namespace Account

/-- The entries that left the line, in the order in which they left it. -/
def left (account : Account α) : List α := account.filterMap Prod.snd

/-- The entries that left the line with a deed of one kind. -/
def leftBy (kind : Deed α → Bool) (account : Account α) : List α :=
  left (account.filter (kind ·.1))

def evicted : Account α → List α := leftBy fun | .offer _ => true | _ => false

def tried : Account α → List α := leftBy fun | .tryTake => true | _ => false

def taken : Account α → List α := leftBy fun | .take => true | _ => false

theorem left_cons (entry : Deed α × Option α) (account : Account α) :
    left (entry :: account) = entry.2.toList ++ left account :=
  filterMap_cons_toList Prod.snd entry account

theorem evicted_cons (entry : Deed α × Option α) (account : Account α) :
    evicted (entry :: account) = evicted [entry] ++ evicted account := by
  obtain ⟨d, out⟩ := entry
  cases d with
  | offer a =>
      have hevicted : ∀ later : Account α,
          evicted ((.offer a, out) :: later) = out.toList ++ evicted later :=
        fun _ => left_cons (.offer a, out) _
      rw [hevicted, hevicted, List.append_assoc]
      rfl
  | tryTake | take => rfl

/-- Every entry that left did so in one of three ways. -/
theorem left_perm (account : Account α) :
    (left account).Perm (evicted account ++ tried account ++ taken account) := by
  induction account with
  | nil => exact List.Perm.refl _
  | cons entry account ih =>
      obtain ⟨d, out⟩ := entry
      have hleft := left_cons (d, out) account
      have hmore := ih.append_left out.toList
      cases d with
      | offer a =>
          have hevicted : evicted ((.offer a, out) :: account) = out.toList ++ evicted account :=
            left_cons (.offer a, out) _
          rw [hleft, hevicted, List.append_assoc, List.append_assoc, ← List.append_assoc (evicted _)]
          exact hmore
      | tryTake =>
          have htried : tried ((.tryTake, out) :: account) = out.toList ++ tried account :=
            left_cons (.tryTake, out) _
          rw [hleft, htried]
          refine hmore.trans ?_
          simp only [← List.append_assoc]
          exact (List.perm_append_comm.append_right _).append_right _
      | take =>
          have htaken : taken ((.take, out) :: account) = out.toList ++ taken account :=
            left_cons (.take, out) _
          rw [hleft, htaken]
          refine hmore.trans ?_
          simp only [← List.append_assoc]
          rw [List.append_assoc out.toList]
          exact List.perm_append_comm.append_right _

end Account

namespace Deed

def offered? : Deed α → Option α
  | .offer a => some a
  | _ => none

/-- The entries that are offered, in the order of the offers. -/
def offers (ds : List (Deed α)) : List α := ds.filterMap offered?

theorem offers_cons (d : Deed α) (ds : List (Deed α)) :
    offers (d :: ds) = d.offered?.toList ++ offers ds :=
  filterMap_cons_toList offered? d ds

theorem offers_append (ds others : List (Deed α)) :
    offers (ds ++ others) = offers ds ++ offers others := List.filterMap_append

end Deed

/-! ## The plain list -/

namespace Line

/-- An entry comes in at the end. If there is no room for it the first one goes. -/
def offer (room : Nat) (line : List α) (a : α) : Option α × List α :=
  if line.length < room then (none, line ++ [a]) else (line.head?, line.tail ++ [a])

def take (line : List α) : Option α × List α := (line.head?, line.tail)

def deal (room : Nat) (line : List α) : Deed α → Option α × List α
  | .offer a => offer room line a
  | .tryTake | .take => take line

def deals (room : Nat) (line : List α) : List (Deed α) → Account α × List α
  | [] => ([], line)
  | d :: ds =>
    let (out, line) := deal room line d
    let (account, line) := deals room line ds
    ((d, out) :: account, line)

variable {room : Nat} {line : List α}

theorem length_deal (h : line.length ≤ room) (hroom : 1 ≤ room) (d : Deed α) :
    (deal room line d).2.length ≤ room := by
  cases d with
  | offer a =>
      simp only [deal, offer]
      split
      · rw [List.length_append, List.length_singleton]
        omega
      · rw [List.length_append, List.length_tail, List.length_singleton]
        omega
  | tryTake | take =>
      show line.tail.length ≤ room
      rw [List.length_tail]
      omega

/-- A deed moves entries towards the front, where they leave. -/
theorem deal_order (hroom : 1 ≤ room) (d : Deed α) :
    line ++ d.offered?.toList = (deal room line d).1.toList ++ (deal room line d).2 := by
  cases d with
  | offer a =>
      simp only [deal, offer]
      split
      · rfl
      · cases line with
        | nil => rename_i hfull; simp at hfull; omega
        | cons oldest rest => rfl
  | tryTake | take => cases line <;> simp [deal, take, Deed.offered?]

/-- What was in the line and what came after it leave in this order; the rest is still there. -/
theorem deals_order (hroom : 1 ≤ room) (line : List α) (ds : List (Deed α)) :
    line ++ Deed.offers ds = (deals room line ds).1.left ++ (deals room line ds).2 := by
  induction ds generalizing line with
  | nil => exact List.append_nil line
  | cons d ds ih =>
      have hleft : (deals room line (d :: ds)).1.left =
          (deal room line d).1.toList ++ (deals room (deal room line d).2 ds).1.left :=
        Account.left_cons _ _
      rw [Deed.offers_cons, hleft, ← List.append_assoc, deal_order hroom, List.append_assoc, ih,
        List.append_assoc]
      rfl

end Line

/-! ## The backlog -/

namespace Backlog

def deal (q : Backlog α) : Deed α → Option α × Backlog α
  | .offer a => q.offer a
  | .tryTake | .take =>
    match q.take? with
    | none => (none, q)
    | some (a, q) => (some a, q)

def deals (q : Backlog α) : List (Deed α) → Account α × Backlog α
  | [] => ([], q)
  | d :: ds =>
    let (out, q) := q.deal d
    let (account, q) := q.deals ds
    ((d, out) :: account, q)

/-- There is room for an entry, and no more entries than there is room for. -/
structure Bounded (q : Backlog α) : Prop where
  room : 1 ≤ q.capacity
  size : q.toList.length ≤ q.capacity

variable {q : Backlog α}

theorem bounded_ofCapacity (capacity : Nat) : (ofCapacity capacity : Backlog α).Bounded :=
  ⟨Nat.le_max_right _ _, Nat.zero_le _⟩

theorem offer_line (h : q.Bounded) (a : α) :
    Line.offer q.capacity q.toList a = ((q.offer a).1, (q.offer a).2.toList) ∧
      (q.offer a).2.capacity = q.capacity := by
  have hsize : q.entries.size = q.toList.length := q.entries.size_eq_length
  unfold Line.offer offer
  rw [hsize]
  split
  · exact ⟨Prod.ext rfl (Fifo.toList_push _ _).symm, rfl⟩
  · next hfull =>
      split
      · next hnone =>
          -- A full backlog is not empty.
          have hempty : q.toList = [] := Fifo.pop?_eq_none_iff.mp hnone
          have := h.room
          rw [hempty, List.length_nil] at hfull
          omega
      · next oldest rest hpop =>
          have hline : q.toList = oldest :: rest.toList := Fifo.toList_of_pop? hpop
          refine ⟨?_, rfl⟩
          rw [hline]
          exact Prod.ext rfl (Fifo.toList_push _ _).symm

/-- A backlog evicts when it is full, and then it evicts the oldest entry. -/
theorem offer_evicts (h : q.Bounded) (a : α) :
    (q.size < q.capacity → (q.offer a).1 = none) ∧
      (q.size = q.capacity →
        ∃ oldest rest, q.toList = oldest :: rest ∧ (q.offer a).1 = some oldest) := by
  have hline := congrArg Prod.fst (offer_line h a).1
  rw [size_eq_length, ← hline]
  unfold Line.offer
  refine ⟨fun hfits => by rw [if_pos hfits], fun hfull => ?_⟩
  rw [if_neg (Nat.not_lt.mpr (Nat.le_of_eq hfull.symm))]
  cases hlist : q.toList with
  | nil =>
      have := h.room
      rw [hlist, List.length_nil] at hfull
      omega
  | cons oldest rest => exact ⟨oldest, rest, rfl, rfl⟩

theorem take_line (q : Backlog α) :
    Line.take q.toList = ((q.deal .take).1, (q.deal .take).2.toList) ∧
      (q.deal .take).2.capacity = q.capacity := by
  unfold deal take?
  cases hpop : q.entries.pop? with
  | none =>
      have hempty : q.toList = [] := Fifo.pop?_eq_none_iff.mp hpop
      simp [Line.take, hempty]
  | some popped =>
      obtain ⟨a, rest⟩ := popped
      have hline : q.toList = a :: rest.toList := Fifo.toList_of_pop? hpop
      rw [hline]
      exact ⟨rfl, rfl⟩

/-- A backlog does what a line does. -/
theorem deal_line (h : q.Bounded) (d : Deed α) :
    Line.deal q.capacity q.toList d = ((q.deal d).1, (q.deal d).2.toList) ∧
      (q.deal d).2.capacity = q.capacity := by
  cases d with
  | offer a => exact offer_line h a
  | tryTake | take => exact take_line q

theorem Bounded.deal (h : q.Bounded) (d : Deed α) : (q.deal d).2.Bounded := by
  obtain ⟨hline, hcapacity⟩ := deal_line h d
  have hlength := Line.length_deal h.size h.room d
  rw [hline] at hlength
  rw [← hcapacity] at hlength
  exact ⟨hcapacity ▸ h.room, hlength⟩

theorem deals_line (h : q.Bounded) (ds : List (Deed α)) :
    Line.deals q.capacity q.toList ds = ((q.deals ds).1, (q.deals ds).2.toList) ∧
      (q.deals ds).2.capacity = q.capacity := by
  induction ds generalizing q with
  | nil => exact ⟨rfl, rfl⟩
  | cons d ds ih =>
      obtain ⟨hline, hcapacity⟩ := deal_line h d
      obtain ⟨hlines, hcapacities⟩ := ih (h.deal d)
      rw [hcapacity] at hlines
      refine ⟨?_, hcapacities.trans hcapacity⟩
      simp only [Line.deals, hline, hlines, deals]

/-- Entries leave a backlog in the order in which they came. -/
theorem deals_order (h : q.Bounded) (ds : List (Deed α)) :
    q.toList ++ Deed.offers ds = (q.deals ds).1.left ++ (q.deals ds).2.toList := by
  have hmoved := Line.deals_order h.room q.toList ds
  rw [(deals_line h ds).1] at hmoved
  exact hmoved

/-- What came in at an empty backlog has left it, or is still there, in the order in which it came. -/
theorem account_order {capacity : Nat} {account : Account α}
    (h : (ofCapacity capacity).deals (account.map Prod.fst) = (account, q)) :
    Deed.offers (account.map Prod.fst) = account.left ++ q.toList := by
  have hmoved := deals_order (bounded_ofCapacity capacity) (account.map Prod.fst)
  rw [h] at hmoved
  exact hmoved

theorem Bounded.deals (h : q.Bounded) (ds : List (Deed α)) : (q.deals ds).2.Bounded := by
  induction ds generalizing q with
  | nil => exact h
  | cons d ds ih => exact ih (h.deal d)

theorem deals_append (q : Backlog α) (ds others : List (Deed α)) :
    q.deals (ds ++ others) =
      ((q.deals ds).1 ++ ((q.deals ds).2.deals others).1, ((q.deals ds).2.deals others).2) := by
  induction ds generalizing q with
  | nil => rfl
  | cons d ds ih => simp [deals, ih]

theorem counted_deal (q : Backlog α) (d : Deed α) :
    (q.deal d).2.offered = q.offered + UInt64.ofNat d.offered?.toList.length ∧
      (q.deal d).2.evicted =
        q.evicted + UInt64.ofNat (Account.evicted [(d, (q.deal d).1)]).length := by
  cases d with
  | offer a =>
      obtain ⟨hoffered, hoffer⟩ := q.offer_cases a
      refine ⟨hoffered, ?_⟩
      rcases hoffer with ⟨hnone, hevicted, -⟩ | ⟨oldest, rest, -, hsome, hevicted, -⟩
      · simp [deal, Account.evicted, Account.leftBy, Account.left, hnone, hevicted]
      · simp [deal, Account.evicted, Account.leftBy, Account.left, hsome, hevicted]
  | tryTake | take =>
      simp only [deal]
      cases htake : q.take? with
      | none => simp [Deed.offered?, Account.evicted, Account.leftBy, Account.left]
      | some taken =>
          obtain ⟨-, hoffered, hevicted⟩ := of_take? htake
          simp [Deed.offered?, Account.evicted, Account.leftBy, Account.left, hoffered, hevicted]

/-- The counters of a backlog are the true numbers modulo 2^64. -/
theorem counted_deals (q : Backlog α) (ds : List (Deed α)) :
    (q.deals ds).2.offered = q.offered + UInt64.ofNat (Deed.offers ds).length ∧
      (q.deals ds).2.evicted =
        q.evicted + UInt64.ofNat (Account.evicted (q.deals ds).1).length := by
  induction ds generalizing q with
  | nil => simp [deals, Deed.offers, Account.evicted, Account.leftBy, Account.left]
  | cons d ds ih =>
      obtain ⟨hoffered, hevicted⟩ := counted_deal q d
      obtain ⟨hoffers, hevictions⟩ := ih (q.deal d).2
      have hdeals : q.deals (d :: ds) =
          ((d, (q.deal d).1) :: ((q.deal d).2.deals ds).1, ((q.deal d).2.deals ds).2) := rfl
      have hevictedNow := Account.evicted_cons (d, (q.deal d).1) ((q.deal d).2.deals ds).1
      rw [hdeals, hoffers, hevictions, hoffered, hevicted, Deed.offers_cons, hevictedNow,
        List.length_append, List.length_append, UInt64.ofNat_add, UInt64.ofNat_add,
        UInt64.add_assoc, UInt64.add_assoc]
      exact ⟨rfl, rfl⟩

end Backlog

/-! ## The handoff -/

namespace Handoff

/-- What can be done at a handoff. -/
inductive Act (α : Type) where
  | offer (a : α)
  | tryTake
  /-- A consumer comes to take an entry, unless one is there already. -/
  | arrive
  /-- The consumer gets on by one step. -/
  | step
  /-- The consumer goes away. -/
  | leave
deriving DecidableEq, Repr

def Act.offered? : Act α → Option α
  | .offer a => some a
  | _ => none

def start (capacity : Nat) : Handoff α := { backlog := Backlog.ofCapacity capacity }

/-- What an act does, and what it means for the backlog. A take is told of when it brings an entry,
and a consumer that gets none has done nothing to the backlog. -/
def act (h : Handoff α) : Act α → Account α × Handoff α
  | .offer a =>
    let (evicted, h) := h.offer a
    ([(.offer a, evicted)], h)
  | .tryTake =>
    let (found, h) := h.tryTake
    ([(.tryTake, found)], h)
  | .arrive => ([], if h.consumer = .absent then h.arrive else h)
  | .step =>
    match h.step with
    | (some a, h) => ([(.take, some a)], h)
    | (none, h) => ([], h)
  | .leave => ([], h.leave)

def run (h : Handoff α) : List (Act α) → Account α × Handoff α
  | [] => ([], h)
  | a :: acts =>
    let (account, h) := h.act a
    let (later, h) := h.run acts
    (account ++ later, h)

variable {h : Handoff α}

theorem backlog_ring (h : Handoff α) : h.ring.backlog = h.backlog := by
  unfold ring
  split <;> rfl

theorem backlog_leave (h : Handoff α) : h.leave.backlog = h.backlog := by
  unfold leave
  split
  · exact backlog_ring _
  · rfl

/-- A consumer removes an entry in the step that brings it, and does nothing to the backlog in any
other step. -/
theorem backlog_step (h : Handoff α) :
    (∀ a, h.step.1 = some a → h.backlog.take? = some (a, h.step.2.backlog)) ∧
      (h.step.1 = none → h.step.2.backlog = h.backlog) := by
  unfold step
  split
  · exact ⟨nofun, fun _ => rfl⟩
  · exact ⟨nofun, fun _ => rfl⟩
  · split
    · next htake => exact ⟨fun _ hsome => by cases hsome; exact htake, nofun⟩
    · exact ⟨nofun, fun _ => rfl⟩
  · split
    · next htake => exact ⟨fun _ hsome => by cases hsome; exact htake, nofun⟩
    · exact ⟨nofun, fun _ => rfl⟩
  · split
    · exact ⟨nofun, fun _ => rfl⟩
    · exact ⟨nofun, fun _ => rfl⟩

/-- So it is while the consumer gets on by itself. -/
theorem backlog_steps (h : Handoff α) (n : Nat) :
    (∀ a, (h.steps n).1 = some a → h.backlog.take? = some (a, (h.steps n).2.backlog)) ∧
      ((h.steps n).1 = none → (h.steps n).2.backlog = h.backlog) := by
  induction n generalizing h with
  | zero => exact ⟨nofun, fun _ => rfl⟩
  | succ n ih =>
      obtain ⟨htook, hkept⟩ := backlog_step h
      unfold steps
      split
      · next found h' hstep =>
          rw [hstep] at htook
          exact ⟨htook, nofun⟩
      · next h' hstep =>
          rw [hstep] at hkept
          have hsame : h'.backlog = h.backlog := hkept rfl
          rw [← hsame]
          exact ih h'

theorem backlog_tryTake (h : Handoff α) :
    h.tryTake.1 = h.backlog.toList.head? ∧ h.tryTake.2.backlog.toList = h.backlog.toList.tail := by
  unfold tryTake
  cases htake : h.backlog.take? with
  | none =>
      have hempty := Backlog.take?_eq_none_iff.mp htake
      simp [hempty]
  | some taken =>
      obtain ⟨hline, -, -⟩ := Backlog.of_take? htake
      simp [hline]

/-- What is told of an act is what became of the backlog. -/
theorem deals_act (h : Handoff α) (a : Act α) :
    h.backlog.deals ((h.act a).1.map Prod.fst) = ((h.act a).1, (h.act a).2.backlog) := by
  cases a with
  | offer a =>
      have hring := backlog_ring { h with backlog := (h.backlog.offer a).2 }
      simp [act, Handoff.offer, Backlog.deals, Backlog.deal, hring]
  | tryTake =>
      simp only [act, tryTake]
      cases htake : h.backlog.take? with
      | none => simp [Backlog.deals, Backlog.deal, htake]
      | some taken => simp [Backlog.deals, Backlog.deal, htake]
  | arrive =>
      simp only [act]
      split <;> rfl
  | step =>
      obtain ⟨htook, hkept⟩ := backlog_step h
      simp only [act]
      split
      · next found h' hstep =>
          have htake := htook found (by rw [hstep])
          rw [hstep] at htake
          simp [Backlog.deals, Backlog.deal, htake]
      · next h' hstep =>
          have hsame : h'.backlog = h.backlog := by
            rw [hstep] at hkept
            exact hkept rfl
          simp [Backlog.deals, hsame]
  | leave => simp [act, Backlog.deals, backlog_leave]

theorem deals_run (h : Handoff α) (acts : List (Act α)) :
    h.backlog.deals ((h.run acts).1.map Prod.fst) = ((h.run acts).1, (h.run acts).2.backlog) := by
  induction acts generalizing h with
  | nil => rfl
  | cons a acts ih => simp [run, Backlog.deals_append, deals_act, ih]

theorem offers_act (h : Handoff α) (a : Act α) :
    Deed.offers ((h.act a).1.map Prod.fst) = a.offered?.toList := by
  cases a with
  | step =>
      simp only [act]
      split <;> rfl
  | offer | tryTake | arrive | leave => rfl

theorem offers_run (h : Handoff α) (acts : List (Act α)) :
    Deed.offers ((h.run acts).1.map Prod.fst) = acts.filterMap Act.offered? := by
  induction acts generalizing h with
  | nil => rfl
  | cons a acts ih =>
      rw [run, List.map_append, Deed.offers_append, offers_act, ih, filterMap_cons_toList]

end Handoff

end ClusterRelay
