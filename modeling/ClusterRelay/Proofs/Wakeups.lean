import ClusterRelay.Proofs.DropOldest

/-!
# No ring is missed

A consumer that sleeps while there is something to take would sleep on until the next offer, and
nobody might ever make one. Offers come from many threads, and each of them is two acts: the entry
goes in, and then the offer rings. Anything can happen between the two, so for a moment a consumer may
well sleep beside a backlog that is not empty. What holds at all times is that somebody is then still
about to ring. `Attentive` says so, and also why it stays so: a consumer that found nothing and is
about to fall asleep has nothing to miss, or a ring is on its way, or the credit is there that keeps
it awake.

The credit is a poor witness. It may be stale, because its entry has been taken or evicted in the
meantime, and it may stand for many offers at once. Neither does harm: the one makes the consumer look
once too often, and the other is enough because a consumer that looks finds whatever is there.

Where every offer is made in one go nobody is ever about to ring, and then a consumer that is polled
gets what is there without any proviso. So the account of a backlog, of which the line is one half,
can be closed here.
-/

namespace ClusterRelay

variable {α : Type}

namespace Handoff

/-- After an arrival there is a consumer, a new one or the one that was there. -/
theorem arrived (h : Handoff α) :
    (h.act .arrive).2.consumer ≠ .absent ∧ (h.act .arrive).2.backlog = h.backlog := by
  simp only [act]
  split
  · refine ⟨?_, rfl⟩
    intro habsent
    cases habsent
  · next hthere => exact ⟨hthere, rfl⟩

/-- A handoff with several threads that make offers. Some of these offers may be half done. -/
structure Shared (α : Type) where
  handoff : Handoff α
  /-- How many offers have their entry in and have not rung yet. -/
  owed : Nat := 0

namespace Shared

/-- What the threads can do. -/
inductive Act (α : Type) where
  /-- Something is done in one go. -/
  | whole (act : Handoff.Act α)
  /-- The first half of an offer: the entry goes in. -/
  | enter (a : α)
  /-- The second half of one of the offers that are half done. -/
  | ring
deriving DecidableEq, Repr

def Act.offered? : Act α → Option α
  | .whole act => act.offered?
  | .enter a => some a
  | .ring => none

def start (capacity : Nat) : Shared α := { handoff := Handoff.start capacity }

def act (s : Shared α) : Act α → Account α × Shared α
  | .whole act =>
    let (account, handoff) := s.handoff.act act
    (account, { s with handoff })
  | .enter a =>
    let (evicted, backlog) := s.handoff.backlog.offer a
    ([(.offer a, evicted)], ⟨{ s.handoff with backlog }, s.owed + 1⟩)
  | .ring =>
    match s.owed with
    | 0 => ([], s)
    | owed + 1 => ([], ⟨s.handoff.ring, owed⟩)

def run (s : Shared α) : List (Act α) → Account α × Shared α
  | [] => ([], s)
  | a :: acts =>
    let (account, s) := s.act a
    let (later, s) := s.run acts
    (account ++ later, s)

/-- No thread has anything to do: no offer is half done, and the consumer is away or sleeps. -/
def Resting (s : Shared α) : Prop :=
  s.owed = 0 ∧ (s.handoff.consumer = .absent ∨ s.handoff.consumer = .asleep)

variable {s : Shared α}

/-- An offer in one go is its two halves, one right after the other. -/
theorem run_halves (s : Shared α) (a : α) :
    s.run [.enter a, .ring] = s.run [.whole (.offer a)] := rfl

/-! ## The entries -/

theorem deals_act (s : Shared α) (a : Act α) :
    s.handoff.backlog.deals ((s.act a).1.map Prod.fst) =
      ((s.act a).1, (s.act a).2.handoff.backlog) := by
  cases a with
  | whole act => exact Handoff.deals_act s.handoff act
  | enter a => rfl
  | ring =>
      simp only [act]
      split
      · rfl
      · simp [Backlog.deals, backlog_ring]

theorem deals_run (s : Shared α) (acts : List (Act α)) :
    s.handoff.backlog.deals ((s.run acts).1.map Prod.fst) =
      ((s.run acts).1, (s.run acts).2.handoff.backlog) := by
  induction acts generalizing s with
  | nil => rfl
  | cons a acts ih => simp [run, Backlog.deals_append, deals_act, ih]

theorem offers_act (s : Shared α) (a : Act α) :
    Deed.offers ((s.act a).1.map Prod.fst) = a.offered?.toList := by
  cases a with
  | whole act => exact Handoff.offers_act s.handoff act
  | enter a => rfl
  | ring =>
      simp only [act]
      split <;> rfl

theorem offers_run (s : Shared α) (acts : List (Act α)) :
    Deed.offers ((s.run acts).1.map Prod.fst) = acts.filterMap Act.offered? := by
  induction acts generalizing s with
  | nil => rfl
  | cons a acts ih =>
      rw [run, List.map_append, Deed.offers_append, offers_act, ih, filterMap_cons_toList]

/-- A thread that makes its offers in one go leaves nothing owed. -/
theorem run_whole (h : Handoff α) (owed : Nat) (acts : List (Handoff.Act α)) :
    (Shared.mk h owed).run (acts.map .whole) = ((h.run acts).1, ⟨(h.run acts).2, owed⟩) := by
  induction acts generalizing h with
  | nil => rfl
  | cons a acts ih => simp only [List.map_cons, run, act, ih, Handoff.run]

/-! ## The consumer -/

/-- A consumer that sleeps, or is about to, has nothing to miss unless it is going to be told. -/
structure Attentive (s : Shared α) : Prop where
  asleep : s.handoff.consumer = .asleep → s.handoff.backlog.toList = [] ∨ 0 < s.owed
  drowsy : s.handoff.consumer = .drowsy →
    s.handoff.credit = true ∨ s.handoff.backlog.toList = [] ∨ 0 < s.owed

theorem attentive_start (capacity : Nat) : (start capacity : Shared α).Attentive :=
  ⟨nofun, nofun⟩

/-- A consumer that is neither asleep nor about to fall asleep misses nothing. -/
theorem attentive_of_awake (hasleep : s.handoff.consumer ≠ .asleep)
    (hdrowsy : s.handoff.consumer ≠ .drowsy) : s.Attentive :=
  ⟨fun h => absurd h hasleep, fun h => absurd h hdrowsy⟩

/-- Ringing wakes a sleeper and keeps one awake that is about to fall asleep. -/
theorem attentive_ring (h : Handoff α) (owed : Nat) : (Shared.mk h.ring owed).Attentive := by
  unfold ring
  split
  · exact attentive_of_awake nofun nofun
  · next hawake => exact ⟨fun h => absurd h hawake, fun _ => Or.inl rfl⟩

/-- Entries may go as they please as long as none comes. -/
theorem Attentive.tried (h : s.Attentive) :
    ({ s with handoff := s.handoff.tryTake.2 } : Shared α).Attentive := by
  unfold tryTake
  split
  · exact h
  · next a backlog htake =>
      obtain ⟨hline, -, -⟩ := Backlog.of_take? htake
      have hsome : s.handoff.backlog.toList ≠ [] := by rw [hline]; exact List.cons_ne_nil _ _
      exact ⟨fun hasleep => Or.inr ((h.asleep hasleep).resolve_left hsome),
        fun hdrowsy => (h.drowsy hdrowsy).imp_right fun hmiss => Or.inr (hmiss.resolve_left hsome)⟩

theorem Attentive.stepped (h : s.Attentive) :
    ({ s with handoff := s.handoff.step.2 } : Shared α).Attentive := by
  unfold Handoff.step
  split
  · exact h
  · exact h
  · split
    · exact attentive_of_awake nofun nofun
    · next hnone =>
        have hempty := Backlog.take?_eq_none_iff.mp hnone
        exact ⟨nofun, fun _ => Or.inr (Or.inl hempty)⟩
  · split
    · exact attentive_of_awake nofun nofun
    · next hnone =>
        have hempty := Backlog.take?_eq_none_iff.mp hnone
        exact ⟨nofun, fun _ => Or.inr (Or.inl hempty)⟩
  · next hconsumer =>
      split
      · exact attentive_of_awake nofun nofun
      · next hcredit =>
          -- It falls asleep without a credit, so it is one of the other reasons.
          exact ⟨fun _ => (h.drowsy hconsumer).resolve_left hcredit, nofun⟩

theorem Attentive.act (h : s.Attentive) (a : Act α) : (s.act a).2.Attentive := by
  cases a with
  | whole act =>
      cases act with
      | offer a => exact attentive_ring _ _
      | tryTake => exact h.tried
      | arrive =>
          simp only [Shared.act, Handoff.act]
          split
          · exact attentive_of_awake (by simp [arrive]) (by simp [arrive])
          · exact h
      | step =>
          have hstepped := h.stepped
          simp only [Shared.act, Handoff.act]
          split
          · next hstep => rwa [hstep] at hstepped
          · next hstep => rwa [hstep] at hstepped
      | leave =>
          simp only [Shared.act, Handoff.act, leave]
          split
          · exact attentive_ring _ _
          · exact attentive_of_awake (by simp) (by simp)
  | enter a => exact ⟨fun _ => Or.inr (Nat.succ_pos _), fun _ => Or.inr (Or.inr (Nat.succ_pos _))⟩
  | ring =>
      simp only [Shared.act]
      split
      · exact h
      · exact attentive_ring _ _

theorem Attentive.run (h : s.Attentive) (acts : List (Act α)) : (s.run acts).2.Attentive := by
  induction acts generalizing s with
  | nil => exact h
  | cons a acts ih => exact ih (h.act a)

/-- Left to itself, a consumer gets the oldest entry if there is one, and otherwise falls asleep. -/
theorem Attentive.poll (h : s.Attentive) (hrung : s.owed = 0)
    (hthere : s.handoff.consumer ≠ .absent) :
    s.handoff.poll.1 = s.handoff.backlog.toList.head? ∧
      s.handoff.poll.2.consumer =
        (if s.handoff.backlog.toList = [] then .asleep else .absent) := by
  have hnone_owed : ¬ 0 < s.owed := by omega
  cases htake : s.handoff.backlog.take? with
  | none =>
      have hempty := Backlog.take?_eq_none_iff.mp htake
      rw [hempty]
      cases hconsumer : s.handoff.consumer with
      | absent => exact absurd hconsumer hthere
      | looking | drowsy | asleep | woken =>
          cases hcredit : s.handoff.credit <;>
            simp [Handoff.poll, steps, Handoff.step, hconsumer, htake, hcredit]
  | some taken =>
      obtain ⟨a, rest⟩ := taken
      obtain ⟨hline, -, -⟩ := Backlog.of_take? htake
      have hsome : s.handoff.backlog.toList ≠ [] := by rw [hline]; exact List.cons_ne_nil _ _
      rw [if_neg hsome, hline]
      cases hconsumer : s.handoff.consumer with
      | absent => exact absurd hconsumer hthere
      | looking | woken => simp [Handoff.poll, steps, Handoff.step, hconsumer, htake]
      | drowsy =>
          have hcredit : s.handoff.credit = true :=
            ((h.drowsy hconsumer).resolve_right (not_or.mpr ⟨hsome, hnone_owed⟩))
          simp [Handoff.poll, steps, Handoff.step, hconsumer, htake, hcredit]
      | asleep => exact absurd ((h.asleep hconsumer).resolve_right hnone_owed) hsome

/-- What it gets has left the backlog, and nothing else has. -/
theorem Attentive.polled (h : s.Attentive) (hrung : s.owed = 0)
    (hthere : s.handoff.consumer ≠ .absent) :
    s.handoff.poll.1 = s.handoff.backlog.toList.head? ∧
      s.handoff.poll.2.backlog.toList = s.handoff.backlog.toList.tail := by
  obtain ⟨hfound, -⟩ := h.poll hrung hthere
  obtain ⟨htook, hkept⟩ := backlog_steps s.handoff 4
  refine ⟨hfound, ?_⟩
  cases hline : s.handoff.backlog.toList with
  | nil =>
      rw [hline] at hfound
      have hsame : s.handoff.poll.2.backlog = s.handoff.backlog := hkept hfound
      rw [hsame, hline]
      rfl
  | cons oldest rest =>
      rw [hline] at hfound
      obtain ⟨hleft, -, -⟩ := Backlog.of_take? (htook oldest hfound)
      rw [hline] at hleft
      exact (List.cons.inj hleft).2.symm

end Shared

/-- Whatever is done at a handoff, in whatever order, the backlog does what a line does with room for
as many entries as it has, one at least. So it never holds more, and evicts exactly when it is full,
namely the oldest entry; entries leave in the order in which they were offered, taken or evicted, and
those that have not left are there in that order; and the counters balance. Whoever tries gets the
oldest entry if there is one, and so does a consumer that is polled, be it one that comes now or one
that has been waiting, and nothing else leaves. -/
theorem refines_line (capacity : Nat) (acts : List (Act α)) :
    let room := max capacity 1
    let account := ((start capacity).run acts).1
    let h := ((start capacity).run acts).2
    Line.deals room [] (account.map Prod.fst) = (account, h.backlog.toList) ∧
    h.backlog.size ≤ room ∧
    (∀ a, (h.backlog.size < room → (h.offer a).1 = none) ∧
      (h.backlog.size = room →
        ∃ oldest rest, h.backlog.toList = oldest :: rest ∧ (h.offer a).1 = some oldest)) ∧
    acts.filterMap Act.offered? = account.left ++ h.backlog.toList ∧
    h.backlog.offered = UInt64.ofNat (acts.filterMap Act.offered?).length ∧
    h.backlog.evicted = UInt64.ofNat account.evicted.length ∧
    (acts.filterMap Act.offered?).length =
      account.tried.length + account.taken.length + account.evicted.length + h.backlog.size ∧
    (h.tryTake.1 = h.backlog.toList.head? ∧
      h.tryTake.2.backlog.toList = h.backlog.toList.tail) ∧
    let polled := (h.act .arrive).2.poll
    polled.1 = h.backlog.toList.head? ∧ polled.2.backlog.toList = h.backlog.toList.tail := by
  intro room account h
  have hstart : (Backlog.ofCapacity capacity : Backlog α).Bounded := Backlog.bounded_ofCapacity _
  have hdeals : (Backlog.ofCapacity capacity).deals (account.map Prod.fst) = (account, h.backlog) :=
    deals_run (start capacity) acts
  have hoffers : Deed.offers (account.map Prod.fst) = acts.filterMap Act.offered? :=
    offers_run (start capacity) acts
  have hbounded := hstart.deals (account.map Prod.fst)
  obtain ⟨hline, hcapacity⟩ := Backlog.deals_line hstart (account.map Prod.fst)
  obtain ⟨hoffered, hevicted⟩ := Backlog.counted_deals (Backlog.ofCapacity capacity)
    (account.map Prod.fst)
  rw [hdeals] at hline hcapacity hoffered hevicted hbounded
  have hroom : h.backlog.capacity = room := hcapacity
  have hplayed : Line.deals room [] (account.map Prod.fst) = (account, h.backlog.toList) := hline
  have horder : acts.filterMap Act.offered? = account.left ++ h.backlog.toList :=
    hoffers.symm.trans (Backlog.account_order hdeals)
  refine ⟨hplayed, ?_, fun a => ?_, horder, ?_, ?_, ?_, backlog_tryTake h, ?_⟩
  · rw [Backlog.size_eq_length, ← hroom]
    exact hbounded.size
  · rw [← hroom]
    exact Backlog.offer_evicts hbounded a
  · rw [hoffered, hoffers]
    exact UInt64.zero_add _
  · rw [hevicted]
    exact UInt64.zero_add _
  · have hways := (Account.left_perm account).length_eq
    rw [List.length_append, List.length_append] at hways
    rw [horder, List.length_append, hways, Backlog.size_eq_length]
    omega
  · -- No offer is ever half done here, so whoever is there has been told of every entry.
    have hattentive := ((Shared.attentive_start capacity).run (acts.map .whole)).act (.whole .arrive)
    rw [Shared.start, Shared.run_whole] at hattentive
    obtain ⟨hthere, hsame⟩ := arrived h
    have hpolled := hattentive.polled rfl hthere
    rw [← hsame]
    exact hpolled

/-- A consumer waits, and what woke it is evicted before it gets to look. -/
example : ((start 0).run [.arrive, .step, .step, .offer 1, .offer 2, .step]).1 =
    [(.offer 1, none), (.offer 2, some 1), (.take, some 2)] := rfl

/-- Whatever the threads do at a handoff, in whatever order and with offers half done: when none of
them has anything to do, a consumer that is still waiting waits at an empty backlog. When no offer is
half done, a consumer that is there needs nothing but to be polled: it gets the oldest entry, and
falls asleep only if there is none. As long as it has got no entry it has not touched the backlog,
nor does it when it goes away. Every entry that was offered has been evicted, or was got by somebody
who tried, or was brought to a consumer, or is still there, and only one of these. -/
theorem no_ring_missed (capacity : Nat) (acts : List (Shared.Act α)) :
    let account := ((Shared.start capacity).run acts).1
    let s := ((Shared.start capacity).run acts).2
    let offers := acts.filterMap Shared.Act.offered?
    (s.Resting → s.handoff.consumer ≠ .absent → s.handoff.backlog.toList = []) ∧
    (s.owed = 0 → s.handoff.consumer ≠ .absent →
      s.handoff.poll.1 = s.handoff.backlog.toList.head? ∧
      s.handoff.poll.2.consumer =
        if s.handoff.backlog.toList = [] then .asleep else .absent) ∧
    (s.handoff.step.1 = none → s.handoff.step.2.backlog = s.handoff.backlog) ∧
    s.handoff.leave.backlog = s.handoff.backlog ∧
    offers = account.left ++ s.handoff.backlog.toList ∧
    offers.Perm (account.evicted ++ account.tried ++ account.taken ++ s.handoff.backlog.toList) := by
  intro account s offers
  have hattentive : s.Attentive := (Shared.attentive_start capacity).run acts
  have hdeals : (Backlog.ofCapacity capacity).deals (account.map Prod.fst) =
      (account, s.handoff.backlog) := Shared.deals_run (Shared.start capacity) acts
  have hoffers : Deed.offers (account.map Prod.fst) = offers :=
    Shared.offers_run (Shared.start capacity) acts
  have horder : offers = account.left ++ s.handoff.backlog.toList :=
    hoffers.symm.trans (Backlog.account_order hdeals)
  refine ⟨fun hresting hthere => ?_, hattentive.poll, (backlog_step s.handoff).2,
    backlog_leave s.handoff, horder, ?_⟩
  · obtain ⟨hrung, hconsumer⟩ := hresting
    refine (hattentive.asleep (hconsumer.resolve_left hthere)).resolve_right ?_
    omega
  · rw [horder]
    exact (Account.left_perm account).append_right _

/-- Between the two halves of an offer a consumer may sleep beside an entry. -/
example :
    let s := ((Shared.start 3).run [.whole .arrive, .whole .step, .whole .step, .enter 7]).2
    s.handoff.consumer = .asleep ∧ s.handoff.backlog.toList = [7] ∧ s.owed = 1 ∧
      (s.act .ring).2.handoff.poll.1 = some 7 := ⟨rfl, rfl, rfl, rfl⟩

end Handoff

end ClusterRelay
