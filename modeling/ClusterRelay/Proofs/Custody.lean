import ClusterRelay.Proofs.Moves

/-!
# Where the admitted parcels are

A parcel leaves the backlog in one of two ways: it is taken in hand, or it is evicted. What
is kept, the admitted parcels without the evicted ones in the order of admission, is
therefore at all times what was taken so far followed by what the backlog still holds. Both
ends are easy to see: an offer adds to the back of the list and to the back of the backlog,
and a parcel that is taken merely changes sides. The one step with an argument in it is an
eviction, which removes from the middle of the list. It removes the right one because
parcels carry serial numbers and no two are equal.

`Custody` is the invariant and `Passage` says of a step which of the three it is. What was
taken only ever grows at its end, so what was taken by some moment still stands at the head
of what is kept at any later one: `custody_run`.
-/

namespace ClusterRelay

def Note.admitted? : Note → Option Parcel
  | .admitted p => some p
  | _ => none

def Note.evicted? : Note → Option Parcel
  | .evicted p => some p
  | _ => none

def admittedIn (notes : List Note) : List Parcel := notes.filterMap Note.admitted?

def evictedIn (notes : List Note) : List Parcel := notes.filterMap Note.evicted?

/-- The parcels that were admitted and not evicted. -/
def keptIn (notes : List Note) : List Parcel :=
  (admittedIn notes).filter (· ∉ evictedIn notes)

/-- Mutations as parcels, numbered in their order from `first` on. -/
def numbered (first : Nat) : List Mutation → List Parcel
  | [] => []
  | m :: ms => ⟨first, m⟩ :: numbered (first + 1) ms

theorem numbered_append (first : Nat) (ms others : List Mutation) :
    numbered first (ms ++ others) =
      numbered first ms ++ numbered (first + ms.length) others := by
  induction ms generalizing first with
  | nil => rfl
  | cons m ms ih =>
      rw [List.cons_append, numbered, numbered, ih, List.length_cons, List.cons_append]
      congr 3
      omega

@[simp] theorem admittedIn_append (notes others : List Note) :
    admittedIn (notes ++ others) = admittedIn notes ++ admittedIn others :=
  List.filterMap_append

@[simp] theorem evictedIn_append (notes others : List Note) :
    evictedIn (notes ++ others) = evictedIn notes ++ evictedIn others :=
  List.filterMap_append

theorem admittedIn_quiet {notes : List Note} (h : ∀ n ∈ notes, n.ofParcel = false) :
    admittedIn notes = [] := by
  refine List.filterMap_eq_nil_iff.mpr fun n hn => ?_
  have := h n hn
  cases n <;> first | rfl | cases this

theorem evictedIn_quiet {notes : List Note} (h : ∀ n ∈ notes, n.ofParcel = false) :
    evictedIn notes = [] := by
  refine List.filterMap_eq_nil_iff.mpr fun n hn => ?_
  have := h n hn
  cases n <;> first | rfl | cases this

theorem quiet_lines (lines : List LogLine) :
    ∀ n ∈ lines.map Note.logged, n.ofParcel = false := by
  intro n hn
  obtain ⟨line, -, rfl⟩ := List.mem_map.mp hn
  rfl

/-! ## One step, as the backlog sees it -/

/-- What a step does to the backlog. -/
inductive Passage (w : Forwarder) : Option Mutation → Forwarder × List Note → Prop where
  | untouched {r : Forwarder × List Note} (hbacklog : r.1.backlog = w.backlog)
      (hadmitted : r.1.admitted = w.admitted) (hin : admittedIn r.2 = [])
      (hout : evictedIn r.2 = []) : Passage w none r
  | offered (m : Mutation) : Passage w (some m) (w.offer m)
  | taken {p : Parcel} {rest : Backlog Parcel} (hphase : w.phase = .waiting)
      (hbacklog : w.backlog.take? = some (p, rest)) :
      Passage w none (({ w with backlog := rest } : Forwarder).takeUp p, [])

namespace Forwarder

theorem passage_of_move {w : Forwarder} {m? : Option Mutation} {r : Forwarder × List Note}
    (h : Move w m? r) : Passage w m? r := by
  cases h with
  | aside haside _ hquiet =>
      exact .untouched haside.backlog haside.admitted (admittedIn_quiet hquiet)
        (evictedIn_quiet hquiet)
  | offered m => exact .offered m
  | taken hphase hbacklog => exact .taken hphase hbacklog
  | broken _ haside hquiet =>
      refine .untouched haside.backlog haside.admitted ?_ ?_
      · rw [admittedIn_append, admittedIn_quiet hquiet]
        rfl
      · rw [evictedIn_append, evictedIn_quiet hquiet]
        rfl
  | rested | resumed | submitted | unwritten | unaccepted | delivered | returned
  | unconfirmed | finished | overcome => exact .untouched rfl rfl rfl rfl

theorem passage_step (w : Forwarder) (e : Event) : Passage w e.offer? (w.step e) :=
  passage_of_move (move_step w e)

theorem offer_notes (w : Forwarder) (m : Mutation) :
    ∃ lines : List LogLine, (w.offer m).2 = (.admitted ⟨w.admitted, m⟩ ::
      ((w.backlog.offer ⟨w.admitted, m⟩).1.map Note.evicted).toList) ++
        lines.map Note.logged :=
  ⟨_, rfl⟩

theorem admittedIn_offer (w : Forwarder) (m : Mutation) :
    admittedIn (w.offer m).2 = [⟨w.admitted, m⟩] := by
  obtain ⟨lines, hnotes⟩ := offer_notes w m
  rw [hnotes, admittedIn_append, admittedIn_quiet (quiet_lines lines), List.append_nil]
  cases (w.backlog.offer ⟨w.admitted, m⟩).1 <;> rfl

theorem evictedIn_offer (w : Forwarder) (m : Mutation) :
    evictedIn (w.offer m).2 = (w.backlog.offer ⟨w.admitted, m⟩).1.toList := by
  obtain ⟨lines, hnotes⟩ := offer_notes w m
  rw [hnotes, evictedIn_append, evictedIn_quiet (quiet_lines lines), List.append_nil]
  cases (w.backlog.offer ⟨w.admitted, m⟩).1 <;> rfl

theorem admitted_step (w : Forwarder) (e : Event) :
    (w.step e).1.admitted = w.admitted + e.offer?.toList.length ∧
      admittedIn (w.step e).2 = numbered w.admitted e.offer?.toList := by
  have hpass := passage_step w e
  generalize w.step e = r at hpass
  generalize e.offer? = m? at hpass
  cases hpass with
  | untouched _ hadmitted hin _ => exact ⟨hadmitted, hin⟩
  | offered m => exact ⟨rfl, admittedIn_offer w m⟩
  | taken _ _ => exact ⟨rfl, rfl⟩

theorem offersIn_cons (e : Event) (es : List Event) :
    offersIn (e :: es) = e.offer?.toList ++ offersIn es := by
  unfold offersIn
  cases h : e.offer? <;> simp [h]

/-- A run admits what it is offered, numbered in the order of the offers. -/
theorem admittedIn_run (w : Forwarder) (es : List Event) :
    (w.run es).1.admitted = w.admitted + (offersIn es).length ∧
      admittedIn (w.run es).2 = numbered w.admitted (offersIn es) := by
  induction es generalizing w with
  | nil => exact ⟨rfl, rfl⟩
  | cons e es ih =>
      obtain ⟨hcount, hnotes⟩ := admitted_step w e
      obtain ⟨ihcount, ihnotes⟩ := ih (w.step e).1
      rw [offersIn_cons, numbered_append, List.length_append, ← Nat.add_assoc, ← hcount, ← hnotes,
        ← ihnotes]
      exact ⟨ihcount, admittedIn_append _ _⟩

/-! ## The invariant -/

/-- What is kept is what was taken, in this order, and then what the backlog holds; the
parcels are in the order of their numbers, and only admitted ones are ever evicted. -/
structure Custody (notes : List Note) (w : Forwarder) (out : List Parcel) : Prop where
  kept : keptIn notes = out ++ w.backlog.toList
  sorted : (admittedIn notes).Pairwise (·.serial < ·.serial)
  fresh : ∀ p ∈ admittedIn notes, p.serial < w.admitted
  evicted : ∀ p ∈ evictedIn notes, p ∈ admittedIn notes

variable {notes others : List Note} {w w' : Forwarder} {out : List Parcel}

theorem Custody.kept_sorted (h : Custody notes w out) :
    (out ++ w.backlog.toList).Pairwise (·.serial < ·.serial) := by
  rw [← h.kept]
  exact h.sorted.filter _

theorem Custody.untouched (h : Custody notes w out) (hbacklog : w'.backlog = w.backlog)
    (hadmitted : w'.admitted = w.admitted) (hin : admittedIn others = [])
    (hout : evictedIn others = []) : Custody (notes ++ others) w' out := by
  have hsame : admittedIn (notes ++ others) = admittedIn notes := by
    rw [admittedIn_append, hin, List.append_nil]
  have hsame' : evictedIn (notes ++ others) = evictedIn notes := by
    rw [evictedIn_append, hout, List.append_nil]
  refine ⟨?_, ?_, ?_, ?_⟩
  · rw [keptIn, hsame, hsame', hbacklog]
    exact h.kept
  · rw [hsame]
    exact h.sorted
  · rw [hsame, hadmitted]
    exact h.fresh
  · rw [hsame, hsame']
    exact h.evicted

theorem Custody.taken (h : Custody notes w out) {p : Parcel} {rest : Backlog Parcel}
    (hbacklog : w.backlog.take? = some (p, rest)) (htaken : w'.backlog = rest)
    (hadmitted : w'.admitted = w.admitted) : Custody notes w' (out ++ [p]) := by
  obtain ⟨hline, -, -⟩ := Backlog.of_take? hbacklog
  refine ⟨?_, h.sorted, ?_, h.evicted⟩
  · rw [h.kept, hline, htaken]
    simp
  · rw [hadmitted]
    exact h.fresh

/-- Without its one entry `p`, a list that does not repeat `p` is what stood around it. -/
theorem filter_ne_of_sorted {p : Parcel} {before after : List Parcel}
    (h : (before ++ p :: after).Pairwise (·.serial < ·.serial)) :
    (before ++ p :: after).filter (· ≠ p) = before ++ after := by
  obtain ⟨-, hafter, hbefore⟩ := List.pairwise_append.mp h
  have hb : before.filter (· ≠ p) = before := by
    refine List.filter_eq_self.mpr fun q hq => ?_
    have := hbefore q hq p List.mem_cons_self
    simp only [decide_eq_true_eq]
    rintro rfl
    omega
  have ha : after.filter (· ≠ p) = after := by
    refine List.filter_eq_self.mpr fun q hq => ?_
    have := (List.pairwise_cons.mp hafter).1 q hq
    simp only [decide_eq_true_eq]
    rintro rfl
    omega
  rw [List.filter_append, hb, List.filter_cons_of_neg (by simp), ha]

theorem filter_concat {p : Parcel} {gone all : List Parcel} (h : p ∉ gone) :
    (all ++ [p]).filter (· ∉ gone) = all.filter (· ∉ gone) ++ [p] := by
  rw [List.filter_append, List.filter_cons_of_pos (by simpa using h), List.filter_nil]

/-- One more entry leaves and a new one comes: the others stay as they stood. -/
theorem filter_evict {p oldest : Parcel} {all gone before after : List Parcel}
    (hkept : all.filter (· ∉ gone) = before ++ oldest :: after)
    (hsorted : (before ++ oldest :: after).Pairwise (·.serial < ·.serial))
    (hnew : p ∉ gone ++ [oldest]) :
    (all ++ [p]).filter (· ∉ gone ++ [oldest]) = before ++ (after ++ [p]) := by
  have hsplit : all.filter (· ∉ gone ++ [oldest]) =
      (all.filter (· ∉ gone)).filter (· ≠ oldest) := by
    rw [List.filter_filter]
    refine List.filter_congr fun q _ => ?_
    simp [not_or, and_comm]
  rw [filter_concat hnew, hsplit, hkept, filter_ne_of_sorted hsorted, List.append_assoc]

theorem Custody.unseen (h : Custody notes w out) (m : Mutation) :
    (⟨w.admitted, m⟩ : Parcel) ∉ admittedIn notes :=
  fun hmem => absurd (h.fresh _ hmem) (Nat.lt_irrefl _)

/-- What an offer evicts was admitted before. -/
theorem Custody.evicted_offer (h : Custody notes w out) (m : Mutation) :
    ∀ p ∈ evictedIn (notes ++ (w.offer m).2), p ∈ admittedIn notes := by
  rw [evictedIn_append, evictedIn_offer]
  intro p hp
  rcases List.mem_append.mp hp with hp | hp
  · exact h.evicted p hp
  · have hkept : p ∈ keptIn notes := by
      rw [h.kept]
      obtain ⟨-, hoffer⟩ := Backlog.offer_cases w.backlog (⟨w.admitted, m⟩ : Parcel)
      rcases hoffer with ⟨hnone, -, -⟩ | ⟨oldest, rest, hold, hsome, -, -⟩
      · rw [hnone] at hp
        cases hp
      · rw [hsome] at hp
        rw [List.mem_singleton.mp hp, hold]
        simp
    exact (List.mem_filter.mp hkept).1

theorem Custody.kept_offer (h : Custody notes w out) (m : Mutation) :
    keptIn (notes ++ (w.offer m).2) = out ++ (w.offer m).1.backlog.toList := by
  have hfresh : (⟨w.admitted, m⟩ : Parcel) ∉ evictedIn (notes ++ (w.offer m).2) :=
    fun hmem => h.unseen m (h.evicted_offer m _ hmem)
  rw [keptIn, admittedIn_append, admittedIn_offer]
  rw [evictedIn_append, evictedIn_offer] at hfresh ⊢
  obtain ⟨-, hoffer⟩ := Backlog.offer_cases w.backlog (⟨w.admitted, m⟩ : Parcel)
  rcases hoffer with ⟨hnone, -, hline⟩ | ⟨oldest, rest, hold, hsome, -, hline⟩
  · -- Nothing leaves: the new parcel is last on both sides.
    have hback : (w.offer m).1.backlog.toList = w.backlog.toList ++ [⟨w.admitted, m⟩] := hline
    rw [hnone, Option.toList_none, List.append_nil] at hfresh ⊢
    rw [filter_concat hfresh, hback, ← List.append_assoc, ← h.kept]
    rfl
  · -- The oldest leaves: it stands where what was taken ends.
    have hback : (w.offer m).1.backlog.toList = rest ++ [⟨w.admitted, m⟩] := hline
    have hlist : keptIn notes = out ++ oldest :: rest := by rw [h.kept, hold]
    have hsorted := h.kept_sorted
    rw [hold] at hsorted
    rw [hsome, Option.toList_some] at hfresh ⊢
    rw [hback]
    exact filter_evict hlist hsorted hfresh

theorem Custody.offered (h : Custody notes w out) (m : Mutation) :
    Custody (notes ++ (w.offer m).2) (w.offer m).1 out := by
  refine ⟨h.kept_offer m, ?_, ?_, ?_⟩
  · rw [admittedIn_append, admittedIn_offer]
    refine List.pairwise_append.mpr ⟨h.sorted, List.pairwise_singleton _ _, ?_⟩
    intro p hp q hq
    rw [List.mem_singleton.mp hq]
    exact h.fresh p hp
  · rw [admittedIn_append, admittedIn_offer]
    intro p hp
    show p.serial < w.admitted + 1
    rcases List.mem_append.mp hp with hp | hp
    · have := h.fresh p hp
      omega
    · rw [List.mem_singleton.mp hp]
      exact Nat.lt_succ_self _
  · rw [admittedIn_append]
    exact fun p hp => List.mem_append_left _ (h.evicted_offer m p hp)

theorem custody_start (f : Failover) (capacity : Nat) :
    Custody [] (ofParts f (Backlog.ofCapacity capacity)) [] :=
  ⟨rfl, List.Pairwise.nil, nofun, nofun⟩

theorem Custody.step (h : Custody notes w out) (e : Event) :
    ∃ more, Custody (notes ++ (w.step e).2) (w.step e).1 (out ++ more) := by
  have hpass := passage_step w e
  generalize w.step e = r at hpass
  generalize e.offer? = m? at hpass
  cases hpass with
  | untouched hbacklog hadmitted hin hout =>
      refine ⟨[], ?_⟩
      rw [List.append_nil]
      exact h.untouched hbacklog hadmitted hin hout
  | offered m =>
      refine ⟨[], ?_⟩
      rw [List.append_nil]
      exact h.offered m
  | @taken p rest _ hbacklog =>
      refine ⟨[p], ?_⟩
      rw [List.append_nil]
      exact h.taken hbacklog rfl rfl

/-- What was taken by some moment stands at the head of what is kept at any later one. -/
theorem custody_run (h : Custody notes w out) (es : List Event) :
    ∃ more, Custody (notes ++ (w.run es).2) (w.run es).1 (out ++ more) := by
  induction es generalizing notes w out with
  | nil => exact ⟨[], by simpa [run] using h⟩
  | cons e es ih =>
      obtain ⟨more, hmore⟩ := h.step e
      obtain ⟨rest, hrest⟩ := ih hmore
      refine ⟨more ++ rest, ?_⟩
      rw [← List.append_assoc]
      simpa [run, List.append_assoc] using hrest

theorem Custody.prefix_keptIn (h : Custody notes w out) (es : List Event) :
    out <+: keptIn (notes ++ (w.run es).2) := by
  obtain ⟨more, hmore⟩ := custody_run h es
  rw [hmore.kept, List.append_assoc]
  exact List.prefix_append _ _

end Forwarder

end ClusterRelay
