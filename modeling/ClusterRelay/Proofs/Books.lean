import ClusterRelay.Link
import ClusterRelay.Proofs.Moves

/-!
# The balance of the books

A link publishes seven numbers about the mutations that were offered to it, and three parts of it
keep them: the backlog counts offers and evictions, the retry stack has its size, and the forwarder
counts what it sent and dropped and says whether it has one in hand. They agree whenever the
forwarder is suspended: every mutation that was offered is accounted for exactly once.

The proof keeps the true numbers beside the published ones. `Tally` has those that can be read off
no list, `Books` says that every published number is the true one modulo 2^64 and that the true
ones balance, and a step moves one parcel from one of them to another. Only the end of a forwarder
is different: told to stop in the middle of a search it abandons the parcel in hand, which no
counter counts, while a crash that gets through to it counts the parcel as a fault. `Toll` says
which of these a step was.

What a stop costs is decided where the forwarder heeds it, not where it is when the signal comes: a
search looks for the signal only at its beginning and wherever it is suspended. A signal that comes
while a target is being dialed finds the forwarder in search of a connection, and may yet leave it
the time to find one and to deliver.
-/

namespace ClusterRelay

def Phase.held (phase : Phase) : Nat := phase.stance.hand.toList.length

/-- A connection is being sought for the parcel in hand. -/
def Phase.resolving : Phase → Bool
  | .seeking _ _ => true
  | _ => false

/-- How many parcels went where they leave no other trace. -/
structure Tally where
  evicted : Nat := 0
  sent : Nat := 0
  faults : Nat := 0
  /-- Abandoned by a forwarder that was told to stop. -/
  lost : Nat := 0

namespace Forwarder

/-- The published numbers are the true ones, and these account for every parcel. -/
structure Books (w : Forwarder) (t : Tally) : Prop where
  offered : w.backlog.offered = UInt64.ofNat w.admitted
  evicted : w.backlog.evicted = UInt64.ofNat t.evicted
  counters : w.counters.books = (UInt64.ofNat t.sent, UInt64.ofNat t.faults,
    UInt64.ofNat w.retries.size, w.phase.stance.hand.isSome)
  balance : w.admitted = t.evicted + w.backlog.toList.length + w.retries.size + w.phase.held +
    t.sent + t.faults + t.lost
  lone : w.retries.size + w.phase.held ≤ 1
  waiting : w.phase.stance = .waiting → w.retries.size = 0
  idle : w.phase = .idle → w.retries.size = 0
  whole : w.phase.stance ≠ .ended → t.lost = 0

/-- What a step means for a forwarder that works, and how many parcels are abandoned by it. -/
inductive Toll (w w' : Forwarder) : Nat → Prop where
  | kept (hsame : w'.phase.stance = .ended ↔ w.phase.stance = .ended) : Toll w w' 0
  | finished (hwas : w.phase.stance ≠ .ended) (hstop : w.stopping = true)
      (hend : w' = w.finish.1) : Toll w w' w.phase.resolving.toNat
  | broken {p : Parcel} {crash : Crash} (hhand : w.phase.stance.hand = some p)
      (hend : w'.phase = .ended (.crashed crash))
      (hfaults : w'.counters.faults = w.counters.faults + 1)
      (hlast : w'.counters.lastFault = some "panic: forwarder loop unwound") : Toll w w' 0

theorem held_of_stance {phase : Phase} {stance : Stance} (h : phase.stance = stance) :
    phase.held = stance.hand.toList.length := by rw [Phase.held, h]

theorem held_of_hand {phase : Phase} {p : Parcel} (h : phase.stance.hand = some p) :
    phase.held = 1 := by
  rw [Phase.held, h]
  rfl

theorem works_of_hand {phase : Phase} {p : Parcel} (h : phase.stance.hand = some p) :
    phase.stance ≠ .ended := by
  intro hended
  rw [hended] at h
  cases h

theorem size_of_pop? {retries rest : RetryStack Parcel} {p : Parcel}
    (h : retries.pop? = some (p, rest)) : retries.size = rest.size + 1 :=
  congrArg List.length (RetryStack.toList_of_pop? h)

theorem size_of_pop?_none {retries : RetryStack Parcel} (h : retries.pop? = none) :
    retries.size = 0 :=
  congrArg List.length (RetryStack.pop?_eq_none_iff.mp h)

variable {w w' : Forwarder} {t : Tally} {p : Parcel}

theorem Toll.working (hworks : w.phase.stance ≠ .ended) (hworks' : w'.phase.stance ≠ .ended) :
    Toll w w' 0 :=
  .kept ⟨fun hnow => absurd hnow hworks', fun hwas => absurd hwas hworks⟩

/-- A forwarder that ends with a crash had a parcel in hand, and counts it as a fault. -/
theorem Toll.of_crashed {lost : Nat} {crash : Crash} (h : Toll w w' lost)
    (hworks : w.phase.stance ≠ .ended) (hcrash : w'.phase = .ended (.crashed crash)) :
    lost = 0 ∧ w.phase.stance.hand.isSome = true ∧
      w'.counters.faults = w.counters.faults + 1 ∧
      w'.counters.lastFault = some "panic: forwarder loop unwound" := by
  cases h with
  | kept hsame => exact absurd (hsame.mp (stance_of_phase hcrash)) hworks
  | finished _ _ hend =>
      rw [hend] at hcrash
      unfold finish at hcrash
      simp only at hcrash
      split at hcrash <;> cases hcrash
  | broken hhand _ hfaults hlast => exact ⟨rfl, by rw [hhand]; rfl, hfaults, hlast⟩

/-- A forwarder that ends without a crash has heeded the signal to stop. -/
theorem Toll.of_returned {lost : Nat} (h : Toll w w' lost) (hworks : w.phase.stance ≠ .ended)
    (hended : w'.phase.stance = .ended) (hreturned : ∀ crash, w'.phase ≠ .ended (.crashed crash)) :
    w.stopping = true ∧ lost = w.phase.resolving.toNat := by
  cases h with
  | kept hsame => exact absurd (hsame.mp hended) hworks
  | finished _ hstop _ => exact ⟨hstop, rfl⟩
  | broken _ hend _ _ => exact absurd hend (hreturned _)

theorem Books.aside (h : Books w t) (haside : Aside w w')
    (hstance : w'.phase.stance = w.phase.stance) (hidle : w'.phase = .idle → w.phase = .idle) :
    Books w' t := by
  have hheld : w'.phase.held = w.phase.held := by rw [Phase.held, Phase.held, hstance]
  refine ⟨?_, ?_, ?_, ?_, ?_, ?_, ?_, ?_⟩
  · rw [haside.backlog, haside.admitted]
    exact h.offered
  · rw [haside.backlog]
    exact h.evicted
  · rw [haside.books, haside.retries, hstance]
    exact h.counters
  · rw [haside.admitted, haside.backlog, haside.retries, hheld]
    exact h.balance
  · rw [haside.retries, hheld]
    exact h.lone
  · rw [hstance, haside.retries]
    exact h.waiting
  · rw [haside.retries]
    exact fun hphase => h.idle (hidle hphase)
  · rw [hstance]
    exact h.whole

theorem Books.offer (h : Books w t) (m : Mutation) :
    ∃ evicted, Books (w.offer m).1 { t with evicted } := by
  obtain ⟨hcount, hoffer⟩ := Backlog.offer_cases w.backlog (⟨w.admitted, m⟩ : Parcel)
  have hoffered : (w.offer m).1.backlog.offered = UInt64.ofNat (w.admitted + 1) := by
    rw [UInt64.ofNat_add, ← h.offered]
    exact hcount
  have hbalance := h.balance
  rcases hoffer with ⟨-, hevicted, hline⟩ | ⟨oldest, rest, hold, -, hevicted, hline⟩
  · refine ⟨t.evicted, hoffered, ?_, h.counters, ?_, h.lone, h.waiting, h.idle, h.whole⟩
    · exact hevicted.trans h.evicted
    · have hback : (w.offer m).1.backlog.toList = w.backlog.toList ++ [⟨w.admitted, m⟩] := hline
      rw [hback, List.length_append, List.length_singleton]
      show w.admitted + 1 = t.evicted + (w.backlog.toList.length + 1) + w.retries.size +
        w.phase.held + t.sent + t.faults + t.lost
      omega
  · refine ⟨t.evicted + 1, hoffered, ?_, h.counters, ?_, h.lone, h.waiting, h.idle, h.whole⟩
    · rw [UInt64.ofNat_add, ← h.evicted]
      exact hevicted
    · have hback : (w.offer m).1.backlog.toList = rest ++ [⟨w.admitted, m⟩] := hline
      rw [hold, List.length_cons] at hbalance
      rw [hback, List.length_append, List.length_singleton]
      show w.admitted + 1 = t.evicted + 1 + (rest.length + 1) + w.retries.size + w.phase.held +
        t.sent + t.faults + t.lost
      omega

theorem Books.published (h : Books w t) : w.counters.sent = UInt64.ofNat t.sent ∧
    w.counters.faults = UInt64.ofNat t.faults ∧
    w.counters.retryDepth = UInt64.ofNat w.retries.size ∧
    w.counters.inFlight = w.phase.stance.hand.isSome := by
  have hcounters := h.counters
  unfold Counters.books at hcounters
  simpa only [Prod.mk.injEq] using hcounters

/-- A parcel changes its place, and nothing is counted. -/
theorem Books.shifted (h : Books w t) (hworks : w.phase.stance ≠ .ended)
    (hadmitted : w'.admitted = w.admitted)
    (hoffered : w'.backlog.offered = w.backlog.offered)
    (hevicted : w'.backlog.evicted = w.backlog.evicted)
    (hcounters : w'.counters.books = (w.counters.sent, w.counters.faults,
      UInt64.ofNat w'.retries.size, w'.phase.stance.hand.isSome))
    (hsame : w'.backlog.toList.length + w'.retries.size + w'.phase.held =
      w.backlog.toList.length + w.retries.size + w.phase.held)
    (hlone : w'.retries.size + w'.phase.held ≤ 1)
    (hwaiting : w'.phase.stance = .waiting → w'.retries.size = 0) (hidle : w'.phase ≠ .idle) :
    Books w' t := by
  obtain ⟨hsent, hfaults, -, -⟩ := h.published
  have hbalance := h.balance
  refine ⟨?_, ?_, ?_, ?_, hlone, hwaiting, fun hnow => absurd hnow hidle, fun _ => h.whole hworks⟩
  · rw [hoffered, hadmitted]
    exact h.offered
  · rw [hevicted]
    exact h.evicted
  · rw [hcounters, hsent, hfaults]
  · rw [hadmitted]
    omega

/-- A parcel that was in hand leaves it and is counted, as sent or as a fault. -/
theorem Books.putDown {t' : Tally} (h : Books w t) (hhand : w.phase.stance.hand = some p)
    (hbacklog : w'.backlog = w.backlog) (hretries : w'.retries = w.retries)
    (hadmitted : w'.admitted = w.admitted) (hempty : w'.phase.stance.hand = none)
    (hwait : w'.phase.stance ≠ .waiting) (hidle : w'.phase ≠ .idle)
    (hcounters : w'.counters.books = (UInt64.ofNat t'.sent, UInt64.ofNat t'.faults,
      UInt64.ofNat w.retries.size, false))
    (hevicted : t'.evicted = t.evicted) (hlost : t'.lost = t.lost)
    (hone : t'.sent + t'.faults = t.sent + t.faults + 1) : Books w' t' := by
  have hbalance := h.balance
  have hlone := h.lone
  have hheld := held_of_hand hhand
  have hnone : w'.phase.held = 0 := by rw [Phase.held, hempty]; rfl
  refine ⟨?_, ?_, ?_, ?_, ?_, fun hwaits => absurd hwaits hwait,
    fun hnow => absurd hnow hidle, ?_⟩
  · rw [hbacklog, hadmitted]
    exact h.offered
  · rw [hbacklog, hevicted]
    exact h.evicted
  · rw [hretries, hempty]
    exact hcounters
  · rw [hadmitted, hbacklog, hretries, hnone]
    omega
  · rw [hretries, hnone]
    omega
  · intro _
    rw [hlost]
    exact h.whole (works_of_hand hhand)

theorem Books.dropped (h : Books w t) (hhand : w.phase.stance.hand = some p) (fault : Fault) :
    ∃ t' lost, Books (w.dropped p fault).1 t' ∧ Toll w (w.dropped p fault).1 lost ∧
      t'.lost = t.lost + lost := by
  obtain ⟨hsent, hfaults, hdepth, -⟩ := h.published
  refine ⟨{ t with faults := t.faults + 1 }, 0, ?_, .working (works_of_hand hhand) nofun, rfl⟩
  refine h.putDown hhand rfl rfl rfl rfl nofun nofun ?_ rfl rfl rfl
  show (w.counters.sent, w.counters.faults + 1, w.counters.retryDepth, false) = _
  rw [hsent, hfaults, hdepth, UInt64.ofNat_add]
  rfl

/-- A crash got through to the forwarder, which counts the parcel that was in hand as a fault. -/
theorem Books.brokenDown (h : Books w t) (crash : Crash) (haside : Aside w w')
    (hhand : w.phase.stance.hand = some p) :
    ∃ t' lost, Books (w'.breakDown crash).1 t' ∧ Toll w (w'.breakDown crash).1 lost ∧
      t'.lost = t.lost + lost := by
  have hcounters := haside.books.trans h.counters
  unfold Counters.books at hcounters
  simp only [Prod.mk.injEq] at hcounters
  obtain ⟨hsent, hfaults, hdepth, -⟩ := hcounters
  have hcounted : w'.counters.faults + 1 = w.counters.faults + 1 := by
    rw [hfaults, h.published.2.1]
  refine ⟨{ t with faults := t.faults + 1 }, 0, ?_, .broken hhand rfl hcounted rfl, rfl⟩
  refine h.putDown hhand haside.backlog haside.retries haside.admitted rfl nofun nofun ?_ rfl rfl
    rfl
  show (w'.counters.sent, w'.counters.faults + 1, w'.counters.retryDepth, false) = _
  rw [hsent, hfaults, hdepth, UInt64.ofNat_add]
  rfl

theorem Books.finish (h : Books w t) (hworks : w.phase.stance ≠ .ended) :
    Books w.finish.1 { t with lost := w.phase.held } := by
  have hbalance := h.balance
  have hlone := h.lone
  have hwhole := h.whole hworks
  have hnone : w.finish.1.phase.held = 0 := held_of_stance (stance_finish w)
  refine ⟨h.offered, h.evicted, ?_, ?_, ?_, ?_, ?_, ?_⟩
  · rw [stance_finish]
    show (w.counters.sent, w.counters.faults, w.counters.retryDepth, false) = _
    obtain ⟨hsent, hfaults, hdepth, -⟩ := h.published
    rw [hsent, hfaults, hdepth]
    rfl
  · rw [hnone]
    show w.admitted = t.evicted + w.backlog.toList.length + w.retries.size + 0 + t.sent +
      t.faults + w.phase.held
    omega
  · rw [hnone]
    show w.retries.size + 0 ≤ 1
    omega
  · rw [stance_finish]
    exact nofun
  · intro hidle
    have hended := stance_finish w
    rw [hidle] at hended
    cases hended
  · rw [stance_finish]
    exact fun hended => absurd rfl hended

/-- Every step keeps the books, and says what it costs. -/
theorem Books.step (h : Books w t) (e : Event) :
    ∃ t' lost, Books (w.step e).1 t' ∧ Toll w (w.step e).1 lost ∧ t'.lost = t.lost + lost := by
  have hmove := move_step w e
  generalize w.step e = r at hmove
  generalize e.offer? = m? at hmove
  obtain ⟨hsent, hfaults, hdepth, hflight⟩ := h.published
  have hlone := h.lone
  cases hmove with
  | aside haside hstance _ hidle =>
      exact ⟨t, 0, h.aside haside hstance hidle, .kept (by rw [hstance]), rfl⟩
  | offered m =>
      obtain ⟨evicted, hbooks⟩ := h.offer m
      exact ⟨{ t with evicted }, 0, hbooks, .kept Iff.rfl, rfl⟩
  | rested hphase hretries =>
      have hsize := size_of_pop?_none hretries
      have hstance : w.phase.stance = .choosing := stance_of_phase hphase
      have hheld : w.phase.held = 0 := held_of_stance hstance
      have hworks : w.phase.stance ≠ .ended := by rw [hstance]; nofun
      refine ⟨t, 0, h.shifted hworks rfl rfl rfl ?_ ?_ ?_ (fun _ => hsize) nofun,
        .working hworks nofun, rfl⟩
      · show (w.counters.sent, w.counters.faults, w.counters.retryDepth, w.counters.inFlight) = _
        rw [hdepth, hflight, hstance]
        rfl
      · show w.backlog.toList.length + w.retries.size + 0 = _
        rw [hheld]
      · show w.retries.size + 0 ≤ 1
        omega
  | @resumed p rest hphase hretries =>
      have hsize := size_of_pop? hretries
      have hstance : w.phase.stance = .choosing := stance_of_phase hphase
      have hheld : w.phase.held = 0 := held_of_stance hstance
      have hworks : w.phase.stance ≠ .ended := by rw [hstance]; nofun
      refine ⟨t, 0, h.shifted hworks rfl rfl rfl rfl ?_ ?_ nofun nofun, .working hworks nofun, rfl⟩
      · show w.backlog.toList.length + rest.size + 1 = _
        omega
      · show rest.size + 1 ≤ 1
        omega
  | @taken p rest hphase hbacklog =>
      obtain ⟨hline, hoffered, hevicted⟩ := Backlog.of_take? hbacklog
      have hstance : w.phase.stance = .waiting := stance_of_phase hphase
      have hsize := h.waiting hstance
      have hheld : w.phase.held = 0 := held_of_stance hstance
      have hworks : w.phase.stance ≠ .ended := by rw [hstance]; nofun
      refine ⟨t, 0, h.shifted hworks rfl hoffered hevicted ?_ ?_ ?_ nofun nofun,
        .working hworks nofun, rfl⟩
      · show (w.counters.sent, w.counters.faults, w.counters.retryDepth, true) = _
        rw [hdepth]
        rfl
      · show rest.toList.length + w.retries.size + 1 = _
        rw [hline, List.length_cons]
        omega
      · show w.retries.size + 1 ≤ 1
        omega
  | @submitted p conn frame hphase _ =>
      have hstance : w.phase.stance = .holding p := stance_of_phase hphase
      have hheld : w.phase.held = 1 := held_of_stance hstance
      have hworks : w.phase.stance ≠ .ended := by rw [hstance]; nofun
      refine ⟨t, 0, h.shifted hworks rfl rfl rfl ?_ ?_ ?_ nofun nofun, .working hworks nofun, rfl⟩
      · show (w.counters.sent, w.counters.faults, w.counters.retryDepth, w.counters.inFlight) = _
        rw [hdepth, hflight, hstance]
        rfl
      · show w.backlog.toList.length + w.retries.size + 1 = _
        rw [hheld]
      · show w.retries.size + 1 ≤ 1
        omega
  | @returned p conn answer hphase _ =>
      have hstance : w.phase.stance = .awaiting p conn := stance_of_phase hphase
      have hheld : w.phase.held = 1 := held_of_stance hstance
      have hworks : w.phase.stance ≠ .ended := by rw [hstance]; nofun
      refine ⟨t, 0, h.shifted hworks rfl rfl rfl rfl ?_ ?_ nofun nofun, .working hworks nofun, rfl⟩
      · show w.backlog.toList.length + (w.retries.size + 1) + 0 = _
        omega
      · show w.retries.size + 1 + 0 ≤ 1
        omega
  | unwritten hphase =>
      exact h.dropped (congrArg Stance.hand (stance_of_phase hphase)) _
  | unaccepted hphase _ _ =>
      exact h.dropped (congrArg Stance.hand (stance_of_phase hphase)) _
  | unconfirmed hphase _ =>
      exact h.dropped (congrArg Stance.hand (stance_of_phase hphase)) _
  | @delivered p conn answer hphase _ =>
      have hhand : w.phase.stance.hand = some p := congrArg Stance.hand (stance_of_phase hphase)
      refine ⟨{ t with sent := t.sent + 1 }, 0, ?_, .working (works_of_hand hhand) nofun, rfl⟩
      refine h.putDown hhand rfl rfl rfl rfl nofun nofun ?_ rfl rfl ?_
      · show (w.counters.sent + 1, w.counters.faults, w.counters.retryDepth, false) = _
        rw [hsent, hfaults, hdepth, UInt64.ofNat_add]
        rfl
      · show t.sent + 1 + t.faults = t.sent + t.faults + 1
        omega
  | finished hplace hstop =>
      have hworks : w.phase.stance ≠ .ended := by
        rcases hplace with hphase | hphase | ⟨p, s, hphase⟩
        all_goals rw [hphase]; nofun
      have hheld : w.phase.held = w.phase.resolving.toNat := by
        rcases hplace with hphase | hphase | ⟨p, s, hphase⟩
        all_goals rw [hphase]; rfl
      refine ⟨{ t with lost := w.phase.held }, _, h.finish hworks, .finished hworks hstop rfl, ?_⟩
      show w.phase.held = t.lost + w.phase.resolving.toNat
      rw [h.whole hworks, hheld, Nat.zero_add]
  | broken hhand haside _ => exact h.brokenDown _ haside hhand
  | overcome hphase _ _ =>
      exact h.brokenDown _ (.refl w) (congrArg Stance.hand (stance_of_phase hphase))

/-! ## Runs -/

theorem books_start (f : Failover) (capacity : Nat) :
    Books (ofParts f (Backlog.ofCapacity capacity)) {} :=
  ⟨rfl, rfl, rfl, rfl, Nat.zero_le 1, nofun, fun _ => rfl, fun _ => rfl⟩

theorem Books.run (h : Books w t) (es : List Event) : ∃ t', Books (w.run es).1 t' := by
  induction es generalizing w t with
  | nil => exact ⟨t, h⟩
  | cons e es ih =>
      obtain ⟨t', _, hstep, -, -⟩ := h.step e
      exact ih hstep

theorem Books.ended_run (h : Books w t) (hended : w.phase.stance = .ended) (es : List Event) :
    ∃ t', Books (w.run es).1 t' ∧ t'.lost = t.lost := by
  induction es generalizing w t with
  | nil => exact ⟨t, h, rfl⟩
  | cons e es ih =>
      obtain ⟨t', lost, hstep, htoll, hlost⟩ := h.step e
      cases htoll with
      | kept hsame =>
          obtain ⟨t'', hrun, hrest⟩ := ih hstep (hsame.mpr hended)
          exact ⟨t'', hrun, hrest.trans hlost⟩
      | finished hwas _ _ => exact absurd hended hwas
      | broken hhand _ _ _ =>
          rw [hended] at hhand
          cases hhand

theorem Books.ended (h : Books w t) (hworks : w.phase.stance ≠ .ended) (e : Event)
    (hend : (w.step e).1.phase.stance = .ended) (later : List Event) :
    ∃ t', Books ((w.step e).1.run later).1 t' ∧ Toll w (w.step e).1 t'.lost := by
  obtain ⟨t', lost, hstep, htoll, hlost⟩ := h.step e
  obtain ⟨t'', hrun, hrest⟩ := hstep.ended_run hend later
  refine ⟨t'', hrun, ?_⟩
  rw [hrest, hlost, h.whole hworks, Nat.zero_add]
  exact htoll

/-! ## What a stop costs

A forwarder looks for the signal at the places where it is suspended, and, if the signal itself is
there, where it chooses. So one that is suspended when the signal comes ends with its next step of
work, or at the latest two steps later if it has yet to be started, and one that is busy with an
attempt ends after this attempt, if not in the middle of it because of a crash. -/

/-- A forwarder that ends as soon as it heeds the signal, and the number of parcels that it will
abandon then. -/
inductive Doomed (w : Forwarder) : Nat → Prop where
  | searching {p : Parcel} {s : Seek} (hphase : w.phase = .seeking p s)
      (hheeds : heedsSignal s = true) : Doomed w 1
  | resting (hphase : w.phase = .idle ∨ w.phase = .choosing ∨ w.phase = .waiting)
      (hretries : w.retries.toList = []) : Doomed w 0
  | attempting (hphase : w.phase = .choosing ∨ (∃ p conn, w.phase = .submitting p conn) ∨
      ∃ p conn, w.phase = .confirming p conn) (hgiven : w.signal = .given) : Doomed w 0

variable {k : Nat}

theorem Doomed.works (h : Doomed w k) : w.phase.stance ≠ .ended := by
  cases h with
  | searching hphase _ => rw [hphase]; nofun
  | resting hphase _ =>
      rcases hphase with hphase | hphase | hphase
      all_goals rw [hphase]; nofun
  | attempting hphase _ =>
      rcases hphase with hphase | ⟨p, conn, hphase⟩ | ⟨p, conn, hphase⟩
      all_goals rw [hphase]; nofun

theorem Doomed.same (h : Doomed w k) (hphase : w'.phase = w.phase)
    (hretries : w'.retries = w.retries) (hsignal : w.signal = .given → w'.signal = .given) :
    Doomed w' k := by
  cases h with
  | searching hseek hheeds => exact .searching (hphase.trans hseek) hheeds
  | resting hrest hnil =>
      rw [← hphase] at hrest
      rw [← hretries] at hnil
      exact .resting hrest hnil
  | attempting hbusy hgiven =>
      rw [← hphase] at hbusy
      exact .attempting hbusy (hsignal hgiven)

/-- The forwarder ended because a crash got through to it. -/
def Phase.Crashed (phase : Phase) : Prop := ∃ crash, phase = .ended (.crashed crash)

theorem phase_caught {handled : Forwarder × List Note} (h : handled.1.phase = .choosing)
    (a : Answers) :
    (w.caught a handled).1.phase = .choosing ∨ Phase.Crashed (w.caught a handled).1.phase := by
  rcases w.caught_cases a handled with hcaught | ⟨crash, hcaught⟩
  · rw [hcaught]
    exact Or.inl h
  · rw [hcaught]
    exact Or.inr ⟨crash, rfl⟩

/-- However an attempt goes on, it is followed up or it is over. -/
theorem phase_submit (w : Forwarder) (p : Parcel) (conn : ConnId) (a : Answers) :
    (w.submit p conn a).1.phase = .confirming p conn ∨ (w.submit p conn a).1.phase = .choosing ∨
      Phase.Crashed (w.submit p conn a).1.phase := by
  unfold submit
  split
  · exact Or.inr (Or.inl rfl)
  · simp only
    split
    · exact Or.inl rfl
    · exact Or.inr (Or.inl rfl)
    · exact Or.inr (phase_caught rfl a)

theorem phase_confirm (w : Forwarder) (p : Parcel) (conn : ConnId) (a : Answers) :
    (w.confirm p conn a).1.phase = .choosing ∨ Phase.Crashed (w.confirm p conn a).1.phase := by
  unfold confirm
  simp only
  split
  · exact Or.inl rfl
  · exact Or.inl rfl
  · exact phase_caught rfl a

theorem signal_caught (w : Forwarder) (a : Answers) (handled : Forwarder × List Note)
    (h : handled.1.signal = w.signal) : (w.caught a handled).1.signal = w.signal := by
  rcases w.caught_cases a handled with hcaught | ⟨crash, hcaught⟩
  · rw [hcaught]
    exact h
  · rw [hcaught]
    rfl

theorem signal_work (w : Forwarder) (a : Answers) : (w.work a).1.signal = w.signal := by
  unfold work
  split
  · rfl
  · unfold choose
    split
    · rfl
    · split <;> rfl
  · unfold await
    split
    · rfl
    · split <;> rfl
  · unfold seek
    split
    · rfl
    · simp only
      split <;> rfl
  · unfold submit
    split
    · rfl
    · simp only
      split
      · rfl
      · rfl
      · exact signal_caught w a _ rfl
  · unfold confirm
    simp only
    split
    · rfl
    · rfl
    · exact signal_caught w a _ rfl
  · rfl
  · rfl

theorem Doomed.work (hstop : w.stopping = true) (h : Doomed w k) (a : Answers) :
    (w.work a = w.finish ∧ w.phase.held = k) ∨ (Phase.Crashed (w.work a).1.phase ∧ k = 0) ∨
      (Doomed (w.work a).1 k ∧ (w.work a).1.stopping = true) := by
  have hstop' : (w.work a).1.stopping = true := by
    rw [stopping, signal_work]
    exact hstop
  cases h with
  | @searching p s hphase hheeds =>
      refine Or.inl ⟨?_, held_of_stance (stance_of_phase hphase)⟩
      simp only [Forwarder.work, hphase, seek, hheeds, hstop, Bool.and_self, if_true]
  | resting hphase hretries =>
      rcases hphase with hphase | hphase | hphase
      · refine Or.inr (Or.inr ⟨?_, hstop'⟩)
        simp only [Forwarder.work, hphase]
        exact .resting (Or.inl hphase) hretries
      · by_cases hgiven : w.signal = .given
        · refine Or.inl ⟨?_, held_of_stance (stance_of_phase hphase)⟩
          simp only [Forwarder.work, hphase, choose, hgiven, if_true]
        · refine Or.inr (Or.inr ⟨?_, hstop'⟩)
          simp only [Forwarder.work, hphase, choose, hgiven, if_false,
            RetryStack.pop?_eq_none_iff.mpr hretries]
          exact .resting (Or.inr (Or.inr rfl)) hretries
      · refine Or.inl ⟨?_, held_of_stance (stance_of_phase hphase)⟩
        simp only [Forwarder.work, hphase, await, hstop, if_true]
  | attempting hphase hgiven =>
      have hgiven' : (w.work a).1.signal = .given := (signal_work w a).trans hgiven
      rcases hphase with hphase | ⟨p, conn, hphase⟩ | ⟨p, conn, hphase⟩
      · refine Or.inl ⟨?_, held_of_stance (stance_of_phase hphase)⟩
        simp only [Forwarder.work, hphase, choose, hgiven, if_true]
      · have hwork : w.work a = w.submit p conn a := by simp only [Forwarder.work, hphase]
        have hnext := phase_submit w p conn a
        rw [← hwork] at hnext
        rcases hnext with hnext | hnext | hcrashed
        · exact Or.inr (Or.inr ⟨.attempting (Or.inr (Or.inr ⟨p, conn, hnext⟩)) hgiven', hstop'⟩)
        · exact Or.inr (Or.inr ⟨.attempting (Or.inl hnext) hgiven', hstop'⟩)
        · exact Or.inr (Or.inl ⟨hcrashed, rfl⟩)
      · have hwork : w.work a = w.confirm p conn a := by simp only [Forwarder.work, hphase]
        have hnext := phase_confirm w p conn a
        rw [← hwork] at hnext
        rcases hnext with hnext | hcrashed
        · exact Or.inr (Or.inr ⟨.attempting (Or.inl hnext) hgiven', hstop'⟩)
        · exact Or.inr (Or.inl ⟨hcrashed, rfl⟩)

/-- It ends with a step of work; until then nothing changes its fate. -/
theorem Doomed.step (hstop : w.stopping = true) (h : Doomed w k) (e : Event) :
    (w.step e = w.finish ∧ w.phase.held = k) ∨ (Phase.Crashed (w.step e).1.phase ∧ k = 0) ∨
      (Doomed (w.step e).1 k ∧ (w.step e).1.stopping = true) := by
  cases e with
  | start =>
      refine Or.inr (Or.inr ?_)
      simp only [Forwarder.step, begin]
      split
      · next hidle =>
          cases h with
          | searching hphase _ =>
              rw [hphase] at hidle
              cases hidle
          | resting _ hretries => exact ⟨.resting (Or.inr (Or.inl rfl)) hretries, hstop⟩
          | attempting _ hgiven => exact ⟨.attempting (Or.inl rfl) hgiven, hstop⟩
      · exact ⟨h, hstop⟩
  | offer m => exact Or.inr (Or.inr ⟨h.same rfl rfl id, hstop⟩)
  | stop =>
      refine Or.inr (Or.inr ?_)
      simp only [Forwarder.step, signalStop]
      split
      · exact ⟨h.same rfl rfl fun _ => rfl, rfl⟩
      · exact ⟨h, hstop⟩
  | orphan =>
      refine Or.inr (Or.inr ?_)
      simp only [Forwarder.step, Forwarder.orphan]
      split
      · next hawaited => simp [stopping, hawaited] at hstop
      · exact ⟨h, hstop⟩
  | elapse moment => exact Or.inr (Or.inr ⟨h.same rfl rfl id, hstop⟩)
  | work a => exact h.work hstop a

/-- When the signal comes, nothing else changes. -/
theorem same_signalled {e : Event} (hbefore : w.signal = .awaited)
    (hafter : (w.step e).1.signal ≠ .awaited) :
    (w.step e).1.phase = w.phase ∧ (w.step e).1.retries = w.retries := by
  cases e with
  | start =>
      simp only [Forwarder.step, begin] at hafter
      split at hafter <;> exact absurd hbefore hafter
  | offer m => exact absurd hbefore hafter
  | stop =>
      simp only [Forwarder.step, signalStop, hbefore, and_self]
  | orphan =>
      simp only [Forwarder.step, Forwarder.orphan, hbefore, and_self]
  | elapse moment => exact absurd hbefore hafter
  | work a => exact absurd ((signal_work w a).trans hbefore) hafter

theorem Doomed.run (hstop : w.stopping = true) (h : Doomed w k) (hbooks : Books w t)
    (es : List Event) (hend : (w.run es).1.phase.stance = .ended) :
    ∃ t', Books (w.run es).1 t' ∧ t'.lost = k := by
  induction es generalizing w t with
  | nil => exact absurd hend h.works
  | cons e es ih =>
      obtain ⟨t', lost, hstep, htoll, hlost⟩ := hbooks.step e
      rcases h.step hstop e with ⟨hfinish, hheld⟩ | ⟨⟨crash, hcrash⟩, rfl⟩ | ⟨hdoomed, hstop'⟩
      · have hended : (w.step e).1.phase.stance = .ended := by rw [hfinish, stance_finish]
        have hfinished : Books (w.step e).1 { t with lost := k } := by
          rw [hfinish, ← hheld]
          exact hbooks.finish h.works
        exact hfinished.ended_run hended es
      · obtain ⟨hnone, -⟩ := htoll.of_crashed h.works hcrash
        obtain ⟨t'', hrun, hsame⟩ := hstep.ended_run (stance_of_phase hcrash) es
        refine ⟨t'', hrun, ?_⟩
        rw [hsame, hlost, hnone, hbooks.whole h.works]
      · exact ih hstop' hdoomed hstep hend

/-- A suspended forwarder heeds the signal as soon as it goes on. -/
theorem Books.doomed (h : Books w t) (hplace : w.phase = .idle ∨ w.suspended = true) :
    Doomed w w.phase.resolving.toNat := by
  rcases hplace with hphase | hsuspended
  · rw [hphase]
    exact .resting (Or.inl hphase) (List.length_eq_zero_iff.mp (h.idle hphase))
  · unfold suspended at hsuspended
    split at hsuspended
    · next hphase =>
        rw [hphase]
        refine .resting (Or.inr (Or.inr hphase)) (List.length_eq_zero_iff.mp (h.waiting ?_))
        rw [hphase]
        rfl
    · next p s hphase =>
        rw [hphase]
        refine .searching hphase ?_
        cases s <;> first | rfl | cases hsuspended
    · cases hsuspended

/-- The signal dooms a forwarder that is suspended, and, if it is the signal itself, one that seeks
no connection. -/
theorem Books.signalled (h : Books w t) {e : Event} (hbefore : w.signal = .awaited)
    (hafter : (w.step e).1.signal ≠ .awaited)
    (hplace : w.phase = .idle ∨ w.suspended = true ∨ ((w.step e).1.signal = .given ∧
      w.phase.stance ≠ .ended ∧ w.phase.resolving = false)) :
    Doomed (w.step e).1 w.phase.resolving.toNat := by
  obtain ⟨hphase, hretries⟩ := same_signalled hbefore hafter
  have hkept : w.phase = .idle ∨ w.suspended = true →
      Doomed (w.step e).1 w.phase.resolving.toNat := fun hrests =>
    (h.doomed hrests).same hphase hretries fun hgiven => absurd (hbefore.symm.trans hgiven) nofun
  rcases hplace with hidle | hsuspended | ⟨hgiven, hworks, hseeks⟩
  · exact hkept (Or.inl hidle)
  · exact hkept (Or.inr hsuspended)
  · cases hcase : w.phase with
    | idle => exact hcase ▸ hkept (Or.inl hcase)
    | waiting => exact hcase ▸ hkept (Or.inr (by rw [suspended, hcase]))
    | choosing => exact .attempting (Or.inl (hphase.trans hcase)) hgiven
    | submitting p conn =>
        exact .attempting (Or.inr (Or.inl ⟨p, conn, hphase.trans hcase⟩)) hgiven
    | confirming p conn =>
        exact .attempting (Or.inr (Or.inr ⟨p, conn, hphase.trans hcase⟩)) hgiven
    | seeking p s =>
        rw [hcase] at hseeks
        cases hseeks
    | closing conn => exact absurd (stance_of_phase hcase) hworks
    | ended how => exact absurd (stance_of_phase hcase) hworks

theorem works_of_suspended (hplace : w.phase = .idle ∨ w.suspended = true) :
    w.phase.stance ≠ .ended := by
  rcases hplace with hphase | hsuspended
  · rw [hphase]
    nofun
  · unfold suspended at hsuspended
    split at hsuspended
    · next hphase => rw [hphase]; nofun
    · next hphase => rw [hphase]; nofun
    · cases hsuspended

end Forwarder

/-! ## Links -/

/-- The mutations that a status accounts for. -/
def LinkStatus.accounted (s : LinkStatus) : Nat :=
  s.evicted.toNat + s.queueDepth.toNat + s.counters.retryDepth.toNat +
    s.counters.inFlight.toNat + s.counters.sent.toNat + s.counters.faults.toNat

namespace Link

theorem step_forwarder (l : Link) (e : LinkEvent) : (l.step e).1.forwarder = l.forwarder ∨
    ∃ e', (l.step e).1.forwarder = (l.forwarder.step e').1 := by
  cases e with
  | offer m =>
      simp only [step, offer]
      split
      · exact Or.inl rfl
      · exact Or.inr ⟨.offer m, rfl⟩
  | stop =>
      simp only [step, stop]
      split
      · exact Or.inl rfl
      · exact Or.inr ⟨.stop, rfl⟩
  | forwarder e => exact Or.inr ⟨e, rfl⟩

theorem run_forwarder (l : Link) (es : List LinkEvent) :
    ∃ es', (l.run es).1.forwarder = (l.forwarder.run es').1 := by
  induction es generalizing l with
  | nil => exact ⟨[], rfl⟩
  | cons e es ih =>
      obtain ⟨es', hrun⟩ := ih (l.step e).1
      rcases l.step_forwarder e with hsame | ⟨e', hstep⟩
      · rw [hsame] at hrun
        exact ⟨es', hrun⟩
      · rw [hstep] at hrun
        exact ⟨e' :: es', hrun⟩

theorem run_append (l : Link) (es later : List LinkEvent) :
    (l.run (es ++ later)).1 = ((l.run es).1.run later).1 := by
  induction es generalizing l with
  | nil => rfl
  | cons e es ih => exact ih (l.step e).1

theorem forwarder_ofSettings {ls : LinkSettings} {port : UInt16} {capacity : Nat} {l : Link}
    (h : ofSettings ls port capacity = .done l) :
    ∃ f, l.forwarder = Forwarder.ofParts f (Backlog.ofCapacity capacity) := by
  unfold ofSettings at h
  by_cases hfits : Backlog.Fits capacity
  · rw [Backlog.allocate_of_fits hfits] at h
    cases hstart : Failover.start ls.name ls.targets port ls.credentials ls.schedule.pacing with
    | error fault => rw [hstart] at h; cases h
    | ok f =>
        rw [hstart] at h
        cases h
        exact ⟨f, rfl⟩
  · rw [Backlog.allocate_of_not_fits hfits] at h
    cases h

/-- What the books say of the published status, if no count has wrapped around. -/
theorem status_of_books {l : Link} {t : Tally} (h : Forwarder.Books l.forwarder t)
    (hfew : l.forwarder.admitted < UInt64.size) :
    l.status.offered.toNat = l.status.accounted + t.lost ∧
      l.status.queueDepth.toNat = l.forwarder.backlog.size ∧
      l.status.counters.retryDepth.toNat = l.forwarder.retries.size ∧
      l.status.counters.inFlight.toNat = l.forwarder.phase.held := by
  obtain ⟨hsent, hfaults, hdepth, hflight⟩ := h.published
  have hbalance := h.balance
  rw [← Backlog.size_eq_length] at hbalance
  have htrue : ∀ n, n ≤ l.forwarder.admitted → (UInt64.ofNat n).toNat = n :=
    fun n hn => UInt64.toNat_ofNat_of_lt' (Nat.lt_of_le_of_lt hn hfew)
  have hqueue : l.status.queueDepth.toNat = l.forwarder.backlog.size := htrue _ (by omega)
  have hretry : l.status.counters.retryDepth.toNat = l.forwarder.retries.size := by
    show l.forwarder.counters.retryDepth.toNat = _
    rw [hdepth, htrue _ (by omega)]
  have hheld : l.status.counters.inFlight.toNat = l.forwarder.phase.held := by
    show l.forwarder.counters.inFlight.toNat = _
    rw [hflight, Phase.held]
    cases l.forwarder.phase.stance.hand <;> rfl
  refine ⟨?_, hqueue, hretry, hheld⟩
  have hoffered : l.status.offered.toNat = l.forwarder.admitted := by
    show l.forwarder.backlog.offered.toNat = _
    rw [h.offered, htrue _ (Nat.le_refl _)]
  have hevicted : l.status.evicted.toNat = t.evicted := by
    show l.forwarder.backlog.evicted.toNat = _
    rw [h.evicted, htrue _ (by omega)]
  have hsent' : l.status.counters.sent.toNat = t.sent := by
    show l.forwarder.counters.sent.toNat = _
    rw [hsent, htrue _ (by omega)]
  have hfaults' : l.status.counters.faults.toNat = t.faults := by
    show l.forwarder.counters.faults.toNat = _
    rw [hfaults, htrue _ (by omega)]
  rw [LinkStatus.accounted, hoffered, hevicted, hqueue, hretry, hheld, hsent', hfaults']
  omega

theorem isIdle_iff {l : Link} {t : Tally} (h : Forwarder.Books l.forwarder t)
    (hfew : l.forwarder.admitted < UInt64.size) (hworks : l.forwarder.phase.stance ≠ .ended) :
    l.isIdle = true ↔ l.status.offered.toNat = l.status.evicted.toNat +
      l.status.counters.sent.toNat + l.status.counters.faults.toNat := by
  obtain ⟨hbalance, hqueue, hretry, hheld⟩ := status_of_books h hfew
  have hdepth : l.forwarder.counters.retryDepth.toNat = l.forwarder.retries.size := hretry
  have hflight : l.forwarder.counters.inFlight.toNat = l.forwarder.phase.held := hheld
  rw [h.whole hworks, LinkStatus.accounted, hqueue, hretry, hheld] at hbalance
  have hnone : l.forwarder.counters.inFlight = false ↔ l.forwarder.phase.held = 0 := by
    rw [← hflight, Bool.toNat_eq_zero]
  have hzero : l.forwarder.counters.retryDepth = 0 ↔ l.forwarder.retries.size = 0 := by
    rw [← hdepth, ← UInt64.toNat_inj]
    rfl
  have hidle : l.isIdle = true ↔ l.forwarder.backlog.size = 0 ∧ l.forwarder.phase.held = 0 ∧
      l.forwarder.retries.size = 0 := by
    rw [isIdle, Bool.and_eq_true, Bool.and_eq_true, Bool.not_eq_true', beq_iff_eq, hnone, hzero,
      and_assoc]
    exact and_congr_left' (beq_iff_eq)
  rw [hidle]
  omega

open Forwarder in
theorem books_ended {l : Link} {t : Tally} (h : Books l.forwarder t)
    (hworks : l.forwarder.phase.stance ≠ .ended) (e : LinkEvent)
    (hend : (l.step e).1.forwarder.phase.stance = .ended) (after : List LinkEvent) :
    ∃ t', Books ((l.step e).1.run after).1.forwarder t' ∧
      Toll l.forwarder (l.step e).1.forwarder t'.lost := by
  obtain ⟨later, hlater⟩ := (l.step e).1.run_forwarder after
  rcases l.step_forwarder e with hsame | ⟨e', hstep⟩
  · rw [hsame] at hend
    exact absurd hend hworks
  · rw [hlater]
    rw [hstep] at hend ⊢
    exact h.ended hworks e' hend later

open Forwarder in
/-- Where the forwarder is when the signal comes decides what it will abandon. -/
theorem books_stopped {l : Link} {t : Tally} (h : Books l.forwarder t) (e : LinkEvent)
    (hbefore : l.forwarder.signal = .awaited)
    (hafter : (l.step e).1.forwarder.signal ≠ .awaited)
    (hplace : l.forwarder.phase = .idle ∨ l.forwarder.suspended = true ∨
      ((l.step e).1.forwarder.signal = .given ∧ l.forwarder.phase.stance ≠ .ended ∧
        l.forwarder.phase.resolving = false)) (after : List LinkEvent)
    (hend : ((l.step e).1.run after).1.forwarder.phase.stance = .ended) :
    ∃ t', Books ((l.step e).1.run after).1.forwarder t' ∧
      t'.lost = l.forwarder.phase.resolving.toNat := by
  obtain ⟨later, hlater⟩ := (l.step e).1.run_forwarder after
  rcases l.step_forwarder e with hsame | ⟨e', hstep⟩
  · rw [hsame] at hafter
    exact absurd hbefore hafter
  · rw [hlater] at hend ⊢
    rw [hstep] at hend hafter hplace ⊢
    obtain ⟨t', _, hbooks, -, -⟩ := h.step e'
    have hstop : (l.forwarder.step e').1.stopping = true := by simpa [stopping] using hafter
    exact (h.signalled hbefore hafter hplace).run hstop hbooks later hend

end Link

/-- Whenever the forwarder of a link is suspended or not yet started, the published numbers account
for every mutation that was offered, at most one of them is in hand or to be retried, and the link
is idle just if all were evicted, sent or dropped. A forwarder that a crash got through to counted
the mutation in hand as a fault. One that ends otherwise has been told to stop, and it has abandoned
one mutation if it was seeking a connection for it where it heeded the signal, and none otherwise.
That is also where it was when the signal came, unless the signal came between two steps of a
search at a place where no search is suspended. -/
theorem books_balance (ls : LinkSettings) (port : UInt16) (capacity : Nat) (l : Link)
    (hl : Link.ofSettings ls port capacity = .done l) (es : List LinkEvent)
    (hfew : (l.run es).1.forwarder.admitted < UInt64.size) :
    let last := (l.run es).1
    let status := last.status
    (last.forwarder.phase = .idle ∨ last.forwarder.suspended = true →
      status.offered.toNat = status.accounted ∧
      status.counters.retryDepth.toNat + status.counters.inFlight.toNat ≤ 1 ∧
      status.counters.retryDepth.toNat = last.forwarder.retries.size ∧
      (last.isIdle = true ↔ status.offered.toNat = status.evicted.toNat +
        status.counters.sent.toNat + status.counters.faults.toNat)) ∧
    ∀ before e after, es = before ++ e :: after →
      let w := (l.run before).1.forwarder
      let w' := (l.run (before ++ [e])).1.forwarder
      (w.phase.stance ≠ .ended → ∀ crash, w'.phase = .ended (.crashed crash) →
        status.offered.toNat = status.accounted ∧
        w.counters.inFlight = true ∧ w'.counters.inFlight = false ∧
        w'.counters.faults = w.counters.faults + 1 ∧
        w'.counters.lastFault = some "panic: forwarder loop unwound") ∧
      (w.phase.stance ≠ .ended → w'.phase.stance = .ended →
        (∀ crash, w'.phase ≠ .ended (.crashed crash)) →
        w.stopping = true ∧
        status.offered.toNat = status.accounted + w.phase.resolving.toNat) ∧
      (w.signal = .awaited → w'.signal ≠ .awaited →
        w.phase = .idle ∨ w.suspended = true ∨
          (w'.signal = .given ∧ w.phase.stance ≠ .ended ∧ w.phase.resolving = false) →
        last.forwarder.phase.stance = .ended →
        status.offered.toNat = status.accounted + w.phase.resolving.toNat) := by
  obtain ⟨f, hf⟩ := Link.forwarder_ofSettings hl
  have hreached : ∀ es', ∃ t, Forwarder.Books (l.run es').1.forwarder t := by
    intro es'
    obtain ⟨own, hown⟩ := l.run_forwarder es'
    rw [hown, hf]
    exact (Forwarder.books_start f capacity).run own
  intro last status
  refine ⟨fun hplace => ?_, ?_⟩
  · obtain ⟨t, hbooks⟩ := hreached es
    have hworks := Forwarder.works_of_suspended hplace
    obtain ⟨hbalance, -, hretry, hheld⟩ := Link.status_of_books hbooks hfew
    rw [hbooks.whole hworks] at hbalance
    refine ⟨hbalance, ?_, hretry, Link.isIdle_iff hbooks hfew hworks⟩
    have hlone := hbooks.lone
    rw [← hretry, ← hheld] at hlone
    exact hlone
  · rintro before e after rfl
    intro w w'
    obtain ⟨t, hbooks⟩ := hreached before
    have hw' : w' = ((l.run before).1.step e).1.forwarder := by
      show (l.run (before ++ [e])).1.forwarder = _
      rw [Link.run_append]
      rfl
    have hlast : last = (((l.run before).1.step e).1.run after).1 :=
      l.run_append before (e :: after)
    -- Whatever the tally at the end has lost is what the published numbers do not account for.
    have hpublished : ∀ {lost}, (∃ t', Forwarder.Books last.forwarder t' ∧ t'.lost = lost) →
        status.offered.toNat = status.accounted + lost := by
      rintro lost ⟨t', hbooks', rfl⟩
      exact (Link.status_of_books hbooks' hfew).1
    rw [hw']
    refine ⟨fun hworks crash hcrash => ?_, fun hworks hend hreturned => ?_,
      fun hbefore hafter hplace hend => ?_⟩
    · have hend : ((l.run before).1.step e).1.forwarder.phase.stance = .ended := by
        rw [hcrash]
        rfl
      obtain ⟨t', hbooks', htoll⟩ := Link.books_ended hbooks hworks e hend after
      obtain ⟨hlost, hhand, hfaults, hdescription⟩ := htoll.of_crashed hworks hcrash
      have hflight : w.counters.inFlight = true := hbooks.published.2.2.2.trans hhand
      have hempty : w'.counters.inFlight = false := by
        obtain ⟨t'', hbooks''⟩ := hreached (before ++ [e])
        have hpublished'' : w'.counters.inFlight = w'.phase.stance.hand.isSome :=
          hbooks''.published.2.2.2
        rw [hpublished'', hw', hend]
        rfl
      rw [← hlast] at hbooks'
      rw [hw'] at hempty
      exact ⟨hpublished ⟨t', hbooks', hlost⟩, hflight, hempty, hfaults, hdescription⟩
    · obtain ⟨t', hbooks', htoll⟩ := Link.books_ended hbooks hworks e hend after
      obtain ⟨hstop, hlost⟩ := htoll.of_returned hworks hend hreturned
      rw [← hlast] at hbooks'
      exact ⟨hstop, hpublished ⟨t', hbooks', hlost⟩⟩
    · rw [hlast] at hend
      obtain ⟨t', hbooks', hlost⟩ := Link.books_stopped hbooks e hbefore hafter hplace after hend
      rw [← hlast] at hbooks'
      exact hpublished ⟨t', hbooks', hlost⟩

theorem books_balance_abandoned :
    let m : Mutation := ⟨"orders", "k".toUTF8, "v".toUTF8⟩
    let es : List LinkEvent := [.forwarder .start, .offer m, .offer m, .forwarder (.work {}),
      .forwarder (.work {}), .forwarder (.work {}), .forwarder (.work {}), .forwarder (.work {})]
    ∃ l, Link.ofSettings ⟨"tokyo", ⟨"tokyo", "pass"⟩, ["h"], 10, 1000, .fixed⟩ 5701 10 = .done l ∧
      (l.run es).1.forwarder.suspended = true ∧
      (l.run es).1.status.offered.toNat = (l.run es).1.status.accounted ∧
      (l.run (es ++ [.stop, .forwarder (.work {})])).1.state = .stopped ∧
      (l.run (es ++ [.stop, .forwarder (.work {})])).1.status.offered.toNat =
        (l.run (es ++ [.stop, .forwarder (.work {})])).1.status.accounted + 1 := by
  intro m es
  obtain ⟨l, hl⟩ : ∃ l, Link.ofSettings ⟨"tokyo", ⟨"tokyo", "pass"⟩, ["h"], 10, 1000, .fixed⟩
      5701 10 = .done l := ⟨_, rfl⟩
  have hbefore := books_balance _ _ _ l hl es (by cases hl; decide)
  have hafter := books_balance _ _ _ l hl
    (es ++ [LinkEvent.stop, LinkEvent.forwarder (.work {})]) (by cases hl; decide)
  cases hl
  refine ⟨_, rfl, rfl, (hbefore.1 (Or.inr rfl)).1, rfl, ?_⟩
  exact ((hafter.2 es .stop [.forwarder (.work {})] rfl).2.2) rfl nofun (Or.inr (Or.inl rfl)) rfl

/-- What a stop costs does not depend on where the forwarder is when it comes. A stop that comes
while a target is being dialed finds the forwarder in search of a connection, and costs nothing: the
connection comes and the mutation is sent. One that comes once more, to a forwarder that has stopped
and seeks nothing, finds one mutation unaccounted for. -/
theorem stop_unheeded :
    let m : Mutation := ⟨"orders", "k".toUTF8, "v".toUTF8⟩
    let dialing : List LinkEvent := [.forwarder .start, .offer m, .forwarder (.work {}),
      .forwarder (.work {}), .forwarder (.work {}), .forwarder (.work {})]
    let delivery : List LinkEvent := [.forwarder (.work { dial := .done (some 7) }),
      .forwarder (.work {}), .forwarder (.work {}), .forwarder (.work {}), .forwarder (.work {})]
    let stopped : List LinkEvent :=
      dialing ++ [.forwarder (.work {}), .stop, .forwarder (.work {})]
    ∃ l, Link.ofSettings ⟨"tokyo", ⟨"tokyo", "pass"⟩, ["h"], 10, 1000, .fixed⟩ 5701 10 = .done l ∧
      (l.run dialing).1.forwarder.phase.resolving = true ∧
      (l.run (dialing ++ .stop :: delivery)).1.state = .stopped ∧
      (l.run (dialing ++ .stop :: delivery)).1.status.counters.sent = 1 ∧
      (l.run (dialing ++ .stop :: delivery)).1.status.offered.toNat =
        (l.run (dialing ++ .stop :: delivery)).1.status.accounted ∧
      (l.run stopped).1.forwarder.phase.resolving = false ∧
      (l.run (stopped ++ [.stop])).1.status.offered.toNat =
        (l.run (stopped ++ [.stop])).1.status.accounted + 1 := by
  refine ⟨_, rfl, rfl, rfl, ?_, ?_, rfl, ?_⟩ <;> decide +kernel

end ClusterRelay
