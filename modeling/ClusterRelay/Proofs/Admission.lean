import ClusterRelay.Proofs.Books
import ClusterRelay.Proofs.Codec
import ClusterRelay.Relay

/-!
# What a stopped link still admits

That a link is stopped is written down twice: the front door looks at the signal, and the state is
set by the forwarder when it ends. The two agree as long as the forwarder ends because it was told
to. A crash that gets through to the forwarder ends it without a signal, and then the link calls
itself stopped and still lets mutations in, where nobody will ever fetch them.

`Gated` is what remains true in every state: a stopped link was told to stop, or its forwarder
crashed. It is an invariant of the forwarder, and a relay keeps it for all of its links because it
does nothing to them but what a link does.
-/

namespace ClusterRelay

namespace Forwarder

/-- The signal to stop is held by somebody, and a forwarder that has stopped was given it or
crashed. -/
structure Gated (w : Forwarder) : Prop where
  held : w.signal ≠ .orphaned
  stopped : w.state = .stopped → w.signal = .given ∨ ∃ crash, w.phase = .ended (.crashed crash)

variable {w : Forwarder}

theorem state_caught {a : Answers} {handled : Forwarder × List Note}
    (h : handled.1.state = w.state) :
    (w.caught a handled).1.state = w.state ∨
      ∃ crash, (w.caught a handled).1.phase = .ended (.crashed crash) := by
  rcases w.caught_cases a handled with hcaught | ⟨crash, hcaught⟩
  · rw [hcaught]
    exact Or.inl h
  · rw [hcaught]
    exact Or.inr ⟨crash, rfl⟩

/-- Without the signal only a crash changes the state. -/
theorem state_work (hawaited : w.signal = .awaited) (a : Answers) :
    (w.work a).1.state = w.state ∨ ∃ crash, (w.work a).1.phase = .ended (.crashed crash) := by
  have hstopping : w.stopping = false := by rw [stopping, hawaited]; rfl
  -- One case for each phase; what would call `finish` asks for the signal first.
  unfold work
  split
  · exact Or.inl rfl
  · rw [choose, if_neg (by simp [hawaited])]
    split <;> exact Or.inl rfl
  · rw [await, hstopping]
    simp only [Bool.false_eq_true, if_false]
    split <;> exact Or.inl rfl
  · next p s _ =>
      rw [seek, hstopping, Bool.and_false]
      simp only [Bool.false_eq_true, if_false]
      split
      · exact Or.inl rfl
      · exact Or.inl rfl
      · next crash _ => exact Or.inr ⟨crash, rfl⟩
  · unfold submit
    split
    · exact Or.inl rfl
    · simp only
      split
      · exact Or.inl rfl
      · exact Or.inl rfl
      · exact state_caught rfl
  · unfold confirm
    simp only
    split
    · exact Or.inl rfl
    · exact Or.inl rfl
    · exact state_caught rfl
  · exact Or.inl rfl
  · exact Or.inl rfl

theorem Gated.work (h : Gated w) (a : Answers) : Gated (w.work a).1 := by
  have hsignal := signal_work w a
  refine ⟨by rw [hsignal]; exact h.held, fun hstopped => ?_⟩
  rw [hsignal]
  cases hcase : w.signal with
  | given => exact Or.inl rfl
  | orphaned => exact absurd hcase h.held
  | awaited =>
      rcases state_work hcase a with hsame | hcrashed
      · rcases h.stopped (hsame.symm.trans hstopped) with hgiven | ⟨crash, hphase⟩
        · exact absurd (hcase.symm.trans hgiven) nofun
        · exact Or.inr ⟨crash, by simp only [Forwarder.work, hphase]⟩
      · exact Or.inr hcrashed

theorem Gated.step (h : Gated w) (e : Event) (he : e ≠ .orphan) : Gated (w.step e).1 := by
  cases e with
  | start =>
      simp only [Forwarder.step, begin]
      split
      · exact ⟨h.held, fun hstopped => by cases hstopped⟩
      · exact h
  | offer m => exact ⟨h.held, h.stopped⟩
  | stop =>
      simp only [Forwarder.step, signalStop]
      split
      · exact ⟨by simp, fun _ => Or.inl rfl⟩
      · exact h
  | orphan => exact absurd rfl he
  | elapse moment => exact ⟨h.held, h.stopped⟩
  | work a => exact h.work a

theorem gated_start (f : Failover) (capacity : Nat) :
    Gated (ofParts f (Backlog.ofCapacity capacity)) :=
  ⟨fun horphaned => (nomatch horphaned), fun hstopped => (nomatch hstopped)⟩

end Forwarder

/-! ## Links and relays -/

namespace Link

open Forwarder (Gated)

variable {l : Link}

theorem offer_of_given (hgiven : l.forwarder.signal = .given) (m : Mutation) :
    (l.offer m).1 = l := by rw [offer, if_pos hgiven]

/-- Without the signal an offer comes in, at the end of the backlog. -/
theorem offer_of_not_given (hgiven : l.forwarder.signal ≠ .given) (m : Mutation) :
    (l.offer m).1.state = l.state ∧ (l.offer m).1.status.offered = l.status.offered + 1 ∧
      ∃ older, (l.offer m).1.forwarder.backlog.toList =
        older ++ [⟨l.forwarder.admitted, m⟩] := by
  obtain ⟨hcount, hline⟩ :=
    Backlog.offer_cases l.forwarder.backlog (⟨l.forwarder.admitted, m⟩ : Parcel)
  rw [offer, if_neg hgiven]
  refine ⟨rfl, hcount, ?_⟩
  rcases hline with ⟨-, -, hlast⟩ | ⟨_, rest, -, -, -, hlast⟩
  · exact ⟨_, hlast⟩
  · exact ⟨rest, hlast⟩

theorem gated_onForwarder (h : Gated l.forwarder) {e : Event} (he : e ≠ .orphan) :
    Gated (l.onForwarder e).1.forwarder := h.step e he

theorem gated_offer (h : Gated l.forwarder) (m : Mutation) : Gated (l.offer m).1.forwarder := by
  unfold offer
  split
  · exact h
  · exact gated_onForwarder h nofun

theorem gated_stop (h : Gated l.forwarder) : Gated l.stop.1.forwarder := by
  unfold stop
  split
  · exact h
  · exact gated_onForwarder (e := .stop) h nofun

end Link

namespace Relay

variable {P : Link → Prop} {f : Link → Link × List Note} {ls : List Link}

theorem fst_onLinks (f : Link → Link × List Note) (ls : List Link) :
    (onLinks f ls).1 = ls.map fun l => (f l).1 := by
  induction ls with
  | nil => rfl
  | cons l ls ih => rw [onLinks, List.map_cons, ← ih]

theorem forall_onLinks (hf : ∀ l, P l → P (f l).1) (h : ∀ l ∈ ls, P l) :
    ∀ l ∈ (onLinks f ls).1, P l := by
  rw [fst_onLinks]
  exact List.forall_mem_map.mpr fun l hl => hf l (h l hl)

theorem forall_onNamed (hf : ∀ l, P l → P (f l).1) (h : ∀ l ∈ ls, P l) (name : String) :
    ∀ l ∈ (onNamed name f ls).1, P l := by
  induction ls with
  | nil => exact h
  | cons l ls ih =>
      obtain ⟨hl, hls⟩ := List.forall_mem_cons.mp h
      rw [onNamed]
      split
      · exact List.forall_mem_cons.mpr ⟨hf l hl, hls⟩
      · exact List.forall_mem_cons.mpr ⟨hl, ih hls⟩

theorem forall_onPlace (hf : ∀ l, P l → P (f l).1) (h : ∀ l ∈ ls, P l) (place : Nat) :
    ∀ l ∈ (onPlace f place ls).1, P l := by
  induction ls generalizing place with
  | nil =>
      rw [onPlace]
      exact h
  | cons l ls ih =>
      obtain ⟨hl, hls⟩ := List.forall_mem_cons.mp h
      cases place with
      | zero => exact List.forall_mem_cons.mpr ⟨hf l hl, hls⟩
      | succ place => exact List.forall_mem_cons.mpr ⟨hl, ih hls place⟩

open Forwarder (Gated)

theorem gated_step {r : Relay} (h : ∀ l ∈ r.links, Gated l.forwarder) {e : RelayEvent}
    (he : ∀ place, e ≠ .forwarder place .orphan) :
    ∀ l ∈ (r.step e).1.links, Gated l.forwarder := by
  cases e with
  | commit m => exact forall_onLinks (P := (Gated ·.forwarder)) (fun _ hl => Link.gated_offer hl m) h
  | offerTo name m =>
      exact forall_onNamed (P := (Gated ·.forwarder)) (fun _ hl => Link.gated_offer hl m) h name
  | stopLink name =>
      exact forall_onNamed (P := (Gated ·.forwarder)) (fun _ hl => Link.gated_stop hl) h name
  | stop => exact forall_onLinks (P := (Gated ·.forwarder)) (fun _ hl => Link.gated_stop hl) h
  | forwarder place e =>
      have hown : e ≠ .orphan := fun horphan => he place (horphan ▸ rfl)
      exact forall_onPlace (P := (Gated ·.forwarder))
        (fun _ hl => Link.gated_onForwarder hl hown) h place

theorem gated_run {r : Relay} (h : ∀ l ∈ r.links, Gated l.forwarder) {es : List RelayEvent}
    (hes : ∀ place, .forwarder place .orphan ∉ es) :
    ∀ l ∈ (r.run es).1.links, Gated l.forwarder := by
  induction es generalizing r with
  | nil => exact h
  | cons e es ih =>
      apply ih
      · exact gated_step h fun place he => hes place (he ▸ List.mem_cons_self)
      · exact fun place hmem => hes place (List.mem_cons_of_mem e hmem)

theorem gated_linksOf {n : NodeSettings} {settings : List LinkSettings} {links : List Link}
    (h : linksOf n settings = .done links) : ∀ l ∈ links, Gated l.forwarder := by
  induction settings generalizing links with
  | nil =>
      cases h
      exact List.forall_mem_nil _
  | cons s settings ih =>
      obtain ⟨l, hl, hrest⟩ := Outcome.done_of_bind h
      obtain ⟨others, hothers, hmade⟩ := Outcome.done_of_bind hrest
      cases hmade
      obtain ⟨f, hf⟩ := Link.forwarder_ofSettings hl
      refine List.forall_mem_cons.mpr ⟨?_, ih hothers⟩
      rw [hf]
      exact Forwarder.gated_start f n.capacity.toNat

theorem gated_started {n : NodeSettings} {r : Relay} {lines : List LogLine}
    (h : start n = .done (r, lines)) : ∀ l ∈ r.links, Gated l.forwarder := by
  obtain ⟨-, -, hrest⟩ := Outcome.done_of_bind h
  obtain ⟨links, hlinks, hmade⟩ := Outcome.done_of_bind hrest
  cases hmade
  exact List.forall_mem_map.mpr fun l hl =>
    Link.gated_onForwarder (gated_linksOf hlinks l hl) (e := .start) nofun

end Relay

/-- Whatever happens to a relay, as long as no link gives its signal away: a commit is an offer to
every link, and a stopped link that was told to stop discards what it is offered, without a change
to anything. One that was not told to stop has a forwarder that crashed; it stays stopped and takes
in what it is offered. -/
theorem offered_to_stopped {n : NodeSettings} {r : Relay} {lines : List LogLine}
    (hr : Relay.start n = .done (r, lines)) {es : List RelayEvent}
    (hheld : ∀ place, .forwarder place .orphan ∉ es) (m : Mutation) :
    let last := (r.run es).1
    (last.commit m).1.links = last.links.map (fun l => (l.offer m).1) ∧
    ∀ l ∈ last.links, l.state = .stopped →
      let l' := (l.offer m).1
      (l.forwarder.signal = .given ∧ l' = l) ∨
      (l.forwarder.signal = .awaited ∧ (∃ crash, l.forwarder.phase = .ended (.crashed crash)) ∧
        l'.state = .stopped ∧ l'.status.offered = l.status.offered + 1 ∧
        ∃ older, l'.forwarder.backlog.toList = older ++ [⟨l.forwarder.admitted, m⟩]) := by
  intro last
  refine ⟨Relay.fst_onLinks _ _, fun l hl hstopped => ?_⟩
  have hgated := Relay.gated_run (Relay.gated_started hr) hheld l hl
  intro l'
  cases hsignal : l.forwarder.signal with
  | given => exact Or.inl ⟨rfl, Link.offer_of_given hsignal m⟩
  | orphaned => exact absurd hsignal hgated.held
  | awaited =>
      have hgiven : l.forwarder.signal ≠ .given := by rw [hsignal]; nofun
      obtain ⟨hstate, hoffered, hline⟩ := Link.offer_of_not_given hgiven m
      refine Or.inr ⟨rfl, ?_, hstate.trans hstopped, hoffered, hline⟩
      exact (hgated.stopped hstopped).resolve_left hgiven

/-- The link at the first place is offered a mutation, submits it to a connection that dies of it,
and lets go of the connection, which crashes. -/
def upToCrash (m : Mutation) : List RelayEvent :=
  .commit m :: ([{}, {}, {}, {}, { dial := .done (some 7) }, {}, {}, { probe := .ok false }, {},
    { probe := .ok false }, { release := some ⟨some "drop"⟩ }].map fun a =>
      .forwarder 0 (.work a))

/-- The first link crashes and the second is told to stop, both after one commit. -/
theorem offered_to_stopped_crashed :
    let m : Mutation := ⟨"orders", "k".toUTF8, "v".toUTF8⟩
    let n : NodeSettings := ⟨"node-a", 5701, 100000,
      [⟨"tokyo", ⟨"tokyo", "pass"⟩, ["t1"], 10, 1000, .fixed⟩,
        ⟨"london", ⟨"london", "pass"⟩, ["l1"], 10, 1000, .fixed⟩]⟩
    let es := upToCrash m ++ [.stopLink "london", .forwarder 1 (.work {})]
    ∃ r lines, Relay.start n = .done (r, lines) ∧ (∀ place, .forwarder place .orphan ∉ es) ∧
      ∃ tokyo london, (r.run es).1.links = [tokyo, london] ∧
        tokyo.state = .stopped ∧ london.state = .stopped ∧
        ((r.run es).1.commit m).1.links = [(tokyo.offer m).1, london] ∧
        (tokyo.offer m).1.status.offered = tokyo.status.offered + 1 := by
  intro m n es
  obtain ⟨r, lines, hr⟩ : ∃ r lines, Relay.start n = .done (r, lines) := by
    simp only [n]
    exact ⟨_, _, rfl⟩
  have hheld : ∀ place, .forwarder place .orphan ∉ es := by
    simp [es, upToCrash]
  obtain ⟨hcommit, hstopped⟩ := offered_to_stopped hr hheld m
  obtain ⟨tokyo, london, hlinks, hstates, hsignals⟩ : ∃ tokyo london,
      (r.run es).1.links = [tokyo, london] ∧
      [tokyo, london].map Link.state = [.stopped, .stopped] ∧
      [tokyo, london].map (·.forwarder.signal) = [.awaited, .given] := by
    simp only [n] at hr
    cases hr
    exact ⟨_, _, rfl, rfl, rfl⟩
  simp only [List.map_cons, List.map_nil, List.cons.injEq, and_true] at hstates hsignals
  rw [hlinks, List.forall_mem_cons, List.forall_mem_singleton] at hstopped
  refine ⟨r, lines, hr, hheld, tokyo, london, hlinks, hstates.1, hstates.2, ?_, ?_⟩
  · rw [hcommit, hlinks]
    rcases hstopped.2 hstates.2 with ⟨-, hsame⟩ | ⟨hawaited, -⟩
    · rw [List.map_cons, List.map_singleton, hsame]
    · exact absurd (hsignals.2.symm.trans hawaited) nofun
  · rcases hstopped.1 hstates.1 with ⟨hgiven, -⟩ | ⟨-, -, -, hoffered, -⟩
    · exact absurd (hsignals.1.symm.trans hgiven) nofun
    · exact hoffered

/-- A link that calls itself stopped admits a mutation nevertheless. -/
theorem stopped_link_admits :
    let m : Mutation := ⟨"orders", "k".toUTF8, "v".toUTF8⟩
    ∃ r lines, Relay.start ⟨"node-a", 5701, 100000,
        [⟨"tokyo", ⟨"tokyo", "pass"⟩, ["t1"], 10, 1000, .fixed⟩]⟩ = .done (r, lines) ∧
      let last := (r.run (upToCrash m)).1
      ¬ ∀ l ∈ last.links, l.state = .stopped →
        (l.offer m).1.status.offered = l.status.offered ∧
        (l.offer m).1.status.queueDepth = l.status.queueDepth := by
  intro m
  refine ⟨_, _, rfl, fun hclosed => ?_⟩
  have hsame := hclosed _ List.mem_cons_self rfl
  exact absurd hsame.1 (by decide)

end ClusterRelay
