import ClusterRelay.Proofs.Books

/-!
# What a forwarder outlives

A forwarder is surrounded by collaborators that may refuse or crash in any of their calls, and what
has gone wrong tells it what to do. A parcel that cannot be written, submitted or followed up is
dropped and counted. A peer that cannot be reached costs the search a visit and the parcel nothing.
Only three things get through to the forwarder itself: a crash of the pacing, one of the connection
in use when the search lets go of it, and one of what another crash left, when that is disposed of.

`Mishap` lists the first kind and `Peril` the last, step by step and in the order in which a step
runs into them; everything else that a search may meet with is the second kind. The pacing may
change its mind between two questions, so it is part of what happens, like the answers of the
network: an `Occasion` is an event and the pacing at that time.
-/

namespace ClusterRelay

/-! ## Perils -/

/-- A question to the pacing. -/
inductive Question where
  | attempts
  | recorded
  | reported
  | pollDelay (poll : Nat)
  | rotateDelay
deriving DecidableEq, Repr

namespace Pacing

def crashOf {α : Type} : Except Crash α → Option Crash
  | .error crash => some crash
  | .ok _ => none

/-- The crash in which a question ends, if it does. -/
def crash? (p : Pacing) : Question → Option Crash
  | .attempts => crashOf p.attempts
  | .recorded => crashOf p.recorded
  | .reported => crashOf p.reported
  | .pollDelay poll => crashOf (p.pollDelay poll)
  | .rotateDelay => crashOf p.rotateDelay

def Sound (p : Pacing) : Prop := ∀ q, p.crash? q = none

end Pacing

/-- Something that a step does where nobody would catch a crash. -/
inductive Peril where
  | asking (question : Question)
  /-- The connection that was in use is released. -/
  | releasing
  /-- A crash was caught, and what it left is disposed of. -/
  | disposing
deriving DecidableEq, Repr

/-- The crash that comes of it, if one does. -/
def Peril.crash? (p : Pacing) (a : Answers) : Peril → Option Crash
  | .asking q => p.crash? q
  | .releasing => a.release
  | .disposing => a.disposal

/-- The first crash that comes of some perils, one after another. -/
def firstCrash? (p : Pacing) (a : Answers) (perils : List Peril) : Option Crash :=
  perils.findSome? (Peril.crash? p a)

section

variable {p : Pacing} {a : Answers} {perils : List Peril} {crash : Crash}

@[simp] theorem firstCrash?_nil : firstCrash? p a [] = none := rfl

@[simp] theorem firstCrash?_cons_eq_some_iff {peril : Peril} :
    firstCrash? p a (peril :: perils) = some crash ↔ peril.crash? p a = some crash ∨
      (peril.crash? p a = none ∧ firstCrash? p a perils = some crash) := by
  rw [firstCrash?, List.findSome?_cons, firstCrash?]
  cases peril.crash? p a <;> simp

theorem firstCrash?_eq_none (hpacing : p.Sound) (hrelease : a.release = none)
    (hdisposal : a.disposal = none) : firstCrash? p a perils = none := by
  apply List.findSome?_eq_none_iff.mpr
  intro peril _
  cases peril with
  | asking q => exact hpacing q
  | releasing => exact hrelease
  | disposing => exact hdisposal

end

namespace Failover

/-- What a visit that has used up its polls asks. -/
def vain : List Peril := [.asking .recorded, .asking .reported, .asking .rotateDelay]

/-- The perils of a step of a search; a step gets to the next one if the one before did no harm. -/
def perils (f : Failover) (now : Nat) (a : Answers) : Seek → List Peril
  | .verifying =>
    match f.active, a.probe with
    | some _, .error _ => [.disposing]
    | _, _ => []
  | .dropping _ => [.releasing]
  | .visiting =>
    match f.rotation with
    | [] => [.asking .rotateDelay]
    | target :: _ =>
      match Endpoint.ofTarget target f.port with
      | .error _ => [.asking .rotateDelay]
      | .ok _ =>
        match f.pacing.attempts with
        | .ok 0 => .asking .attempts :: vain
        | _ => [.asking .attempts]
  | .dialing v =>
    match a.dial with
    | .done none => [.asking (.pollDelay v.poll)]
    | .done (some _) => []
    | .refused _ => [.asking .rotateDelay]
    | .crashed _ => [.disposing, .asking .rotateDelay]
  | .discarding v _ =>
    if a.release.isNone then [.asking (.pollDelay v.poll)]
    else [.disposing, .asking .rotateDelay]
  | .lapsing _ _ _ => [.disposing, .asking .rotateDelay]
  | .pausing v wake => if now < wake ∨ v.poll + 1 < v.attempts then [] else vain
  | .probing _ _ | .resting _ => []

variable {f : Failover} {c : Counters} {now : Nat} {a : Answers} {crash : Crash}

theorem broken_rest {notes : List Note} : (f.rest c now notes).progress = .broken crash ↔
    f.pacing.crash? .rotateDelay = some crash := by
  unfold rest Pacing.crash?
  cases f.pacing.rotateDelay <;> simp [Pacing.crashOf]

theorem broken_pause {notes : List Note} {v : Visit} :
    (f.pause c now notes v).progress = .broken crash ↔
      f.pacing.crash? (.pollDelay v.poll) = some crash := by
  unfold pause
  simp only [Pacing.crash?]
  cases f.pacing.pollDelay v.poll <;> simp [Pacing.crashOf]

theorem broken_exhausted {notes : List Note} {target : String} :
    (f.exhausted c now notes target).progress = .broken crash ↔
      firstCrash? f.pacing a vain = some crash := by
  unfold exhausted
  cases hrecorded : f.pacing.recorded with
  | error crash' => simp [vain, Peril.crash?, Pacing.crash?, Pacing.crashOf, hrecorded]
  | ok _ =>
      cases hreported : f.pacing.reported with
      | error crash' =>
          simp [vain, Peril.crash?, Pacing.crash?, Pacing.crashOf, hrecorded, hreported]
      | ok attempts =>
          have hanswered : f.pacing.crash? .recorded = none ∧ f.pacing.crash? .reported = none := by
            rw [Pacing.crash?, Pacing.crash?, hrecorded, hreported]
            exact ⟨rfl, rfl⟩
          simp [vain, Peril.crash?, hanswered, broken_rest]

theorem broken_caught {notes : List Note} {next : Turn} :
    (f.caught c a notes next).progress = .broken crash ↔
      a.disposal = some crash ∨ (a.disposal = none ∧ next.progress = .broken crash) := by
  unfold caught
  cases a.disposal <;> simp

theorem broken_visit : (f.visit c now).progress = .broken crash ↔
    firstCrash? f.pacing a (f.perils now a .visiting) = some crash := by
  unfold visit perils
  cases hrotation : f.rotation with
  | nil => simp [broken_rest, Peril.crash?]
  | cons target others =>
      simp only
      cases hparse : Endpoint.ofTarget target f.port with
      | error fault => simp [failed, broken_rest, Peril.crash?]
      | ok endpoint =>
          cases hattempts : f.pacing.attempts with
          | error crash' => simp [Peril.crash?, Pacing.crash?, Pacing.crashOf, hattempts]
          | ok n =>
              have hanswered : f.pacing.crash? .attempts = none := by
                rw [Pacing.crash?, hattempts]
                rfl
              cases n with
              | zero => simp [broken_exhausted (a := a), Peril.crash?, hanswered]
              | succ n => simp [Peril.crash?, hanswered]

/-- A search breaks down just if one of its perils ends in a crash, and then with the first of
these. -/
theorem broken_iff {s : Seek} : (f.step c now a s).progress = .broken crash ↔
    firstCrash? f.pacing a (f.perils now a s) = some crash := by
  cases s with
  | verifying =>
      simp only [step]
      split
      · next hactive => simp [perils, hactive]
      · next target conn hactive =>
          split
          · next hlive => simp [perils, hactive, hlive]
          · next hdead => simp [perils, hactive, hdead, retire]
          · next crash' hcrash =>
              simp [perils, hactive, hcrash, broken_caught, retire, Peril.crash?]
  | dropping conn =>
      simp only [step]
      split
      · next hrelease => simp [perils, Peril.crash?, hrelease]
      · next crash' hrelease => simp [perils, Peril.crash?, hrelease]
  | visiting => simpa [step] using broken_visit
  | dialing v =>
      simp only [step]
      split
      · next hdial => simp [perils, hdial, broken_pause, Peril.crash?]
      · next conn hdial => simp [perils, hdial]
      · next fault hdial => simp [perils, hdial, failed, broken_rest, Peril.crash?]
      · next crash' hdial =>
          simp [perils, hdial, broken_caught, failed, broken_rest, Peril.crash?]
  | probing v conn =>
      simp only [step]
      split <;> simp [perils, settle]
  | discarding v conn =>
      simp only [step]
      split
      · next hrelease => simp [perils, hrelease, broken_pause, Peril.crash?]
      · next crash' hrelease =>
          simp [perils, hrelease, broken_caught, failed, broken_rest, Peril.crash?]
  | lapsing v conn crash' => simp [step, perils, broken_caught, failed, broken_rest, Peril.crash?]
  | pausing v wake =>
      simp only [step, perils]
      split
      · next hearly => simp [hearly]
      · next hdue =>
          unfold nextPoll
          split
          · next hmore => simp [hmore]
          · next hlast => simp [hdue, hlast, broken_exhausted (a := a)]
  | resting wake =>
      simp only [step]
      split <;> simp [perils]

theorem counters_rest (notes : List Note) : (f.rest c now notes).counters = c := by
  unfold rest
  split <;> rfl

theorem counters_pause (notes : List Note) (v : Visit) :
    (f.pause c now notes v).counters = c := by
  unfold pause
  split <;> rfl

end Failover

/-- What a step of a search can do to the counters. -/
inductive Counters.Sought (c : Counters) : Counters → Prop where
  | same : Sought c c
  | vain : Sought c c.countConnectFailure
  | disconnected : Sought c c.disconnected
  | connected (target : String) : Sought c (c.connected target)

theorem Counters.Sought.faults {c c' : Counters} (h : c.Sought c') :
    c'.faults = c.faults ∧ c'.lastFault = c.lastFault := by
  cases h <;> exact ⟨rfl, rfl⟩

namespace Failover

variable {f : Failover} {c : Counters} {now : Nat} {a : Answers}

theorem sought_failed (notes : List Note) (target : String) (fault : Fault) :
    c.Sought (f.failed c now notes target fault).counters := by
  rw [failed, counters_rest]
  exact .vain

theorem sought_exhausted (notes : List Note) (target : String) :
    c.Sought (f.exhausted c now notes target).counters := by
  rcases f.exhausted_cases c now notes target with ⟨text, hexhausted⟩ | ⟨crash, hexhausted⟩
  · rw [hexhausted, counters_rest]
    exact .vain
  · rw [hexhausted]
    exact .vain

theorem sought_caught {next : Turn} (h : c.Sought next.counters) (notes : List Note) :
    c.Sought (f.caught c a notes next).counters := by
  rcases f.caught_cases c a notes next with hcaught | ⟨crash, hcaught⟩
  · rw [hcaught]
    exact h
  · rw [hcaught]
    exact .same

theorem sought_step (s : Seek) : c.Sought (f.step c now a s).counters := by
  cases s with
  | verifying =>
      simp only [step]
      split
      · exact .same
      · split
        · exact .same
        · exact .disconnected
        · exact sought_caught .disconnected _
  | dropping conn =>
      simp only [step]
      split <;> exact .same
  | visiting =>
      simp only [step, visit]
      split
      · rw [counters_rest]
        exact .same
      · split
        · exact sought_failed _ _ _
        · split
          · exact .same
          · exact sought_exhausted _ _
          · exact .same
  | dialing v =>
      simp only [step]
      split
      · rw [counters_pause]
        exact .same
      · exact .same
      · exact sought_failed _ _ _
      · exact sought_caught (sought_failed _ _ _) _
  | probing v conn =>
      simp only [step]
      split
      · exact .connected v.target
      · exact .same
      · exact .same
  | discarding v conn =>
      simp only [step]
      split
      · rw [counters_pause]
        exact .same
      · exact sought_caught (sought_failed _ _ _) _
  | lapsing v conn crash => exact sought_caught (sought_failed _ _ _) _
  | pausing v wake =>
      simp only [step, nextPoll]
      split
      · exact .same
      · split
        · exact .same
        · exact sought_exhausted _ _
  | resting wake =>
      simp only [step]
      split <;> exact .same

end Failover

/-! ## What a step of work comes to -/

/-- An event, and the pacing at the time. -/
structure Occasion where
  pacing : Pacing
  event : Event

/-- The pacing answers every question, no connection crashes when it is released, and nothing that
another crash left does so when it is disposed of. -/
structure Occasion.Sound (o : Occasion) : Prop where
  pacing : o.pacing.Sound
  releases : ∀ a, o.event = .work a → a.release = none
  disposals : ∀ a, o.event = .work a → a.disposal = none

namespace Forwarder

/-- The forwarder, while this is its pacing. -/
def under (w : Forwarder) (pacing : Pacing) : Forwarder :=
  { w with failover := { w.failover with pacing } }

def stepUnder (w : Forwarder) (o : Occasion) : Forwarder := ((w.under o.pacing).step o.event).1

def runUnder (w : Forwarder) (os : List Occasion) : Forwarder := os.foldl stepUnder w

/-- The fault because of which a step of work drops the parcel in hand: the parcel cannot be
written, the connection refuses it or crashes, or it crashes when it is probed afterwards. What a
crash left is disposed of without another one. -/
inductive Mishap (w : Forwarder) (a : Answers) (p : Parcel) : Fault → Prop where
  | unwritten {conn : ConnId} {fault : Fault} (hphase : w.phase = .submitting p conn)
      (hframe : frameOf p = .error fault) : Mishap w a p fault
  | refused {conn : ConnId} {frame : ByteArray} {fault : Fault}
      (hphase : w.phase = .submitting p conn) (hframe : frameOf p = .ok frame)
      (hrefused : a.submit = .refused fault) : Mishap w a p fault
  | crashed {conn : ConnId} {frame : ByteArray} {crash : Crash}
      (hphase : w.phase = .submitting p conn) (hframe : frameOf p = .ok frame)
      (hcrashed : a.submit = .crashed crash) (hdisposal : a.disposal = none) :
      Mishap w a p (crash.asFault "delivery")
  | unconfirmed {conn : ConnId} {crash : Crash} (hphase : w.phase = .confirming p conn)
      (hcrash : a.probe = .error crash) (hdisposal : a.disposal = none) :
      Mishap w a p (crash.asFault "delivery")

/-- The search is at a place where the signal to stop is heeded, and the signal is there. -/
def heeds (w : Forwarder) (s : Seek) : Bool := heedsSignal s && w.stopping

/-- The perils of a step of work. -/
def perils (w : Forwarder) (a : Answers) : List Peril :=
  match w.phase with
  | .seeking _ s => if w.heeds s then [] else w.failover.perils w.now a s
  | .submitting p _ =>
    match frameOf p, a.submit with
    | .ok _, .crashed _ => [.disposing]
    | _, _ => []
  | .confirming _ _ =>
    match a.probe with
    | .error _ => [.disposing]
    | .ok _ => []
  | _ => []

/-- A crash gets through to the forwarder in its next step of work: the first that comes of the
perils of the step. -/
def Broken (w : Forwarder) (a : Answers) (crash : Crash) : Prop :=
  firstCrash? w.failover.pacing a (w.perils a) = some crash

variable {w : Forwarder} {a : Answers} {p : Parcel} {s : Seek} {fault : Fault} {crash : Crash}

theorem Mishap.work (h : Mishap w a p fault) : (w.work a).1 = (w.dropped p fault).1 := by
  cases h with
  | unwritten hphase hframe => simp only [Forwarder.work, hphase, submit, hframe]
  | refused hphase hframe hrefused =>
      simp only [Forwarder.work, hphase, submit, hframe, hrefused]
  | crashed hphase hframe hcrashed hdisposal =>
      simp only [Forwarder.work, hphase, submit, hframe, hcrashed, caught, hdisposal]
  | unconfirmed hphase hcrash hdisposal =>
      simp only [Forwarder.work, hphase, confirm, hcrash, caught, hdisposal]

theorem Mishap.hand (h : Mishap w a p fault) : w.phase.stance.hand = some p := by
  cases h with
  | unwritten hphase _ => rw [hphase]; rfl
  | refused hphase _ _ => rw [hphase]; rfl
  | crashed hphase _ _ _ => rw [hphase]; rfl
  | unconfirmed hphase _ _ => rw [hphase]; rfl

theorem perils_seeking (hphase : w.phase = .seeking p s) (hunheeded : w.heeds s = false) :
    w.perils a = w.failover.perils w.now a s := by
  simp only [perils, hphase, hunheeded, Bool.false_eq_true, if_false]

/-- A search that goes on, or comes to its end, leaves the parcel in hand and no trace of a fault. -/
theorem spared_of_seeking (hphase : w.phase = .seeking p s) (hunheeded : w.heeds s = false)
    (hwhole : ∀ crash, ¬ w.Broken a crash) :
    (w.work a).1.phase.stance = .holding p ∧ (w.work a).1.retries = w.retries ∧
      (w.work a).1.backlog = w.backlog ∧ (w.work a).1.counters.faults = w.counters.faults ∧
      (w.work a).1.counters.lastFault = w.counters.lastFault ∧ (w.work a).1.state = w.state := by
  obtain ⟨hfaults, hlast⟩ := (@Failover.sought_step w.failover w.counters w.now a s).faults
  have hwhole' : ∀ crash, (w.failover.step w.counters w.now a s).progress ≠ .broken crash := by
    intro crash hbroken
    apply hwhole crash
    rw [Broken, perils_seeking hphase hunheeded]
    exact Failover.broken_iff.mp hbroken
  simp only [Forwarder.work, hphase, seek]
  rw [heeds] at hunheeded
  rw [hunheeded]
  generalize w.failover.step w.counters w.now a s = t at hfaults hlast hwhole' ⊢
  obtain ⟨failover, counters, progress, notes⟩ := t
  cases progress with
  | seeking next => exact ⟨rfl, rfl, rfl, hfaults, hlast, rfl⟩
  | found conn => exact ⟨rfl, rfl, rfl, hfaults, hlast, rfl⟩
  | broken crash => exact absurd rfl (hwhole' crash)

structure Undone (w w' : Forwarder) (crash : Crash) : Prop where
  phase : w'.phase = .ended (.crashed crash)
  state : w'.state = .stopped
  faults : w'.counters.faults = w.counters.faults + 1
  lastFault : w'.counters.lastFault = some "panic: forwarder loop unwound"
  inFlight : w'.counters.inFlight = false

/-- Whatever happens afterwards, a forwarder that has ended stays as it is. -/
theorem Undone.step {w' : Forwarder} (h : Undone w w' crash) (o : Occasion) :
    Undone w (w'.stepUnder o) crash := by
  have hsame : (w'.stepUnder o).phase = w'.phase ∧ (w'.stepUnder o).state = w'.state ∧
      (w'.stepUnder o).counters = w'.counters := by
    have hphase : (w'.under o.pacing).phase = .ended (.crashed crash) := h.phase
    unfold stepUnder
    cases o.event with
    | start =>
        simp only [Forwarder.step, begin, hphase]
        exact ⟨h.phase.symm ▸ hphase, rfl, rfl⟩
    | offer m => exact ⟨rfl, rfl, rfl⟩
    | stop =>
        simp only [Forwarder.step, signalStop]
        split <;> exact ⟨rfl, rfl, rfl⟩
    | orphan =>
        simp only [Forwarder.step, orphan]
        split <;> exact ⟨rfl, rfl, rfl⟩
    | elapse moment => exact ⟨rfl, rfl, rfl⟩
    | work a =>
        simp only [Forwarder.step, Forwarder.work, hphase]
        exact ⟨h.phase.symm ▸ hphase, rfl, rfl⟩
  obtain ⟨hphase, hstate, hcounters⟩ := hsame
  refine ⟨hphase.trans h.phase, hstate.trans h.state, ?_, ?_, ?_⟩
  · rw [hcounters, h.faults]
  · rw [hcounters, h.lastFault]
  · rw [hcounters, h.inFlight]

theorem Undone.run {w' : Forwarder} (h : Undone w w' crash) (os : List Occasion) :
    Undone w (w'.runUnder os) crash := by
  induction os generalizing w' with
  | nil => exact h
  | cons o os ih => exact ih (h.step o)

/-! ## As long as there is no signal -/

/-- As long as the signal to stop is awaited, the forwarder works. -/
def Enduring (w : Forwarder) : Prop :=
  w.signal = .awaited → w.phase.stance ≠ .ended ∧ w.state = .running

theorem not_broken (hpacing : w.failover.pacing.Sound) (hrelease : a.release = none)
    (hdisposal : a.disposal = none) (crash : Crash) : ¬ w.Broken a crash := by
  rw [Broken, firstCrash?_eq_none hpacing hrelease hdisposal]
  exact nofun

theorem Enduring.work (h : Enduring w) (hpacing : w.failover.pacing.Sound)
    (hrelease : a.release = none) (hdisposal : a.disposal = none) :
    Enduring (w.work a).1 := by
  intro hsignal
  have hawaited : w.signal = .awaited := (signal_work w a).symm.trans hsignal
  have hungiven : w.signal ≠ .given := by simp [hawaited]
  have hstopping : w.stopping = false := by simp [stopping, hawaited]
  have hchoosing : Stance.choosing ≠ .ended := by decide
  obtain ⟨hworks, hstate⟩ := h hawaited
  -- The phases that heed the signal find none, and a sound search does not break down.
  cases hphase : w.phase with
  | idle =>
      simp only [Forwarder.work, hphase]
      exact ⟨hchoosing, hstate⟩
  | choosing =>
      simp only [Forwarder.work, hphase, choose, if_neg hungiven]
      split
      · exact ⟨by simp [takeUp, Phase.stance], hstate⟩
      · exact ⟨by simp [Phase.stance], hstate⟩
  | waiting =>
      simp only [Forwarder.work, hphase, await, hstopping]
      split
      · next hstop => cases hstop
      · split
        · exact ⟨by simp [takeUp, Phase.stance], hstate⟩
        · exact ⟨hworks, hstate⟩
  | seeking p s =>
      have hunheeded : w.heeds s = false := by rw [heeds, hstopping, Bool.and_false]
      obtain ⟨hhand, -, -, -, -, hsame⟩ :=
        spared_of_seeking hphase hunheeded (not_broken hpacing hrelease hdisposal)
      rw [hhand, hsame]
      exact ⟨by simp, hstate⟩
  | submitting p conn =>
      simp only [Forwarder.work, hphase, submit, caught, hdisposal]
      split
      · exact ⟨hchoosing, hstate⟩
      · split
        · exact ⟨by simp [Phase.stance], hstate⟩
        · exact ⟨hchoosing, hstate⟩
        · exact ⟨hchoosing, hstate⟩
  | confirming p conn =>
      simp only [Forwarder.work, hphase, confirm, caught, hdisposal]
      split <;> exact ⟨hchoosing, hstate⟩
  | closing conn => exact absurd (stance_of_phase hphase) hworks
  | ended how => exact absurd (stance_of_phase hphase) hworks

theorem Enduring.step (h : Enduring w) {o : Occasion} (hsound : o.Sound) :
    Enduring (w.stepUnder o) := by
  have hunder : Enduring (w.under o.pacing) := h
  have hreleases := hsound.releases
  have hdisposals := hsound.disposals
  unfold stepUnder
  cases hevent : o.event with
  | start =>
      intro hsignal
      simp only [Forwarder.step, begin] at hsignal ⊢
      split at hsignal
      · exact ⟨by simp [Phase.stance], rfl⟩
      · exact hunder hsignal
  | offer m => exact hunder
  | stop =>
      intro hsignal
      simp only [Forwarder.step, signalStop] at hsignal ⊢
      split at hsignal
      · cases hsignal
      · exact hunder hsignal
  | orphan =>
      intro hsignal
      simp only [Forwarder.step, orphan] at hsignal ⊢
      split at hsignal
      · cases hsignal
      · exact hunder hsignal
  | elapse moment => exact hunder
  | work a => exact hunder.work hsound.pacing (hreleases a hevent) (hdisposals a hevent)

theorem Enduring.run (h : Enduring w) {os : List Occasion} (hsound : ∀ o ∈ os, o.Sound) :
    Enduring (w.runUnder os) := by
  induction os generalizing w with
  | nil => exact h
  | cons o os ih =>
      have hstep := h.step (hsound o List.mem_cons_self)
      exact ih hstep fun o' ho' => hsound o' (List.mem_cons_of_mem o ho')

end Forwarder

/-- A link with one target. -/
def oneTarget : Failover :=
  ⟨"link", ["h"], none, 5701, ⟨"tokyo", "pass"⟩, Schedule.standard.pacing⟩

/-- Its forwarder is offered a mutation, takes it up, and is about to dial. -/
def upToDial : List Occasion :=
  [.start, .offer ⟨"orders", "k".toUTF8, "v".toUTF8⟩, .work {}, .work {}, .work {}, .work {}].map
    (Occasion.mk Schedule.standard.pacing)

end ClusterRelay
