import ClusterRelay.Proofs.Admission
import ClusterRelay.Proofs.Calls
import ClusterRelay.Proofs.Checks
import ClusterRelay.Proofs.Targets

/-!
# Settings that pass the check serve for good

A target is looked at twice: once by the check, before anything is started, and then again at the
beginning of every visit, for as long as the link lives. Nothing carries the outcome of the check
from the one to the other. What the visit looks at is the rotation at that time and the terms of
the link, so the outcome is the same only because a search never changes these terms and never
brings anything into the rotation that was not configured.

`Forwarder.Serves` is this invariant: the terms are those of the settings, the targets are those of
the settings up to a turn of the cycle, and the visit under way is to the endpoint that its target
names. From it a visit that begins is a visit that dials (`work_of_visiting`), and only a visit that
has dialed can be in vain.
-/

namespace ClusterRelay

open scoped List

/-- The visit that a search is in, if it is in one, is to the endpoint that the target names. -/
def Seek.Named (s : Seek) (port : UInt16) : Prop :=
  ∀ v, s.visit? = some v → Endpoint.ofTarget v.target port = .ok v.endpoint

/-- So it is wherever the search goes on after a turn. -/
def Turn.Named (t : Turn) (port : UInt16) : Prop :=
  ∀ next, t.progress = .seeking next → next.Named port

namespace Failover

variable {f f' : Failover} {c : Counters} {now : Nat} {a : Answers} {s next : Seek}

theorem Steps.named (h : f.Steps now s f' next) (hs : s.Named f.port) : next.Named f.port := by
  cases h with
  | asleep => exact hs
  | begun _ hparse =>
      rintro v ⟨⟩
      exact hparse
  | dialed | dead | lapsed => exact hs
  | paused hvisit =>
      rintro v ⟨⟩
      exact hs _ hvisit
  | @again v =>
      rintro v' ⟨⟩
      exact hs v rfl
  | unused | retired | dropped | rested | turned => rintro _ ⟨⟩

theorem named_step (h : s.Named f.port) : (f.step c now a s).Named f.port :=
  fun next hnext => (step_follows f c now a s next hnext).named h

/-- A search changes the order of the targets and the connection in use, and never its terms. -/
theorem terms_step (f : Failover) (c : Counters) (now : Nat) (a : Answers) (s : Seek) :
    (f.step c now a s).failover.port = f.port ∧
      (f.step c now a s).failover.credentials = f.credentials ∧
      (f.step c now a s).failover.pacing = f.pacing := by
  have hshift := shift_step f c now a s
  generalize f.step c now a s = t at hshift
  cases hshift with
  | kept keeps => rw [keeps.failover]; exact ⟨rfl, rfl, rfl⟩
  | confirmed _ _ => exact ⟨rfl, rfl, rfl⟩
  | retired _ _ _ _ => exact ⟨rfl, rfl, rfl⟩
  | settled _ => exact ⟨rfl, rfl, rfl⟩
  | rotated =>
      simp only [rotated]
      split <;> exact ⟨rfl, rfl, rfl⟩

/-- Visits are in vain when they end, not before they begin. -/
theorem connectFailures_step (hbetween : s.visit? = none) (hs : s ≠ .visiting) :
    (f.step c now a s).counters.connectFailures = c.connectFailures := by
  cases s with
  | visiting => exact absurd rfl hs
  | verifying =>
      simp only [step]
      split
      · rfl
      · split
        · rfl
        · rfl
        · unfold caught
          split <;> rfl
  | dropping conn =>
      simp only [step]
      split <;> rfl
  | resting wake =>
      simp only [step]
      split <;> rfl
  | dialing | probing | discarding | lapsing | pausing => cases hbetween

/-- A visit to a target that names an endpoint goes on to dial it. -/
theorem visit_of_named {target : String} {others : List String} {endpoint : Endpoint}
    {attempts : Nat} (hrotation : f.rotation = target :: others)
    (hparse : Endpoint.ofTarget target f.port = .ok endpoint)
    (hattempts : f.pacing.attempts = .ok attempts) (hpositive : attempts ≠ 0) :
    f.visit c now = ⟨f, c, .seeking (.dialing ⟨target, endpoint, attempts, 0⟩), []⟩ := by
  unfold visit
  rw [hrotation]
  simp only [hparse]
  split
  · next hcrash => rw [hattempts] at hcrash; cases hcrash
  · next hzero => rw [hattempts] at hzero; cases hzero; exact absurd rfl hpositive
  · next n _ hn => rw [hattempts] at hn; cases hn; rfl

end Failover

namespace Forwarder

/-- The forwarder serves a link with these settings: its terms are those of the settings and its
targets are those of the settings, and the search that is under way agrees with both. -/
structure Serves (s : LinkSettings) (ownPort : UInt16) (w : Forwarder) : Prop where
  port : w.failover.port = ownPort
  credentials : w.failover.credentials = s.credentials
  pacing : w.failover.pacing = s.schedule.pacing
  cyclic : w.phase.stance ≠ .ended → w.failover.cycle ~r s.targets
  placed : ∀ p place, w.phase = .seeking p place → w.failover.Placed place
  named : ∀ p place, w.phase = .seeking p place → place.Named ownPort

variable {s : LinkSettings} {ownPort : UInt16} {w w' : Forwarder} {a : Answers} {p : Parcel}
  {place : Seek}

theorem Serves.same (h : Serves s ownPort w) (hfailover : w'.failover = w.failover)
    (hphase : w'.phase = w.phase) : Serves s ownPort w' := by
  refine ⟨?_, ?_, ?_, ?_, ?_, ?_⟩
  · rw [hfailover]; exact h.port
  · rw [hfailover]; exact h.credentials
  · rw [hfailover]; exact h.pacing
  · rw [hfailover, hphase]; exact h.cyclic
  · rw [hfailover, hphase]; exact h.placed
  · rw [hphase]; exact h.named

/-- Outside a search the forwarder leaves the targets alone, and where it begins one the search is
at its beginning. -/
theorem Serves.outside (h : Serves s ownPort w) (hworks : w.phase.stance ≠ .ended)
    (hfailover : w'.failover = w.failover)
    (hbegins : ∀ p place, w'.phase = .seeking p place → place = .verifying) :
    Serves s ownPort w' := by
  refine ⟨?_, ?_, ?_, fun _ => ?_, fun p place hphase => ?_, fun p place hphase => ?_⟩
  · rw [hfailover]; exact h.port
  · rw [hfailover]; exact h.credentials
  · rw [hfailover]; exact h.pacing
  · rw [hfailover]; exact h.cyclic hworks
  · rw [hbegins p place hphase]; exact Failover.placed_verifying
  · rw [hbegins p place hphase]; exact nofun

theorem Serves.ended (h : Serves s ownPort w) (hport : w'.failover.port = w.failover.port)
    (hcredentials : w'.failover.credentials = w.failover.credentials)
    (hpacing : w'.failover.pacing = w.failover.pacing) (hended : w'.phase.stance = .ended) :
    Serves s ownPort w' := by
  have hunsought : ∀ p place, w'.phase ≠ .seeking p place := fun p place hphase => by
    rw [hphase] at hended
    cases hended
  exact ⟨hport.trans h.port, hcredentials.trans h.credentials, hpacing.trans h.pacing,
    fun hworks => absurd hended hworks, fun p place hphase => absurd hphase (hunsought p place),
    fun p place hphase => absurd hphase (hunsought p place)⟩

theorem Serves.caught (h : Serves s ownPort w) (hworks : w.phase.stance ≠ .ended)
    {handled : Forwarder × List Note} (hfailover : handled.1.failover = w.failover)
    (hbegins : ∀ p place, handled.1.phase = .seeking p place → place = .verifying) :
    Serves s ownPort (w.caught a handled).1 := by
  rcases w.caught_cases a handled with hcaught | ⟨crash, hcaught⟩
  · rw [hcaught]
    exact h.outside hworks hfailover hbegins
  · rw [hcaught]
    exact h.ended rfl rfl rfl rfl

theorem Serves.finish (h : Serves s ownPort w) : Serves s ownPort w.finish.1 :=
  h.ended rfl rfl rfl (stance_finish w)

theorem Serves.seek (h : Serves s ownPort w) (hphase : w.phase = .seeking p place) :
    Serves s ownPort (w.seek p place a).1 := by
  have hplaced := h.placed p place hphase
  have hworks : w.phase.stance ≠ .ended := by rw [hphase]; nofun
  have hterms := w.failover.terms_step w.counters w.now a place
  have hcycle : (w.failover.step w.counters w.now a place).failover.cycle ~r w.failover.cycle :=
    Failover.cycle_step hplaced
  have hleads : (w.failover.step w.counters w.now a place).Leads := Failover.step_leads hplaced
  have hnamed : (w.failover.step w.counters w.now a place).Named w.failover.port :=
    Failover.named_step (h.port ▸ h.named p place hphase)
  unfold Forwarder.seek
  split
  · exact h.finish
  · simp only
    generalize w.failover.step w.counters w.now a place = t at hterms hcycle hleads hnamed ⊢
    obtain ⟨failover, counters, progress, notes⟩ := t
    obtain ⟨hport, hcredentials, hpacing⟩ := hterms
    have hcyclic : failover.cycle ~r s.targets := hcycle.trans (h.cyclic hworks)
    cases progress with
    | seeking next =>
        refine ⟨hport.trans h.port, hcredentials.trans h.credentials, hpacing.trans h.pacing,
          fun _ => hcyclic, ?_, ?_⟩
        · rintro p' place' ⟨⟩
          exact hleads next rfl
        · rintro p' place' ⟨⟩
          rw [← h.port]
          exact hnamed next rfl
    | found conn =>
        exact ⟨hport.trans h.port, hcredentials.trans h.credentials, hpacing.trans h.pacing,
          fun _ => hcyclic, nofun, nofun⟩
    | broken crash => exact h.ended hport hcredentials hpacing rfl

theorem Serves.work (h : Serves s ownPort w) : Serves s ownPort (w.work a).1 := by
  cases hphase : w.phase with
  | idle =>
      simp only [Forwarder.work, hphase]
      exact h
  | choosing =>
      have hworks : w.phase.stance ≠ .ended := by rw [hphase]; rintro ⟨⟩
      simp only [Forwarder.work, hphase, choose]
      split
      · exact h.finish
      · split
        · exact h.outside hworks rfl fun p place hnow => by cases hnow; rfl
        · exact h.outside hworks rfl (by rintro _ _ ⟨⟩)
  | waiting =>
      have hworks : w.phase.stance ≠ .ended := by rw [hphase]; rintro ⟨⟩
      simp only [Forwarder.work, hphase, await]
      split
      · exact h.finish
      · split
        · exact h.outside hworks rfl fun p place hnow => by cases hnow; rfl
        · exact h
  | seeking p place =>
      simp only [Forwarder.work, hphase]
      exact h.seek hphase
  | submitting p conn =>
      have hworks : w.phase.stance ≠ .ended := by rw [hphase]; rintro ⟨⟩
      simp only [Forwarder.work, hphase, submit]
      split
      · exact h.outside hworks rfl (by rintro _ _ ⟨⟩)
      · split
        · exact h.outside hworks rfl (by rintro _ _ ⟨⟩)
        · exact h.outside hworks rfl (by rintro _ _ ⟨⟩)
        · exact h.caught hworks rfl (by rintro _ _ ⟨⟩)
  | confirming p conn =>
      have hworks : w.phase.stance ≠ .ended := by rw [hphase]; rintro ⟨⟩
      simp only [Forwarder.work, hphase, confirm]
      split
      · exact h.outside hworks rfl (by rintro _ _ ⟨⟩)
      · exact h.outside hworks rfl (by rintro _ _ ⟨⟩)
      · exact h.caught hworks rfl (by rintro _ _ ⟨⟩)
  | closing conn =>
      simp only [Forwarder.work, hphase, close]
      exact h.ended rfl rfl rfl rfl
  | ended how =>
      simp only [Forwarder.work, hphase]
      exact h

theorem Serves.step (h : Serves s ownPort w) (e : Event) : Serves s ownPort (w.step e).1 := by
  cases e with
  | start =>
      simp only [Forwarder.step, begin]
      split
      · next hphase => exact h.outside (by rw [hphase]; rintro ⟨⟩) rfl (by rintro _ _ ⟨⟩)
      · exact h
  | offer m => exact h.same rfl rfl
  | stop =>
      simp only [Forwarder.step, signalStop]
      split <;> exact h.same rfl rfl
  | orphan =>
      simp only [Forwarder.step, Forwarder.orphan]
      split <;> exact h.same rfl rfl
  | elapse moment => exact h.same rfl rfl
  | work a => exact h.work

/-! ## What such a forwarder calls -/

/-- In search of a connection it has the targets of the settings before it. -/
theorem Serves.configured (h : Serves s ownPort w) (hphase : w.phase = .seeking p place)
    {target : String} (hmem : target ∈ w.failover.rotation) : target ∈ s.targets := by
  have hworks : w.phase.stance ≠ .ended := by rw [hphase]; nofun
  exact (h.cyclic hworks).mem_iff.mp (List.mem_append_left _ hmem)

/-- A visit that is under way is to a configured target and the endpoint it names. -/
theorem Serves.visited (h : Serves s ownPort w) (hphase : w.phase = .seeking p place) {v : Visit}
    (hv : place.visit? = some v) :
    v.target ∈ s.targets ∧ Endpoint.ofTarget v.target ownPort = .ok v.endpoint := by
  have hhead := (h.placed p place hphase).head v hv
  exact ⟨h.configured hphase (List.mem_of_mem_head? hhead), h.named p place hphase v hv⟩

theorem Serves.call (h : Serves s ownPort w) {endpoint : Endpoint} {credentials : Credentials}
    (hcall : w.call? = some (.dial endpoint credentials)) :
    credentials = s.credentials ∧
      ∃ target ∈ s.targets, Endpoint.ofTarget target ownPort = .ok endpoint := by
  cases hphase : w.phase with
  | seeking p place =>
      simp only [call?, hphase] at hcall
      split at hcall
      · cases hcall
      · cases place with
        | dialing v =>
            obtain ⟨hmem, hparse⟩ := h.visited hphase (v := v) rfl
            cases hcall
            exact ⟨h.credentials, v.target, hmem, hparse⟩
        | verifying =>
            obtain ⟨active, -, hprobe⟩ := Option.map_eq_some_iff.mp hcall
            cases hprobe
        | dropping | visiting | probing | discarding | lapsing | pausing | resting => cases hcall
  | submitting p conn =>
      simp only [call?, hphase] at hcall
      split at hcall <;> cases hcall
  | idle | choosing | waiting | confirming | closing | ended =>
      simp only [call?, hphase] at hcall
      cases hcall

/-- A visit begins with a target of the settings. If all of these can be used it goes on to dial,
and has counted nothing so far. -/
theorem Serves.work_of_visiting (h : Serves s ownPort w) (husable : s.Usable ownPort)
    (hphase : w.phase = .seeking p .visiting) :
    ∃ target endpoint, w.failover.rotation.head? = some target ∧ target ∈ s.targets ∧
      Endpoint.ofTarget target ownPort = .ok endpoint ∧ ∀ a,
        (w.work a).1 = { w with
          phase := .seeking p (.dialing ⟨target, endpoint, s.attempts.toNat, 0⟩) } ∧
        (w.work a).2 = [] := by
  have hworks : w.phase.stance ≠ .ended := by rw [hphase]; rintro ⟨⟩
  have hcycle := h.cyclic hworks
  have hunused : w.failover.activeTarget = none := by
    rw [Failover.activeTarget, (h.placed p _ hphase).unused (by rintro ⟨⟩)]
    rfl
  rw [Failover.cycle, hunused, Option.toList_none, List.append_nil] at hcycle
  cases hrotation : w.failover.rotation with
  | nil =>
      rw [hrotation] at hcycle
      exact absurd (List.isRotated_nil_iff'.mp hcycle).symm husable.targets
  | cons target others =>
      have hmem : target ∈ s.targets :=
        h.configured hphase (hrotation ▸ List.mem_cons_self)
      obtain ⟨endpoint, hparse⟩ := husable.endpoints target hmem
      have hattempts : w.failover.pacing.attempts = .ok s.attempts.toNat := by
        rw [h.pacing]
        unfold LinkSettings.schedule Schedule.ofSettings
        cases s.backoff <;> rfl
      have hpositive : s.attempts.toNat ≠ 0 := fun hzero =>
        husable.attempts (UInt32.toNat_inj.mp hzero)
      refine ⟨target, endpoint, rfl, hmem, hparse, fun a => ?_⟩
      have hvisit : w.failover.visit w.counters w.now = ⟨w.failover, w.counters,
          .seeking (.dialing ⟨target, endpoint, s.attempts.toNat, 0⟩), []⟩ :=
        Failover.visit_of_named hrotation (h.port ▸ hparse) hattempts hpositive
      simp only [Forwarder.work, hphase, Forwarder.seek, heedsSignal, Failover.step, hvisit]
      exact ⟨rfl, rfl⟩

theorem Serves.run (h : Serves s ownPort w) (es : List Event) : Serves s ownPort (w.run es).1 := by
  induction es generalizing w with
  | nil => exact h
  | cons e es ih => exact ih (h.step e)

theorem connectFailures_caught {handled : Forwarder × List Note}
    (h : handled.1.counters.connectFailures = w.counters.connectFailures) :
    (w.caught a handled).1.counters.connectFailures = w.counters.connectFailures := by
  rcases w.caught_cases a handled with hcaught | ⟨crash, hcaught⟩
  · rw [hcaught]
    exact h
  · rw [hcaught]
    rfl

/-- A visit in vain was a visit to the endpoint of a configured target. -/
theorem Serves.failed (h : Serves s ownPort w) (husable : s.Usable ownPort) (a : Answers)
    (hcounted : (w.work a).1.counters.connectFailures ≠ w.counters.connectFailures) :
    ∃ p place v, w.phase = .seeking p place ∧ place.visit? = some v ∧ v.target ∈ s.targets ∧
      Endpoint.ofTarget v.target ownPort = .ok v.endpoint := by
  cases hphase : w.phase with
  | seeking p place =>
      cases hvisit : place.visit? with
      | some v => exact ⟨p, place, v, rfl, hvisit, h.visited hphase hvisit⟩
      | none =>
          -- A visit that is about to begin is not yet a visit to anywhere, and counts nothing.
          by_cases hbegins : place = .visiting
          · subst hbegins
            obtain ⟨target, endpoint, -, -, -, hwork⟩ := h.work_of_visiting husable hphase
            rw [(hwork a).1] at hcounted
            exact absurd rfl hcounted
          · have hsame : (w.failover.step w.counters w.now a place).counters.connectFailures =
                w.counters.connectFailures := Failover.connectFailures_step hvisit hbegins
            refine absurd ?_ hcounted
            simp only [Forwarder.work, hphase, Forwarder.seek]
            split
            · rfl
            · split <;> exact hsame
  | idle | ended =>
      refine absurd ?_ hcounted
      simp only [Forwarder.work, hphase]
  | closing conn =>
      refine absurd ?_ hcounted
      simp only [Forwarder.work, hphase, close]
  | choosing =>
      refine absurd ?_ hcounted
      simp only [Forwarder.work, hphase, choose]
      split
      · rfl
      · split <;> rfl
  | waiting =>
      refine absurd ?_ hcounted
      simp only [Forwarder.work, hphase, await]
      split
      · rfl
      · split <;> rfl
  | submitting p conn =>
      refine absurd ?_ hcounted
      simp only [Forwarder.work, hphase, submit]
      split
      · rfl
      · split
        · rfl
        · rfl
        · exact connectFailures_caught rfl
  | confirming p conn =>
      refine absurd ?_ hcounted
      simp only [Forwarder.work, hphase, confirm]
      split
      · rfl
      · rfl
      · exact connectFailures_caught rfl

end Forwarder

/-! ## From the settings to the links -/

namespace Link

open Forwarder (Serves)

variable {s : LinkSettings} {port : UInt16} {capacity : Nat} {l : Link}

/-- The link that settings ask for, if they name targets. -/
def made (s : LinkSettings) (port : UInt16) (capacity : Nat) : Link where
  name := s.name
  targets := s.targets
  forwarder := Forwarder.ofParts
    { link := s.name
      rotation := s.targets
      port
      credentials := s.credentials
      pacing := s.schedule.pacing }
    (Backlog.ofCapacity capacity)

theorem ofSettings_eq_made (hfits : Backlog.Fits capacity) (h : s.targets ≠ []) :
    ofSettings s port capacity = .done (made s port capacity) := by
  unfold ofSettings Failover.start
  rw [Backlog.allocate_of_fits hfits, if_neg h]
  rfl

theorem ofSettings_of_not_fits (h : ¬ Backlog.Fits capacity) (s : LinkSettings) (port : UInt16) :
    ofSettings s port capacity = .crashed ⟨some "capacity overflow"⟩ := by
  unfold ofSettings
  rw [Backlog.allocate_of_not_fits h]

/-- The same link, started. -/
def begun (s : LinkSettings) (port : UInt16) (capacity : Nat) : Link :=
  ((made s port capacity).onForwarder .start).1

theorem serves_begun (s : LinkSettings) (port : UInt16) (capacity : Nat) :
    (begun s port capacity).forwarder.Serves s port := by
  have hcycle : s.targets ++ [] ~r s.targets := by rw [List.append_nil]
  exact ⟨rfl, rfl, rfl, fun _ => hcycle, nofun, nofun⟩

theorem serves_run (h : l.forwarder.Serves s port) (es : List LinkEvent) :
    (l.run es).1.forwarder.Serves s port := by
  obtain ⟨es', hrun⟩ := l.run_forwarder es
  rw [hrun]
  exact h.run es'

/-- Whatever endpoint is dialed, a target of the settings names it. -/
theorem dialed_run (h : l.forwarder.Serves s port) (es : List LinkEvent) {endpoint : Endpoint}
    {credentials : Credentials} (hcall : .dial endpoint credentials ∈ callsIn (l.run es).2) :
    credentials = s.credentials ∧
      ∃ target ∈ s.targets, Endpoint.ofTarget target port = .ok endpoint := by
  induction es generalizing l with
  | nil => cases hcall
  | cons e es ih =>
      replace hcall : .dial endpoint credentials ∈
          callsIn ((l.step e).2 ++ ((l.step e).1.run es).2) := hcall
      rw [callsIn_append, callsIn_step] at hcall
      rcases List.mem_append.mp hcall with hnow | hlater
      · split at hnow
        · exact h.call (Option.mem_toList.mp hnow)
        · cases hnow
      · exact ih (serves_run h [e]) hlater

/-- A visit that begins dials before it does anything else, whenever it gets to work again. -/
theorem dialed_of_visiting (h : l.forwarder.Serves s port) (husable : s.Usable port) {p : Parcel}
    (hphase : l.forwarder.phase = .seeking p .visiting) :
    ∃ target endpoint, l.forwarder.failover.rotation.head? = some target ∧ target ∈ s.targets ∧
      Endpoint.ofTarget target port = .ok endpoint ∧
      ∀ a between b, (∀ e ∈ between, e.isWork = false) →
        let opening := .forwarder (.work a) :: between
        (l.run opening).1.forwarder.counters = l.forwarder.counters ∧
        callsIn (l.run (opening ++ [.forwarder (.work b)])).2 = [.dial endpoint s.credentials] := by
  obtain ⟨target, endpoint, hhead, hmem, hparse, hwork⟩ := h.work_of_visiting husable hphase
  refine ⟨target, endpoint, hhead, hmem, hparse, fun a between b hidle => ?_⟩
  intro opening
  obtain ⟨hworked, hsilent⟩ := hwork a
  have hbegun : (l.step (.forwarder (.work a))).1.forwarder = { l.forwarder with
      phase := .seeking p (.dialing ⟨target, endpoint, s.attempts.toNat, 0⟩) } := hworked
  obtain ⟨hphase', hfailover, hcounters, hcalls⟩ :=
    still_run (l := (l.step (.forwarder (.work a))).1) hidle (by rw [hbegun]; nofun)
  rw [hbegun] at hphase' hfailover hcounters
  refine ⟨hcounters, ?_⟩
  have hbefore : callsIn (l.run opening).2 = [] := by
    show callsIn ((l.step (.forwarder (.work a))).2 ++
      ((l.step (.forwarder (.work a))).1.run between).2) = []
    rw [callsIn_append, hcalls]
    show callsIn (l.forwarder.work a).2 ++ [] = []
    rw [hsilent]
    rfl
  have hdial : (l.run opening).1.forwarder.call? = some (.dial endpoint s.credentials) := by
    have hlast : (l.run opening).1.forwarder.phase =
        .seeking p (.dialing ⟨target, endpoint, s.attempts.toNat, 0⟩) := hphase'
    have hterms : (l.run opening).1.forwarder.failover = l.forwarder.failover := hfailover
    simp only [Forwarder.call?, hlast, Forwarder.heedsSignal, Failover.call?, hterms,
      h.credentials]
    rfl
  rw [notes_append, callsIn_append, hbefore]
  show callsIn (((l.run opening).1.step (.forwarder (.work b))).2 ++ []) = _
  rw [List.append_nil, callsIn_step, hdial]
  rfl

end Link

/-- The backlogs of all links can be asked for. -/
def NodeSettings.HasRoom (n : NodeSettings) : Prop :=
  n.links = [] ∨ Backlog.Fits n.capacity.toNat

instance (n : NodeSettings) : Decidable n.HasRoom :=
  inferInstanceAs (Decidable (_ ∨ _))

namespace Relay

theorem linksOf_eq_made (n : NodeSettings) {ss : List LinkSettings}
    (hroom : ss = [] ∨ Backlog.Fits n.capacity.toNat) (h : ∀ s ∈ ss, s.targets ≠ []) :
    linksOf n ss = .done (ss.map fun s => Link.made s n.port n.capacity.toNat) := by
  induction ss with
  | nil => rfl
  | cons s ss ih =>
      have hfits : Backlog.Fits n.capacity.toNat := hroom.resolve_left (List.cons_ne_nil s ss)
      obtain ⟨hs, hss⟩ := List.forall_mem_cons.mp h
      rw [linksOf, Link.ofSettings_eq_made hfits hs, ih (Or.inr hfits) hss]
      rfl

theorem start_of_check_error {n : NodeSettings} {fault : Fault} (h : n.check = .error fault) :
    start n = .refused fault := by
  rw [start, h]
  rfl

/-- The first backlog that is asked for is one too many. -/
theorem start_of_no_room {n : NodeSettings} (h : n.check = .ok ()) (hroom : ¬ n.HasRoom) :
    start n = .crashed ⟨some "capacity overflow"⟩ := by
  obtain ⟨hlinks, hfits⟩ := not_or.mp hroom
  obtain ⟨s, ss, hne⟩ := List.exists_cons_of_ne_nil hlinks
  rw [start, h, hne, linksOf, Link.ofSettings_of_not_fits hfits]
  rfl

/-- With settings that pass the check all links are made and started. -/
theorem start_of_check {n : NodeSettings} (h : n.check = .ok ()) (hroom : n.HasRoom) :
    ∃ lines, start n =
      .done (⟨n, n.links.map fun s => Link.begun s n.port n.capacity.toNat⟩, lines) := by
  obtain ⟨-, hlinks, -⟩ := NodeSettings.check_eq_ok_iff.mp h
  have hmade := linksOf_eq_made n hroom fun s hs => (hlinks s hs).2.targets
  refine ⟨(n.links.map fun s => Link.made s n.port n.capacity.toNat).map Link.announcement ++
    [.info "WAN replication started"], ?_⟩
  have hbegun : (n.links.map fun s => Link.made s n.port n.capacity.toNat).map
      (fun l => (l.onForwarder .start).1) = n.links.map fun s =>
        Link.begun s n.port n.capacity.toNat := List.map_map
  rw [start, h, hmade, ← hbegun]
  rfl

/-- Nothing starts but settings that pass the check and have room. -/
theorem check_of_start {n : NodeSettings} {r : Relay} {lines : List LogLine}
    (h : start n = .done (r, lines)) : n.check = .ok () ∧ n.HasRoom := by
  obtain ⟨_, hcheck, _⟩ := Outcome.done_of_bind h
  have hpassed : n.check = .ok () := Outcome.done_of_ofExcept hcheck
  by_cases hroom : n.HasRoom
  · exact ⟨hpassed, hroom⟩
  · rw [start_of_no_room hpassed hroom] at h
    cases h

/-- Where the links of a relay come from. -/
theorem links_of_start {n : NodeSettings} {r : Relay} {lines : List LogLine}
    (h : start n = .done (r, lines)) :
    r.links = n.links.map (fun s => Link.begun s n.port n.capacity.toNat) ∧
      (r.links.map Link.name).Nodup := by
  obtain ⟨hcheck, hroom⟩ := check_of_start h
  obtain ⟨lines', hstart⟩ := start_of_check hcheck hroom
  rw [hstart] at h
  cases h
  refine ⟨rfl, ?_⟩
  rw [List.map_map]
  exact (NodeSettings.check_eq_ok_iff.mp hcheck).2.2

/-- Where no two links share a name, a name leads to its link. -/
theorem find?_of_nodup {ls : List Link} (hnodup : (ls.map Link.name).Nodup) {l : Link}
    (hl : l ∈ ls) : ls.find? (·.name = l.name) = some l := by
  induction ls with
  | nil => cases hl
  | cons l' ls ih =>
      obtain ⟨hnew, hrest⟩ := List.nodup_cons.mp hnodup
      rcases List.mem_cons.mp hl with rfl | hmem
      · simp
      · have hother : l'.name ≠ l.name := fun hsame =>
          hnew (List.mem_map.mpr ⟨l, hmem, hsame.symm⟩)
        rw [List.find?_cons_of_neg (by simpa using hother), ih hrest hmem]

end Relay

/-- Settings that fail the check start nothing, and the fault is the one that the check found.
Settings that pass it may still ask for backlogs that cannot be allocated, which is a crash. All
others start one link for each that they ask for, in their order, and each is found by its name.
Whatever then happens to a link: it only ever dials endpoints that its targets name; a visit that
begins always finds a target, names its endpoint, and dials it before anything else happens to the
visit; and only visits that came so far are ever in vain. -/
theorem checked_settings_serve (n : NodeSettings) :
    (∀ fault, n.check = .error fault → Relay.start n = .refused fault) ∧
    (n.check = .ok () → ¬ n.HasRoom →
      Relay.start n = .crashed ⟨some "capacity overflow"⟩) ∧
    (n.check = .ok () → n.HasRoom → ∃ r lines, Relay.start n = .done (r, lines) ∧
      r.links.map Link.name = n.links.map LinkSettings.name ∧
      ∀ (place : Nat) s, n.links[place]? = some s → ∃ l made,
        r.links[place]? = some l ∧ r.link? s.name = some l ∧
        Link.ofSettings s n.port n.capacity.toNat = .done made ∧
        l = (made.onForwarder .start).1 ∧
        ∀ es : List LinkEvent,
          let last := (l.run es).1
          (∀ endpoint credentials, .dial endpoint credentials ∈ callsIn (l.run es).2 →
            credentials = s.credentials ∧
              ∃ target ∈ s.targets, Endpoint.ofTarget target n.port = .ok endpoint) ∧
          (∀ p, last.forwarder.phase = .seeking p .visiting → ∃ target endpoint,
            last.forwarder.failover.rotation.head? = some target ∧ target ∈ s.targets ∧
            Endpoint.ofTarget target n.port = .ok endpoint ∧
            ∀ a between b, (∀ e ∈ between, e.isWork = false) →
              let opening := .forwarder (.work a) :: between
              (last.run opening).1.forwarder.counters = last.forwarder.counters ∧
              callsIn (last.run (opening ++ [.forwarder (.work b)])).2 =
                [.dial endpoint s.credentials]) ∧
          ∀ a, (last.forwarder.work a).1.counters.connectFailures ≠
              last.forwarder.counters.connectFailures →
            ∃ p place v, last.forwarder.phase = .seeking p place ∧ place.visit? = some v ∧
              v.target ∈ s.targets ∧ Endpoint.ofTarget v.target n.port = .ok v.endpoint) := by
  refine ⟨fun fault => Relay.start_of_check_error, Relay.start_of_no_room, fun hcheck hroom => ?_⟩
  obtain ⟨-, hlinks, hnodup⟩ := NodeSettings.check_eq_ok_iff.mp hcheck
  obtain ⟨lines, hstart⟩ := Relay.start_of_check hcheck hroom
  have hnames : (n.links.map fun s => Link.begun s n.port n.capacity.toNat).map Link.name =
      n.links.map LinkSettings.name := by
    rw [List.map_map]
    rfl
  refine ⟨_, lines, hstart, hnames, fun place s hs => ?_⟩
  have hmem : s ∈ n.links := List.mem_of_getElem? hs
  have husable := (hlinks s hmem).2
  have hfits : Backlog.Fits n.capacity.toNat := hroom.resolve_left (List.ne_nil_of_mem hmem)
  refine ⟨Link.begun s n.port n.capacity.toNat, _, ?_, ?_,
    Link.ofSettings_eq_made hfits husable.targets, rfl, fun es => ?_⟩
  · rw [List.getElem?_map, hs]
    rfl
  · exact Relay.find?_of_nodup (hnames ▸ hnodup)
      (List.mem_map.mpr ⟨s, hmem, rfl⟩)
  · have hbegun := Link.serves_begun s n.port n.capacity.toNat
    have hserves := Link.serves_run hbegun es
    exact ⟨fun endpoint credentials => Link.dialed_run hbegun es,
      fun p => Link.dialed_of_visiting hserves husable, hserves.failed husable⟩

/-- The first of two links begins a visit, is told to stop, and dials all the same. -/
theorem checked_settings_serve_told_to_stop :
    let tokyo : LinkSettings :=
      ⟨"tokyo", ⟨"tokyo", "pass"⟩, ["[::1]:5702", "t2"], 10, 1000, .fixed⟩
    let london : LinkSettings := ⟨"london", ⟨"london", "pass"⟩, ["l1"], 10, 1000, .fixed⟩
    let n : NodeSettings := ⟨"node-a", 5701, 100000, [tokyo, london]⟩
    let work : LinkEvent := .forwarder (.work {})
    let es := [.offer ⟨"orders", "k".toUTF8, "v".toUTF8⟩, work, work, work]
    n.check = .ok () ∧ n.HasRoom ∧ ∃ r lines l, Relay.start n = .done (r, lines) ∧
      r.links.map Link.name = ["tokyo", "london"] ∧ r.link? "tokyo" = some l ∧
      callsIn ((l.run es).1.run [work, .stop, work]).2 =
        [.dial ⟨"::1", 5702⟩ ⟨"tokyo", "pass"⟩] := by
  intro tokyo london n work es
  have hcheck : n.check = .ok () := by decide
  have hroom : n.HasRoom := by decide
  obtain ⟨r, lines, hstart, hnames, hlinks⟩ := (checked_settings_serve n).2.2 hcheck hroom
  obtain ⟨l, made, -, hfound, hmade, hbegun, hserves⟩ := hlinks 0 tokyo rfl
  refine ⟨hcheck, hroom, r, lines, l, hstart, hnames, hfound, ?_⟩
  have hfits : Backlog.Fits n.capacity.toNat := hroom.resolve_left (List.cons_ne_nil _ _)
  rw [Link.ofSettings_eq_made hfits (List.cons_ne_nil _ _)] at hmade
  cases hmade
  subst hbegun
  obtain ⟨target, endpoint, hhead, -, hparse, hdials⟩ := (hserves es).2.1 _ rfl
  cases hhead
  cases hparse
  exact (hdials {} [.stop] {} (by decide)).2

/-- The check lets a capacity pass that no machine can allocate. -/
theorem checked_settings_crash :
    let tokyo : LinkSettings := ⟨"tokyo", ⟨"tokyo", "pass"⟩, ["t1"], 10, 1000, .fixed⟩
    let n : NodeSettings := ⟨"node-a", 5701, 18446744073709551615, [tokyo]⟩
    n.check = .ok () ∧ ¬ ∃ r lines, Relay.start n = .done (r, lines) := by
  intro tokyo n
  have hcheck : n.check = .ok () := by decide
  have hroom : ¬ n.HasRoom := by decide
  refine ⟨hcheck, ?_⟩
  rintro ⟨r, lines, hstart⟩
  rw [Relay.start_of_no_room hcheck hroom] at hstart
  cases hstart

/-- Two links of the same name are refused, and neither is started. -/
example :
    let tokyo : LinkSettings := ⟨"tokyo", ⟨"tokyo", "pass"⟩, ["t1"], 10, 1000, .fixed⟩
    (Relay.start ⟨"node-a", 5701, 100000, [tokyo, tokyo]⟩).bind (fun _ => .done ()) =
      .refused (.settings "duplicate link name: tokyo") := by
  decide

end ClusterRelay
