import ClusterRelay.Proofs.Turns
import Mathlib.Data.List.Rotate

/-!
# No target is lost, doubled or overtaken

A search moves a target in two ways, and neither is a single step: the target it settles
on was read at the beginning of the visit and is taken out many delays later, and the
target behind the connection in use is out of the rotation for as long as that connection
lives. Between the two moves the search may be dropped, at any delay.

The invariant is that nothing of this shows in the cyclic order. Put the target in use
behind the rotation: settling takes it from the head and puts it there, retiring merely
joins it on, and a rotation turns the cycle by one. So the list is always the configured
one up to a turn, doubles included, and since that list is not empty neither is the
rotation when a visit begins.
-/

namespace ClusterRelay

open scoped List

/-- Whoever calls for connections, one search at a time. -/
structure Searcher where
  failover : Failover
  counters : Counters := {}
  /-- Where the search stands that is under way, if one is. -/
  seek? : Option Seek := none

/-- What can happen to a searcher. -/
inductive SearchEvent where
  | call
  /-- The search goes one step further at this time. The pacing is part of the event, as the
  answers are, because it may say something else each time that it is consulted. -/
  | work (now : Nat) (pacing : Pacing) (answers : Answers)
  /-- The search is dropped, if it has not begun or is suspended. -/
  | drop

namespace Searcher

/-- One step of the search under way. A search that finds a connection, or that a crash gets
through to, is over. -/
def advance (s : Searcher) (now : Nat) (pacing : Pacing) (a : Answers) (seek : Seek) : Searcher :=
  let turn := { s.failover with pacing }.step s.counters now a seek
  { failover := turn.failover
    counters := turn.counters
    seek? := match turn.progress with
      | .seeking next => some next
      | .found _ | .broken _ => none }

/-- The search under way can be dropped. -/
def droppable (s : Searcher) : Bool :=
  match s.seek? with
  | some .verifying => true
  | some seek => seek.wake?.isSome
  | none => false

def step (s : Searcher) : SearchEvent → Searcher
  | .call => if s.seek?.isNone then { s with seek? := some .verifying } else s
  | .work now pacing a =>
    match s.seek? with
    | some seek => s.advance now pacing a seek
    | none => s
  | .drop => if s.droppable then { s with seek? := none } else s

def run (s : Searcher) (es : List SearchEvent) : Searcher := es.foldl step s

end Searcher

namespace Failover

/-- All targets in their cyclic order: those that wait, then the one in use. -/
def cycle (f : Failover) : List String := f.rotation ++ f.activeTarget.toList

theorem cycle_rotated (f : Failover) (h : f.active = none) : f.rotated.cycle ~r f.cycle := by
  unfold rotated
  split
  · exact List.IsRotated.refl _
  · next target others hrot =>
      have hidle : f.activeTarget = none := by rw [activeTarget, h]; rfl
      have hidle' : ({ f with rotation := others ++ [target] } : Failover).activeTarget = none :=
        hidle
      rw [cycle, cycle, hidle, hidle', hrot]
      simpa using List.isRotated_concat target others

theorem cycle_step {f : Failover} {c : Counters} {now : Nat} {a : Answers} {s : Seek}
    (h : f.Placed s) : (f.step c now a s).failover.cycle ~r f.cycle := by
  have hshift := shift_step f c now a s
  generalize f.step c now a s = t at hshift
  cases hshift with
  | kept keeps => rw [keeps.failover]
  | confirmed _ _ => exact List.IsRotated.refl _
  | @retired target conn notes hactive _ _ _ =>
      have hused : f.activeTarget = some target := by rw [activeTarget, hactive]; rfl
      have hcycle : (f.retire c notes target conn).failover.cycle = f.cycle := by
        rw [cycle, cycle, hused]
        simp [retire, activeTarget]
      rw [hcycle]
  | @settled v conn _ =>
      -- The visit names the head, so what is taken from the rotation is what is put to use.
      have hidle : f.activeTarget = none := by rw [activeTarget, h.unused nofun]; rfl
      obtain ⟨others, hrot⟩ := List.head?_eq_some_iff.mp (h.head v rfl)
      rw [cycle, cycle, hidle, hrot]
      simpa [settle, activeTarget, hrot] using List.isRotated_concat v.target others
  | rotated => exact cycle_rotated f (h.unused nofun)

theorem published_step {f : Failover} {c : Counters} {now : Nat} {a : Answers} {s : Seek}
    (hs : f.Placed s) (h : c.activeTarget = f.activeTarget) :
    (f.step c now a s).counters.activeTarget = (f.step c now a s).failover.activeTarget := by
  have hshift := shift_step f c now a s
  generalize f.step c now a s = t at hshift
  cases hshift with
  | kept keeps => rw [keeps.failover, keeps.activeTarget, h]
  | confirmed _ _ => exact h
  | retired _ _ _ _ => rfl
  | settled _ => rfl
  | rotated =>
      show c.activeTarget = f.rotated.activeTarget
      have hkeep : f.rotated.active = f.active := by unfold rotated; split <;> rfl
      rw [h, activeTarget, activeTarget, hkeep]

end Failover

/-- All targets are there in their order, the one in use is published, and the search under
way, if there is one, agrees with them. -/
structure Searcher.Whole (targets : List String) (s : Searcher) : Prop where
  cyclic : s.failover.cycle ~r targets
  published : s.counters.activeTarget = s.failover.activeTarget
  placed : ∀ seek, s.seek? = some seek → s.failover.Placed seek

namespace Searcher

variable {targets : List String} {s : Searcher}

theorem whole_advance {seek : Seek} (h : s.Whole targets) (hseek : s.seek? = some seek)
    (now : Nat) (pacing : Pacing) (a : Answers) : (s.advance now pacing a seek).Whole targets := by
  have hplaced : ({ s.failover with pacing } : Failover).Placed seek :=
    ⟨(h.placed seek hseek).unused, (h.placed seek hseek).head⟩
  refine ⟨?_, ?_, ?_⟩
  · exact (Failover.cycle_step hplaced).trans h.cyclic
  · exact Failover.published_step hplaced h.published
  · intro next hnext
    apply Failover.step_leads hplaced next
    simp only [advance] at hnext
    split at hnext
    · next h' => cases hnext; exact h'
    · cases hnext
    · cases hnext

theorem whole_step (h : s.Whole targets) (e : SearchEvent) : (s.step e).Whole targets := by
  cases e with
  | call =>
      simp only [step]
      split
      · exact ⟨h.cyclic, h.published, fun seek hs => by cases hs; exact Failover.placed_verifying⟩
      · exact h
  | work now pacing a =>
      simp only [step]
      split
      · next hseek => exact whole_advance h hseek now pacing a
      · exact h
  | drop =>
      simp only [step]
      split
      · exact ⟨h.cyclic, h.published, nofun⟩
      · exact h

theorem whole_run (h : s.Whole targets) (es : List SearchEvent) : (s.run es).Whole targets := by
  induction es generalizing s with
  | nil => exact h
  | cons e es ih => exact ih (whole_step h e)

/-- Where a visit is about to begin there is a target to visit: the cycle is not empty, and
none of it is in use. -/
theorem Whole.rotation_ne_nil (h : s.Whole targets) (hne : targets ≠ [])
    (hvisit : s.seek? = some .visiting) : s.failover.rotation ≠ [] := by
  intro hempty
  have hidle : s.failover.activeTarget = none := by
    rw [Failover.activeTarget, (h.placed _ hvisit).unused nofun]
    rfl
  have hnil : s.failover.cycle = [] := by rw [Failover.cycle, hempty, hidle]; rfl
  have := h.cyclic
  rw [hnil] at this
  exact hne (List.isRotated_nil_iff'.mp this).symm

end Searcher

/-- Whatever the network and the pacing do, and wherever searches are dropped: the targets
that wait followed by the one in use are the configured ones up to a turn of the cycle, the
target in use is the one published, and no visit ever finds the rotation empty. -/
theorem targets_conserved {targets : List String} (hne : targets ≠ []) (link : String)
    (port : UInt16) (credentials : Credentials) (pacing : Pacing) (es : List SearchEvent) :
    ∃ f, Failover.start link targets port credentials pacing = .ok f ∧
      let s := Searcher.run { failover := f } es
      (s.failover.rotation ++ s.failover.activeTarget.toList) ~r targets ∧
      s.counters.activeTarget = s.failover.activeTarget ∧
      (s.seek? = some .visiting → s.failover.rotation ≠ []) := by
  refine ⟨{ link, rotation := targets, port, credentials, pacing }, if_neg hne, ?_⟩
  have hstart : Searcher.Whole targets
      { failover := { link, rotation := targets, port, credentials, pacing } } := by
    refine ⟨?_, rfl, nofun⟩
    show targets ++ [] ~r targets
    rw [List.append_nil]
  have h := Searcher.whole_run hstart es
  exact ⟨h.cyclic, h.published, h.rotation_ne_nil hne⟩

theorem targets_conserved_doubled :
    ∃ f, Failover.start "link" ["h", "h"] 5701 ⟨"tokyo", "pass"⟩ Schedule.standard.pacing = .ok f ∧
      let s := Searcher.run { failover := f }
        [.call, .work 0 Schedule.standard.pacing {}, .work 0 Schedule.standard.pacing {},
          .work 0 Schedule.standard.pacing { dial := .done (some 7) },
          .work 0 Schedule.standard.pacing {}]
      s.failover.active = some ("h", 7) ∧
      (s.failover.rotation ++ s.failover.activeTarget.toList) ~r ["h", "h"] := by
  obtain ⟨f, hf, h⟩ := targets_conserved (show ["h", "h"] ≠ [] by simp) "link" 5701
    ⟨"tokyo", "pass"⟩ Schedule.standard.pacing
    [.call, .work 0 Schedule.standard.pacing {}, .work 0 Schedule.standard.pacing {},
      .work 0 Schedule.standard.pacing { dial := .done (some 7) },
      .work 0 Schedule.standard.pacing {}]
  refine ⟨f, hf, ?_, h.1⟩
  cases hf
  rfl

end ClusterRelay
