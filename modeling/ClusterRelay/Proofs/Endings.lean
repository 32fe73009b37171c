import ClusterRelay.Proofs.Stopping

/-!
# How soon a forwarder ends

A forwarder that is suspended when the signal to stop comes has two steps of work left. One that is
busy does not look for the signal before it has come to a place where it does, but no such place is
far away. `Forwarder.left` counts the steps. On the way from one place to the next each step is a
call on the network at most, and the longest way is the one from a connection that turned out dead,
by a dial, a probe, a submission and a probe again, to the choice of the next mutation.

Every step of work takes one off the count, whatever the network answers, and nothing else that
happens to a forwarder adds to it.
-/

namespace ClusterRelay

/-- The steps that a search has left when it was told to stop, and the steps after it. -/
def Seek.left : Seek → Nat
  | .verifying | .pausing _ _ | .resting _ => 2
  | .discarding _ _ | .lapsing _ _ _ => 3
  | .probing _ _ => 5
  | .dialing _ => 6
  | .visiting => 7
  | .dropping _ => 8

def Progress.left : Progress → Nat
  | .seeking next => next.left
  | .found _ => 4
  | .broken _ => 0

/-- Where the signal is not looked for it takes more than two steps. -/
theorem Seek.two_lt_left {s : Seek} (hs : Forwarder.heedsSignal s = false) : 2 < s.left := by
  cases s with
  | verifying | pausing | resting => cases hs
  | dropping | visiting | dialing | probing | discarding | lapsing => simp [left]

namespace Failover

variable {f f' : Failover} {c : Counters} {now : Nat} {a : Answers} {s next : Seek}

theorem Steps.left (h : f.Steps now s f' next) (hs : Forwarder.heedsSignal s = false) :
    next.left < s.left := by
  cases h with
  | asleep hwake =>
      cases s with
      | verifying | pausing | resting => cases hs
      | dropping | visiting | dialing | probing | discarding | lapsing => cases hwake
  | unused | retired | again | turned => cases hs
  | dropped | begun | dialed | dead | lapsed => simp [Seek.left]
  | paused => exact Seek.two_lt_left hs
  | rested => exact Seek.two_lt_left hs

/-- A search that does not look for the signal comes nearer to a place where it does. -/
theorem left_step (hs : Forwarder.heedsSignal s = false) :
    (f.step c now a s).progress.left < s.left := by
  have hshift := shift_step f c now a s
  have hfollows := step_follows f c now a s
  generalize f.step c now a s = t at hshift hfollows
  cases hprogress : t.progress with
  | seeking next => exact (hfollows next hprogress).left hs
  | found conn =>
      cases hshift with
      | kept keeps => exact absurd hprogress (keeps.unfound conn)
      | confirmed | retired | rotated => cases hs
      | settled => exact Nat.lt_succ_self 4
  | broken crash => exact Nat.lt_trans Nat.zero_lt_two (Seek.two_lt_left hs)

end Failover

namespace Forwarder

variable {w : Forwarder}

/-- The steps of work that a forwarder which was told to stop has left at most. -/
def left (w : Forwarder) : Nat :=
  match w.phase with
  | .idle | .ended _ => 0
  | .closing _ => 1
  | .choosing | .waiting => 2
  | .confirming _ _ => 3
  | .submitting _ _ => 4
  | .seeking _ s => s.left

theorem left_le (w : Forwarder) : w.left ≤ 8 := by
  unfold left
  split
  case h_8 s _ => cases s <;> simp [Seek.left]
  all_goals decide

theorem left_finish : w.finish.1.left ≤ 1 := by
  unfold finish
  cases w.failover.active with
  | none => exact Nat.zero_le 1
  | some active => exact Nat.le_refl 1

theorem left_seek {p : Parcel} {s : Seek} (hgiven : w.signal = .given) (a : Answers) :
    (w.seek p s a).1.left < s.left := by
  have hstop : w.stopping = true := by rw [stopping, hgiven]; rfl
  unfold seek
  split
  · next hheeds =>
      rw [hstop, Bool.and_true] at hheeds
      have htwo : 2 ≤ s.left := by cases s <;> simp [Seek.left]
      exact Nat.lt_of_lt_of_le (Nat.lt_succ_of_le left_finish) htwo
  · next hunheeded =>
      rw [hstop, Bool.and_true, Bool.not_eq_true] at hunheeded
      have hturn : (w.failover.step w.counters w.now a s).progress.left < s.left :=
        Failover.left_step hunheeded
      simp only
      split
      · next hprogress => rwa [hprogress] at hturn
      · next hprogress => rwa [hprogress] at hturn
      · next hprogress => rwa [hprogress] at hturn

/-- With every step of work a forwarder that was told to stop comes nearer to its end. -/
theorem left_work (hgiven : w.signal = .given) (a : Answers) : (w.work a).1.left ≤ w.left - 1 := by
  have hstop : w.stopping = true := by rw [stopping, hgiven]; rfl
  unfold work
  split
  · next hphase => simp [left, hphase]
  · next hphase =>
      rw [choose, if_pos hgiven]
      simpa [left, hphase] using left_finish
  · next hphase =>
      rw [await, hstop]
      simpa [left, hphase] using left_finish
  · next p s hphase =>
      have hseek := left_seek (p := p) (s := s) hgiven a
      have hleft : w.left = s.left := by rw [left, hphase]
      omega
  · next p conn hphase =>
      rcases phase_submit w p conn a with hnext | hnext | ⟨crash, hnext⟩ <;>
        simp [left, hphase, hnext]
  · next p conn hphase =>
      rcases phase_confirm w p conn a with hnext | ⟨crash, hnext⟩ <;> simp [left, hphase, hnext]
  · next conn hphase => exact Nat.zero_le _
  · next how hphase => simp [left, hphase]

theorem started_finish : w.finish.1.phase ≠ .idle := by
  unfold finish
  cases w.failover.active <;> nofun

theorem started_seek {p : Parcel} {s : Seek} (a : Answers) : (w.seek p s a).1.phase ≠ .idle := by
  unfold seek
  split
  · exact started_finish
  · simp only
    split <;> nofun

/-- A forwarder that has once been started is never idle again. -/
theorem started_work (hstarted : w.phase ≠ .idle) (a : Answers) : (w.work a).1.phase ≠ .idle := by
  unfold work
  split
  · next hphase => exact absurd hphase hstarted
  · unfold choose
    split
    · exact started_finish
    · split <;> nofun
  · next hphase =>
      unfold await
      split
      · exact started_finish
      · split
        · nofun
        · rw [hphase]
          nofun
  · exact started_seek a
  · next p conn _ =>
      rcases phase_submit w p conn a with hnext | hnext | ⟨crash, hnext⟩ <;> simp [hnext]
  · next p conn _ => rcases phase_confirm w p conn a with hnext | ⟨crash, hnext⟩ <;> simp [hnext]
  · nofun
  · exact hstarted

theorem begin_of_started (hstarted : w.phase ≠ .idle) : w.begin = (w, []) := by
  unfold begin
  split
  · next hidle => exact absurd hidle hstarted
  · rfl

theorem started_step (hstarted : w.phase ≠ .idle) (e : Event) : (w.step e).1.phase ≠ .idle := by
  cases e with
  | start =>
      rw [step, begin_of_started hstarted]
      exact hstarted
  | offer | elapse => exact hstarted
  | stop =>
      simp only [step, signalStop]
      split <;> exact hstarted
  | orphan =>
      simp only [step, orphan]
      split <;> exact hstarted
  | work a => exact started_work hstarted a

theorem started_run (hstarted : w.phase ≠ .idle) (es : List Event) :
    (w.run es).1.phase ≠ .idle := by
  induction es generalizing w with
  | nil => exact hstarted
  | cons e es ih => exact ih (started_step hstarted e)

/-- A forwarder that was started, and then told to stop. -/
structure Bound (w : Forwarder) : Prop where
  started : w.phase ≠ .idle
  given : w.signal = .given

theorem Bound.step (h : w.Bound) (e : Event) :
    (w.step e).1.Bound ∧ (w.step e).1.left ≤ w.left - e.isWork.toNat := by
  have hstarted := started_step h.started e
  cases e with
  | start =>
      rw [Forwarder.step, begin_of_started h.started]
      exact ⟨h, Nat.le_refl _⟩
  | offer m => exact ⟨⟨hstarted, h.given⟩, Nat.le_refl _⟩
  | stop =>
      have hsame : w.signalStop = w := by simp [signalStop, h.given]
      rw [Forwarder.step, hsame]
      exact ⟨h, Nat.le_refl _⟩
  | orphan =>
      have hsame : w.orphan = w := by simp [orphan, h.given]
      rw [Forwarder.step, hsame]
      exact ⟨h, Nat.le_refl _⟩
  | elapse moment => exact ⟨⟨hstarted, h.given⟩, Nat.le_refl _⟩
  | work a => exact ⟨⟨hstarted, (signal_work w a).trans h.given⟩, left_work h.given a⟩

theorem Bound.ended (h : w.Bound) (hleft : w.left = 0) : ∃ how, w.phase = .ended how := by
  unfold left at hleft
  split at hleft
  · next hidle => exact absurd hidle h.started
  · next how hended => exact ⟨how, hended⟩
  case h_8 s _ => cases s <;> cases hleft
  all_goals cases hleft

end Forwarder

end ClusterRelay
