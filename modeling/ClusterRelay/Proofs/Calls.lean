import ClusterRelay.Proofs.Vigilance

/-!
# What is told is what was called

A forwarder announces the call of its next step, and afterwards the notes of the step tell of the
calls it made. Whoever runs a forwarder acts on the announcement, and whoever reads a journal has
only the notes, so the two had better be the same: a step of work makes the one call that was
announced, or none if there was none, and nothing but work makes a call at all.
-/

namespace ClusterRelay

/-- Calls and their answers are told in the same notes. -/
theorem callsIn_calledIn (notes : List Note) : callsIn (calledIn notes) = callsIn notes := by
  induction notes with
  | nil => rfl
  | cons n notes ih =>
      unfold callsIn calledIn at ih ⊢
      cases hcall : n.call? with
      | none => simp [Note.isCall, hcall, ih]
      | some call => simp [Note.isCall, hcall, ih]

theorem Turn.Vain.callsIn {calls : List Note} {t : Turn} (h : t.Vain calls) :
    ClusterRelay.callsIn t.notes = ClusterRelay.callsIn calls := by
  rw [← h.calls, callsIn_calledIn]

namespace Failover

variable {f : Failover} {c : Counters} {now : Nat} {a : Answers}

theorem callsIn_failed (notes : List Note) (target : String) (fault : Fault) :
    callsIn (f.failed c now notes target fault).notes = callsIn notes := by
  rw [(vain_failed notes target fault).callsIn, callsIn_calledIn]

theorem callsIn_pause (notes : List Note) (v : Visit) :
    callsIn (f.pause c now notes v).notes = callsIn notes := by
  rw [(vain_pause notes v).callsIn, callsIn_calledIn]

theorem callsIn_caught {notes : List Note} {next : Turn}
    (h : callsIn next.notes = callsIn notes) :
    callsIn (f.caught c a notes next).notes = callsIn notes := by
  rcases f.caught_cases c a notes next with hcaught | ⟨crash, hcaught⟩
  · rw [hcaught]
    exact h
  · rw [hcaught]

/-- A step of a search makes the call that was announced. -/
theorem callsIn_step (f : Failover) (c : Counters) (now : Nat) (a : Answers) (s : Seek) :
    callsIn (f.step c now a s).notes = (f.call? s).toList := by
  cases s with
  | verifying =>
      simp only [step, call?]
      split
      · next hactive => rw [hactive]; rfl
      · next target conn hactive =>
          rw [hactive]
          split
          · rfl
          · rfl
          · exact callsIn_caught rfl
  | dropping conn =>
      simp only [step]
      split <;> rfl
  | visiting => exact vain_visit.callsIn
  | dialing v =>
      simp only [step]
      split
      · exact callsIn_pause _ v
      · rfl
      · exact callsIn_failed _ _ _
      · exact callsIn_caught (callsIn_failed _ _ _)
  | probing v conn =>
      simp only [step]
      split <;> rfl
  | discarding v conn =>
      simp only [step]
      split
      · exact callsIn_pause _ v
      · exact callsIn_caught (callsIn_failed _ _ _)
  | lapsing v conn crash => exact callsIn_caught (callsIn_failed _ _ _)
  | pausing v wake =>
      simp only [step]
      split
      · rfl
      · exact (vain_nextPoll v).callsIn
  | resting wake =>
      simp only [step]
      split <;> rfl

end Failover

namespace Forwarder

variable {w : Forwarder}

theorem callsIn_finish : callsIn w.finish.2 = [] := rfl

/-- A call is told before what becomes of it. -/
theorem callsIn_cons_caught {n : Note} {a : Answers} {handled : Forwarder × List Note}
    (h : callsIn handled.2 = []) : callsIn (n :: (w.caught a handled).2) = callsIn [n] := by
  have hcaught : callsIn (w.caught a handled).2 = [] := by
    rcases w.caught_cases a handled with hcaught | ⟨crash, hcaught⟩
    · rw [hcaught]
      exact h
    · rw [hcaught]
      rfl
  rw [← List.singleton_append, callsIn_append, hcaught, List.append_nil]

/-- So does a step of work. -/
theorem callsIn_work (w : Forwarder) (a : Answers) : callsIn (w.work a).2 = w.call?.toList := by
  cases hphase : w.phase with
  | idle => simp only [work, call?, hphase]; rfl
  | choosing =>
      simp only [work, call?, hphase, choose]
      split
      · exact callsIn_finish
      · split <;> rfl
  | waiting =>
      simp only [work, call?, hphase, await]
      split
      · exact callsIn_finish
      · split <;> rfl
  | seeking p s =>
      simp only [work, call?, hphase, seek]
      split
      · exact callsIn_finish
      · have hcalls := w.failover.callsIn_step w.counters w.now a s
        split
        · exact hcalls
        · exact hcalls
        · rw [callsIn_append, hcalls]
          exact List.append_nil _
  | submitting p conn =>
      simp only [work, call?, hphase, submit]
      cases frameOf p with
      | error fault => rfl
      | ok frame =>
          simp only
          split
          · rfl
          · rfl
          · exact callsIn_cons_caught rfl
  | confirming p conn =>
      simp only [work, call?, hphase, confirm]
      split
      · rfl
      · rfl
      · exact callsIn_cons_caught rfl
  | closing conn => simp only [work, call?, hphase, close]; rfl
  | ended how => simp only [work, call?, hphase]; rfl

theorem callsIn_step (w : Forwarder) (e : Event) :
    callsIn (w.step e).2 = if e.isWork then w.call?.toList else [] := by
  cases e with
  | start =>
      simp only [step, begin]
      split <;> rfl
  | offer m => exact callsIn_offer w m
  | stop | orphan | elapse => rfl
  | work a => exact callsIn_work w a

/-- Nothing but work moves a forwarder on, once it is started, or touches what it knows about its
targets. -/
theorem still_step {e : Event} (hidle : e.isWork = false) (hstarted : w.phase ≠ .idle) :
    (w.step e).1.phase = w.phase ∧ (w.step e).1.failover = w.failover ∧
      (w.step e).1.counters = w.counters := by
  cases e with
  | start =>
      have hbegun : w.begin = (w, []) := by
        unfold begin
        split
        · next hphase => exact absurd hphase hstarted
        · rfl
      rw [step, hbegun]
      exact ⟨rfl, rfl, rfl⟩
  | offer m => exact ⟨rfl, rfl, rfl⟩
  | stop =>
      simp only [step, signalStop]
      split <;> exact ⟨rfl, rfl, rfl⟩
  | orphan =>
      simp only [step, orphan]
      split <;> exact ⟨rfl, rfl, rfl⟩
  | elapse moment => exact ⟨rfl, rfl, rfl⟩
  | work a => cases hidle

end Forwarder

/-! ## Links -/

/-- The forwarder of the link gets to work. -/
def LinkEvent.isWork : LinkEvent → Bool
  | .forwarder e => e.isWork
  | _ => false

namespace Link

variable {l : Link}

theorem notes_append (l : Link) (es later : List LinkEvent) :
    (l.run (es ++ later)).2 = (l.run es).2 ++ ((l.run es).1.run later).2 := by
  induction es generalizing l with
  | nil => rfl
  | cons e es ih =>
      show (l.step e).2 ++ ((l.step e).1.run (es ++ later)).2 = _
      rw [ih, ← List.append_assoc]
      rfl

theorem callsIn_step (l : Link) (e : LinkEvent) :
    callsIn (l.step e).2 = if e.isWork then l.forwarder.call?.toList else [] := by
  cases e with
  | offer m =>
      simp only [step, offer]
      split
      · rfl
      · exact Forwarder.callsIn_offer l.forwarder m
  | stop =>
      simp only [step, stop]
      split <;> rfl
  | forwarder e => exact l.forwarder.callsIn_step e

theorem still_step {e : LinkEvent} (hidle : e.isWork = false)
    (hstarted : l.forwarder.phase ≠ .idle) :
    (l.step e).1.forwarder.phase = l.forwarder.phase ∧
      (l.step e).1.forwarder.failover = l.forwarder.failover ∧
      (l.step e).1.forwarder.counters = l.forwarder.counters := by
  cases e with
  | offer m =>
      simp only [step, offer]
      split
      · exact ⟨rfl, rfl, rfl⟩
      · exact Forwarder.still_step (e := .offer m) rfl hstarted
  | stop =>
      simp only [step, stop]
      split
      · exact ⟨rfl, rfl, rfl⟩
      · exact Forwarder.still_step (e := .stop) rfl hstarted
  | forwarder e => exact Forwarder.still_step hidle hstarted

/-- As long as the forwarder of a link does not get to work, it is where it was, and no call is
made. -/
theorem still_run {es : List LinkEvent} (hidle : ∀ e ∈ es, e.isWork = false)
    (hstarted : l.forwarder.phase ≠ .idle) :
    (l.run es).1.forwarder.phase = l.forwarder.phase ∧
      (l.run es).1.forwarder.failover = l.forwarder.failover ∧
      (l.run es).1.forwarder.counters = l.forwarder.counters ∧ callsIn (l.run es).2 = [] := by
  induction es generalizing l with
  | nil => exact ⟨rfl, rfl, rfl, rfl⟩
  | cons e es ih =>
      obtain ⟨hnow, hlater⟩ := List.forall_mem_cons.mp hidle
      obtain ⟨hphase, hfailover, hcounters⟩ := still_step hnow hstarted
      obtain ⟨hphase', hfailover', hcounters', hcalls⟩ := ih hlater (hphase ▸ hstarted)
      refine ⟨hphase'.trans hphase, hfailover'.trans hfailover, hcounters'.trans hcounters, ?_⟩
      show callsIn ((l.step e).2 ++ ((l.step e).1.run es).2) = []
      rw [callsIn_append, callsIn_step, hnow, hcalls]
      rfl

end Link

end ClusterRelay
