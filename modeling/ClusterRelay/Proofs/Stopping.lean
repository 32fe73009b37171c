import ClusterRelay.Proofs.Custody
import ClusterRelay.Proofs.Endurance

/-!
# How a forwarder stops

The signal to stop races with everything that a suspended forwarder may be waiting for: an offer, the
end of a delay, a connection that has become available meanwhile. The signal always wins, because it
is looked for first wherever a forwarder can be suspended, and `work_of_suspended` is that fact. From
there on a forwarder has two steps of work left at most: it says that it has stopped, and then it
lets go of the connection in use, if there is one. `Leaving` counts these steps. Offers may come and
time may pass between them, and the stage stays the same.

What is said about the backlog has to leave room for these offers: they still come in, and they may
still evict. Only the forwarder takes nothing any more, so the backlog is what the offers alone make
of it. `Tacit` says this of a step, and of a run because it composes.
-/

namespace ClusterRelay

def Event.isWork : Event → Bool
  | .work _ => true
  | _ => false

/-- How often the forwarder gets to work. -/
def worksIn (os : List Occasion) : Nat := os.countP (·.event.isWork)

/-- The calls on the network that notes tell of. -/
def callsIn (notes : List Note) : List Call := notes.filterMap Note.call?

theorem worksIn_cons (o : Occasion) (os : List Occasion) :
    worksIn (o :: os) = o.event.isWork.toNat + worksIn os := by
  rw [worksIn, worksIn, List.countP_cons, Nat.add_comm]
  cases o.event.isWork <;> rfl

theorem callsIn_append (notes more : List Note) :
    callsIn (notes ++ more) = callsIn notes ++ callsIn more := List.filterMap_append

namespace Forwarder

/-- The notes of a run. -/
def notesUnder (w : Forwarder) : List Occasion → List Note
  | [] => []
  | o :: os => ((w.under o.pacing).step o.event).2 ++ (w.stepUnder o).notesUnder os

/-- Mutations are offered, and nothing else happens. -/
def offerAll (w : Forwarder) (ms : List Mutation) : Forwarder :=
  ms.foldl (fun w m => (w.offer m).1) w

/-- Mutations are offered, and apart from that nothing is done to the backlog and no peer is called:
the only call there may be lets go of a connection. -/
structure Tacit (w : Forwarder) (ms : List Mutation) (w' : Forwarder) (notes : List Note) :
    Prop where
  backlog : w'.backlog = (w.offerAll ms).backlog
  admitted : w'.admitted = (w.offerAll ms).admitted
  calls : ∀ call ∈ callsIn notes, ∃ conn, call = .release conn

variable {w w' : Forwarder} {k : Nat}

/-- Offers treat equal backlogs alike, whatever else the forwarders are doing. -/
theorem offerAll_congr (hbacklog : w'.backlog = w.backlog) (hadmitted : w'.admitted = w.admitted)
    (ms : List Mutation) : (w'.offerAll ms).backlog = (w.offerAll ms).backlog ∧
      (w'.offerAll ms).admitted = (w.offerAll ms).admitted := by
  induction ms generalizing w w' with
  | nil => exact ⟨hbacklog, hadmitted⟩
  | cons m ms ih =>
      apply ih
      · simp only [Forwarder.offer, hbacklog, hadmitted]
      · simp only [Forwarder.offer, hadmitted]

theorem Tacit.silent {ms : List Mutation} {notes : List Note}
    (hbacklog : w'.backlog = (w.offerAll ms).backlog)
    (hadmitted : w'.admitted = (w.offerAll ms).admitted) (hcalls : callsIn notes = []) :
    Tacit w ms w' notes := by
  refine ⟨hbacklog, hadmitted, ?_⟩
  rw [hcalls]
  exact List.forall_mem_nil _

theorem Tacit.append {ms ms' : List Mutation} {notes notes' : List Note} {w'' : Forwarder}
    (h : Tacit w ms w' notes) (h' : Tacit w' ms' w'' notes') :
    Tacit w (ms ++ ms') w'' (notes ++ notes') := by
  obtain ⟨hbacklog, hadmitted⟩ := offerAll_congr h.backlog h.admitted ms'
  have hall : w.offerAll (ms ++ ms') = (w.offerAll ms).offerAll ms' := List.foldl_append
  refine ⟨?_, ?_, fun call hcall => ?_⟩
  · rw [hall, h'.backlog, hbacklog]
  · rw [hall, h'.admitted, hadmitted]
  · rw [callsIn_append] at hcall
    rcases List.mem_append.mp hcall with hnow | hthen
    · exact h.calls call hnow
    · exact h'.calls call hthen

theorem callsIn_offer (w : Forwarder) (m : Mutation) : callsIn (w.offer m).2 = [] := by
  apply List.filterMap_eq_nil_iff.mpr
  intro n hn
  simp only [Forwarder.offer, List.cons_append, List.mem_cons, List.mem_append, List.mem_map,
    Option.mem_toList, Option.map_eq_some_iff] at hn
  rcases hn with rfl | ⟨p, -, rfl⟩ | ⟨line, -, rfl⟩ <;> rfl

/-! ## The steps that are left -/

/-- A forwarder that was suspended when the signal to stop came, and has got to work this often
since. -/
inductive Leaving (w : Forwarder) : Nat → Forwarder → Prop where
  | heeding {w' : Forwarder} (hphase : w'.phase = w.phase) (hstop : w'.stopping = true)
      (hcounters : w'.counters = w.counters) : Leaving w 0 w'
  | closing {w' : Forwarder} {conn : ConnId} (hphase : w'.phase = .closing conn)
      (hstate : w'.state = .stopped)
      (hcounters : w'.counters = { w.counters with inFlight := false }) : Leaving w 1 w'
  | ended {w' : Forwarder} {k : Nat} (hphase : w'.phase = .ended .returned)
      (hstate : w'.state = .stopped)
      (hcounters : w'.counters = { w.counters with inFlight := false }) : Leaving w (k + 1) w'

/-- Wherever a forwarder is suspended it heeds the signal before anything else. -/
theorem work_of_suspended (hsuspended : w.suspended = true) (hstop : w.stopping = true)
    (a : Answers) : w.work a = w.finish := by
  unfold suspended at hsuspended
  split at hsuspended
  · next hphase => simp only [Forwarder.work, hphase, await, hstop, if_true]
  · next p s hphase =>
      have hheeds : heedsSignal s = true := by
        cases s with
        | pausing v wake => rfl
        | resting wake => rfl
        | verifying | dropping | visiting | dialing | probing | discarding | lapsing =>
            cases hsuspended
      simp only [Forwarder.work, hphase, seek, hheeds, hstop, Bool.and_self, if_true]
  · cases hsuspended

theorem suspended_of_phase (hphase : w'.phase = w.phase) (hsuspended : w.suspended = true) :
    w'.suspended = true := by
  rw [suspended, hphase]
  exact hsuspended

theorem leaving_finish (hcounters : w'.counters = w.counters) : Leaving w 1 w'.finish.1 := by
  unfold finish
  cases hactive : w'.failover.active with
  | none => exact .ended rfl rfl (by rw [← hcounters])
  | some active => exact .closing rfl rfl (by rw [← hcounters])

theorem Leaving.work (h : Leaving w k w') (hsuspended : w.suspended = true) {a : Answers}
    (hrelease : a.release = none) :
    Leaving w (k + 1) (w'.work a).1 ∧ Tacit w' [] (w'.work a).1 (w'.work a).2 := by
  cases h with
  | heeding hphase hstop hcounters =>
      rw [work_of_suspended (suspended_of_phase hphase hsuspended) hstop]
      exact ⟨leaving_finish hcounters, .silent rfl rfl rfl⟩
  | @closing _ conn hphase hstate hcounters =>
      simp only [Forwarder.work, hphase, close, hrelease]
      exact ⟨.ended rfl hstate hcounters, rfl, rfl,
        fun call hcall => ⟨conn, List.mem_singleton.mp hcall⟩⟩
  | ended hphase hstate hcounters =>
      simp only [Forwarder.work, hphase]
      exact ⟨.ended hphase hstate hcounters, .silent rfl rfl rfl⟩

/-- What the surroundings do in the meantime changes nothing that matters. -/
theorem Leaving.same {w'' : Forwarder} (h : Leaving w k w') (hphase : w''.phase = w'.phase)
    (hstate : w''.state = w'.state) (hcounters : w''.counters = w'.counters)
    (hstop : w'.stopping = true → w''.stopping = true) : Leaving w k w'' := by
  cases h with
  | heeding hphase' hstop' hcounters' =>
      exact .heeding (hphase.trans hphase') (hstop hstop') (hcounters.trans hcounters')
  | closing hphase' hstate' hcounters' =>
      exact .closing (hphase.trans hphase') (hstate.trans hstate') (hcounters.trans hcounters')
  | ended hphase' hstate' hcounters' =>
      exact .ended (hphase.trans hphase') (hstate.trans hstate') (hcounters.trans hcounters')

theorem Leaving.started (h : Leaving w k w') (hsuspended : w.suspended = true) :
    w'.phase ≠ .idle := by
  intro hidle
  cases h with
  | heeding hphase _ _ =>
      rw [suspended, ← hphase, hidle] at hsuspended
      cases hsuspended
  | closing hphase _ _ =>
      rw [hidle] at hphase
      cases hphase
  | ended hphase _ _ =>
      rw [hidle] at hphase
      cases hphase

theorem Leaving.step (h : Leaving w k w') (hsuspended : w.suspended = true) {o : Occasion}
    (hrelease : ∀ a, o.event = .work a → a.release = none) :
    Leaving w (k + o.event.isWork.toNat) (w'.stepUnder o) ∧
      Tacit w' o.event.offer?.toList (w'.stepUnder o) ((w'.under o.pacing).step o.event).2 := by
  have hunder : Leaving w k (w'.under o.pacing) := h.same rfl rfl rfl id
  unfold stepUnder
  cases hevent : o.event with
  | start =>
      simp only [Forwarder.step, begin]
      split
      · next hidle => exact absurd hidle (hunder.started hsuspended)
      · exact ⟨hunder, .silent rfl rfl rfl⟩
  | offer m =>
      exact ⟨hunder.same rfl rfl rfl id, .silent rfl rfl (callsIn_offer _ m)⟩
  | stop =>
      simp only [Forwarder.step, signalStop]
      split
      · exact ⟨hunder.same rfl rfl rfl fun _ => rfl, .silent rfl rfl rfl⟩
      · exact ⟨hunder, .silent rfl rfl rfl⟩
  | orphan =>
      simp only [Forwarder.step, Forwarder.orphan]
      split
      · exact ⟨hunder.same rfl rfl rfl fun _ => rfl, .silent rfl rfl rfl⟩
      · exact ⟨hunder, .silent rfl rfl rfl⟩
  | elapse moment => exact ⟨hunder.same rfl rfl rfl id, .silent rfl rfl rfl⟩
  | work a =>
      obtain ⟨hleaving, htacit⟩ := hunder.work hsuspended (hrelease a hevent)
      exact ⟨hleaving, htacit.backlog, htacit.admitted, htacit.calls⟩

theorem Leaving.run (h : Leaving w k w') (hsuspended : w.suspended = true) {os : List Occasion}
    (hreleases : ∀ o ∈ os, ∀ a, o.event = .work a → a.release = none) :
    Leaving w (k + worksIn os) (w'.runUnder os) ∧
      Tacit w' (offersIn (os.map Occasion.event)) (w'.runUnder os) (w'.notesUnder os) := by
  induction os generalizing w' k with
  | nil => exact ⟨h, .silent rfl rfl rfl⟩
  | cons o os ih =>
      obtain ⟨hstep, hnow⟩ := h.step hsuspended (hreleases o List.mem_cons_self)
      obtain ⟨hrun, hthen⟩ := ih hstep fun o' ho' => hreleases o' (List.mem_cons_of_mem o ho')
      rw [worksIn_cons, ← Nat.add_assoc, List.map_cons, offersIn_cons]
      exact ⟨hrun, hnow.append hthen⟩

/-- The signal, in one way or the other, is there at once. -/
theorem leaving_signalled {o : Occasion} (hsignal : o.event = .stop ∨ o.event = .orphan) :
    Leaving w 0 (w.stepUnder o) ∧
      Tacit w [] (w.stepUnder o) ((w.under o.pacing).step o.event).2 := by
  unfold stepUnder
  rcases hsignal with hevent | hevent
  · rw [hevent]
    simp only [Forwarder.step, signalStop]
    split
    · exact ⟨.heeding rfl rfl rfl, .silent rfl rfl rfl⟩
    · next hnot => exact ⟨.heeding rfl (by simpa [stopping] using hnot) rfl, .silent rfl rfl rfl⟩
  · rw [hevent]
    simp only [Forwarder.step, Forwarder.orphan]
    split
    · exact ⟨.heeding rfl rfl rfl, .silent rfl rfl rfl⟩
    · next hnot => exact ⟨.heeding rfl (by simpa [stopping] using hnot) rfl, .silent rfl rfl rfl⟩

/-- It needs nothing more to go on, in particular no time, until it has ended. -/
theorem Leaving.ready (h : Leaving w k w') (hsuspended : w.suspended = true) :
    w'.ready = true ∨ w'.phase = .ended .returned := by
  cases h with
  | heeding hphase hstop _ =>
      have hsuspended' := suspended_of_phase hphase hsuspended
      refine Or.inl ?_
      unfold suspended at hsuspended'
      unfold Forwarder.ready
      split at hsuspended'
      · next hwaiting => simp only [hwaiting, hstop, Bool.true_or]
      · next p s hseeking =>
          obtain ⟨wake, hwake⟩ := Option.isSome_iff_exists.mp hsuspended'
          simp only [hseeking, hwake, hstop, Bool.true_or]
      · cases hsuspended'
  | closing hphase _ _ => exact Or.inl (by rw [Forwarder.ready, hphase])
  | ended hphase _ _ => exact Or.inr hphase

theorem Leaving.unflown (h : Leaving w k w') :
    w'.counters = { w.counters with inFlight := w'.counters.inFlight } := by
  cases h with
  | heeding _ _ hcounters => rw [hcounters]
  | closing _ _ hcounters => rw [hcounters]
  | ended _ _ hcounters => rw [hcounters]

theorem Leaving.stopped (h : Leaving w (k + 1) w') : w'.state = .stopped ∧
    w'.counters.inFlight = false ∧ w'.suspended = false := by
  cases h with
  | closing hphase hstate hcounters =>
      exact ⟨hstate, by rw [hcounters], by rw [suspended, hphase]⟩
  | ended hphase hstate hcounters =>
      exact ⟨hstate, by rw [hcounters], by rw [suspended, hphase]⟩

theorem Leaving.returned (h : Leaving w (k + 2) w') : w'.phase = .ended .returned := by
  cases h with
  | ended hphase _ _ => exact hphase

end Forwarder

/-- Wherever a forwarder is suspended when the signal to stop comes, or whoever could give it goes
away: whatever happens from then on, the only call it makes lets go of the connection in use, its
backlog is what the offers alone make of it, and nothing is counted. It always has something to do
at once, until it has ended: with its first step of work it has stopped, with nothing in flight, is
never suspended again and stays stopped, and with its second it has ended. -/
theorem stops_cleanly (f : Failover) (capacity : Nat) (before : List Occasion) (signal : Occasion)
    (hsignal : signal.event = .stop ∨ signal.event = .orphan) {later : List Occasion}
    (hreleases : ∀ o ∈ later, ∀ a, o.event = .work a → a.release = none) :
    let w := (Forwarder.ofParts f (Backlog.ofCapacity capacity)).runUnder before
    let last := w.runUnder (signal :: later)
    w.suspended = true →
    (∀ call ∈ callsIn (w.notesUnder (signal :: later)), ∃ conn, call = .release conn) ∧
    last.backlog = (w.offerAll (offersIn (later.map Occasion.event))).backlog ∧
    last.counters = { w.counters with inFlight := last.counters.inFlight } ∧
    (last.ready = true ∨ last.phase = .ended .returned) ∧
    (1 ≤ worksIn later →
      last.state = .stopped ∧ last.counters.inFlight = false ∧ last.suspended = false) ∧
    (2 ≤ worksIn later → last.phase = .ended .returned) := by
  intro w last hsuspended
  obtain ⟨hleaving, hnow⟩ := Forwarder.leaving_signalled (w := w) hsignal
  obtain ⟨hrun, hthen⟩ := hleaving.run hsuspended hreleases
  have htacit := hnow.append hthen
  rw [Nat.zero_add] at hrun
  refine ⟨htacit.calls, htacit.backlog, hrun.unflown, hrun.ready hsuspended, fun hone => ?_,
    fun htwo => ?_⟩
  · obtain ⟨k, hk⟩ := Nat.exists_eq_add_of_le' hone
    rw [hk] at hrun
    exact hrun.stopped
  · obtain ⟨k, hk⟩ := Nat.exists_eq_add_of_le' htwo
    rw [hk] at hrun
    exact hrun.returned

/-- When the signal comes the delay after a poll is over, the next poll would bring a connection,
and a second mutation is offered. -/
theorem stops_cleanly_between_polls :
    let calm := Schedule.standard.pacing
    let second : Mutation := ⟨"users", "u".toUTF8, "w".toUTF8⟩
    let before := upToDial ++ [⟨calm, .work {}⟩, ⟨calm, .elapse 1000⟩]
    let later := [.offer second, .work { dial := .done (some 7) },
      .work { dial := .done (some 7) }].map (Occasion.mk calm)
    let w := (Forwarder.ofParts oneTarget (Backlog.ofCapacity 10)).runUnder before
    let last := w.runUnder (⟨calm, .stop⟩ :: later)
    w.suspended = true ∧ last.state = .stopped ∧ last.phase = .ended .returned ∧
      last.backlog.toList = [⟨1, second⟩] ∧ last.counters.connectionsEstablished = 0 ∧
      ∀ call ∈ callsIn (w.notesUnder (⟨calm, .stop⟩ :: later)), ∃ conn, call = .release conn := by
  intro calm second before later w last
  have hreleases : ∀ o ∈ later, ∀ a, o.event = .work a → a.release = none := by
    simp [later]
  obtain ⟨hcalls, hbacklog, hcounters, -, hone, htwo⟩ :=
    stops_cleanly oneTarget 10 before ⟨calm, .stop⟩ (Or.inl rfl) hreleases rfl
  refine ⟨rfl, (hone (by decide)).1, htwo (by decide), ?_, ?_, hcalls⟩
  · exact congrArg Backlog.toList hbacklog
  · exact congrArg Counters.connectionsEstablished hcounters

end ClusterRelay
