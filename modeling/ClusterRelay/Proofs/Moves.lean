import ClusterRelay.Forwarder
import ClusterRelay.Proofs.Turns

/-!
# What one step of a forwarder can do with parcels

`Forwarder.step` takes any of a few dozen ways, but a parcel is only ever admitted, taken
in hand, submitted, put down in one of three ways, or abandoned. `Move` lists these and
says of everything else that it leaves the parcels alone; `move_step` is the one place
where the step function is opened for the sake of parcels, and the order of forwarding and
the balance of the books are both read off it.

A phase says more than where a parcel is, since a search has many places to stand in.
`Stance` keeps of it what bears on parcels: whether there is one in hand, whether its
frame has been submitted, and whether the forwarder still works.
-/

namespace ClusterRelay

/-- What a phase says about parcels. -/
inductive Stance where
  /-- Nothing is in hand, and the retry stack comes first. -/
  | choosing
  /-- Nothing is in hand, and nothing is to be retried. -/
  | waiting
  | holding (parcel : Parcel)
  /-- The frame of the parcel in hand was accepted by this connection. -/
  | awaiting (parcel : Parcel) (conn : ConnId)
  | ended
deriving DecidableEq

def Stance.hand : Stance → Option Parcel
  | .holding p | .awaiting p _ => some p
  | _ => none

def Phase.stance : Phase → Stance
  | .idle | .choosing => .choosing
  | .waiting => .waiting
  | .seeking p _ | .submitting p _ => .holding p
  | .confirming p conn => .awaiting p conn
  | .closing _ | .ended _ => .ended

/-- The mutation that an event offers. -/
def Event.offer? : Event → Option Mutation
  | .offer m => some m
  | _ => none

/-- What a run is offered, in the order in which it is offered. -/
def offersIn (es : List Event) : List Mutation := es.filterMap Event.offer?

namespace Forwarder

/-- Two states of a forwarder that keep the same parcels and the same books. -/
structure Aside (w w' : Forwarder) : Prop where
  backlog : w'.backlog = w.backlog
  retries : w'.retries = w.retries
  admitted : w'.admitted = w.admitted
  books : w'.counters.books = w.counters.books

theorem Aside.refl (w : Forwarder) : Aside w w := ⟨rfl, rfl, rfl, rfl⟩

/-- What a step does with parcels, and which mutation it was offered. -/
inductive Move (w : Forwarder) : Option Mutation → Forwarder × List Note → Prop where
  | aside {w' : Forwarder} {notes : List Note} (haside : Aside w w')
      (hstance : w'.phase.stance = w.phase.stance)
      (hquiet : ∀ n ∈ notes, n.ofParcel = false)
      (hidle : w'.phase = .idle → w.phase = .idle) : Move w none (w', notes)
  | offered (m : Mutation) : Move w (some m) (w.offer m)
  | rested (hphase : w.phase = .choosing) (hretries : w.retries.pop? = none) :
      Move w none ({ w with phase := .waiting }, [])
  | resumed {p : Parcel} {rest : RetryStack Parcel} (hphase : w.phase = .choosing)
      (hretries : w.retries.pop? = some (p, rest)) : Move w none ((w.withRetries rest).takeUp p, [])
  | taken {p : Parcel} {rest : Backlog Parcel} (hphase : w.phase = .waiting)
      (hbacklog : w.backlog.take? = some (p, rest)) :
      Move w none (({ w with backlog := rest } : Forwarder).takeUp p, [])
  | submitted {p : Parcel} {conn : ConnId} {frame : ByteArray}
      (hphase : w.phase = .submitting p conn) (hframe : frameOf p = .ok frame) :
      Move w none ({ w with phase := .confirming p conn }, [.submitted conn frame (.done ())])
  | unwritten {p : Parcel} {conn : ConnId} {fault : Fault}
      (hphase : w.phase = .submitting p conn) : Move w none (w.dropped p fault)
  | unaccepted {p : Parcel} {conn : ConnId} {frame : ByteArray} {answer : Outcome Unit}
      {fault : Fault} (hphase : w.phase = .submitting p conn) (hframe : frameOf p = .ok frame)
      (hanswer : answer ≠ .done ()) :
      Move w none ((w.dropped p fault).1, .submitted conn frame answer :: (w.dropped p fault).2)
  | delivered {p : Parcel} {conn : ConnId} {answer : Except Crash Bool}
      (hphase : w.phase = .confirming p conn) (hanswer : answer = .ok true) :
      Move w none ((w.delivered p).1, .probed conn answer :: (w.delivered p).2)
  | returned {p : Parcel} {conn : ConnId} {answer : Except Crash Bool}
      (hphase : w.phase = .confirming p conn) (hanswer : answer = .ok false) :
      Move w none ((w.returned p).1, .probed conn answer :: (w.returned p).2)
  | unconfirmed {p : Parcel} {conn : ConnId} {answer : Except Crash Bool} {crash : Crash}
      {fault : Fault} (hphase : w.phase = .confirming p conn) (hanswer : answer = .error crash) :
      Move w none ((w.dropped p fault).1, .probed conn answer :: (w.dropped p fault).2)
  | finished (hplace : w.phase = .choosing ∨ w.phase = .waiting ∨ ∃ p s, w.phase = .seeking p s)
      (hstop : w.stopping = true) : Move w none w.finish
  | broken {p : Parcel} {w' : Forwarder} {notes : List Note} {crash : Crash}
      (hhand : w.phase.stance.hand = some p) (haside : Aside w w')
      (hquiet : ∀ n ∈ notes, n.ofParcel = false) :
      Move w none ((w'.breakDown crash).1, notes ++ (w'.breakDown crash).2)
  | overcome {p : Parcel} {conn : ConnId} {frame : ByteArray} {answer : Outcome Unit}
      {crash : Crash} (hphase : w.phase = .submitting p conn) (hframe : frameOf p = .ok frame)
      (hanswer : answer ≠ .done ()) :
      Move w none ((w.breakDown crash).1, .submitted conn frame answer :: (w.breakDown crash).2)

theorem quiet_seek (w : Forwarder) (a : Answers) (s : Seek) :
    ∀ n ∈ (w.failover.step w.counters w.now a s).notes, n.ofParcel = false := by
  have hshift := Failover.shift_step w.failover w.counters w.now a s
  generalize w.failover.step w.counters w.now a s = t at hshift
  cases hshift with
  | kept keeps => exact keeps.quiet
  | confirmed _ _ => exact Failover.quiet_call rfl
  | retired _ _ _ hquiet => exact Failover.quiet_concat_logged hquiet
  | settled _ => exact Failover.quiet_concat_logged (Failover.quiet_call rfl)
  | rotated => exact nofun

theorem books_seek (w : Forwarder) (a : Answers) (s : Seek) :
    (w.failover.step w.counters w.now a s).counters.books = w.counters.books := by
  have hshift := Failover.shift_step w.failover w.counters w.now a s
  generalize w.failover.step w.counters w.now a s = t at hshift
  cases hshift with
  | kept keeps => exact keeps.books
  | confirmed _ _ => rfl
  | retired _ _ _ _ => rfl
  | settled _ => rfl
  | rotated => rfl

theorem move_seek {w : Forwarder} {p : Parcel} {s : Seek} (hphase : w.phase = .seeking p s)
    (a : Answers) : Move w none (w.seek p s a) := by
  have hstance : w.phase.stance = .holding p := by rw [hphase]; rfl
  have hquiet := quiet_seek w a s
  have hbooks := books_seek w a s
  unfold seek
  split
  · next hheeds =>
      exact .finished (Or.inr (Or.inr ⟨p, s, hphase⟩)) (Bool.and_eq_true_iff.mp hheeds).2
  · simp only
    generalize w.failover.step w.counters w.now a s = t at hquiet hbooks ⊢
    split
    · exact .aside ⟨rfl, rfl, rfl, hbooks⟩ hstance.symm hquiet nofun
    · exact .aside ⟨rfl, rfl, rfl, hbooks⟩ hstance.symm hquiet nofun
    · exact .broken (by rw [hstance]; rfl) ⟨rfl, rfl, rfl, hbooks⟩ hquiet

theorem move_submit {w : Forwarder} {p : Parcel} {conn : ConnId}
    (hphase : w.phase = .submitting p conn) (a : Answers) : Move w none (w.submit p conn a) := by
  unfold submit
  split
  · exact .unwritten hphase
  · next frame hframe =>
      simp only
      split
      · next hdone => rw [hdone]; exact .submitted hphase hframe
      · next fault hrefused =>
          exact .unaccepted hphase hframe (by rw [hrefused]; nofun)
      · next crash hcrashed =>
          have hanswer : a.submit ≠ .done () := by rw [hcrashed]; nofun
          unfold caught
          split
          · exact .unaccepted hphase hframe hanswer
          · exact .overcome hphase hframe hanswer

theorem move_confirm {w : Forwarder} {p : Parcel} {conn : ConnId}
    (hphase : w.phase = .confirming p conn) (a : Answers) : Move w none (w.confirm p conn a) := by
  unfold confirm
  simp only
  split
  · next hlive => exact .delivered hphase hlive
  · next hdead => exact .returned hphase hdead
  · next crash hcrash =>
      unfold caught
      split
      · exact .unconfirmed hphase hcrash
      · have hquiet : ∀ n ∈ [Note.probed conn a.probe], n.ofParcel = false :=
          Failover.quiet_call rfl
        exact .broken (by rw [hphase]; rfl) (.refl w) hquiet

theorem move_work (w : Forwarder) (a : Answers) : Move w none (w.work a) := by
  unfold work
  split
  · exact .aside (.refl w) rfl nofun id
  · next hphase =>
      unfold choose
      split
      · next hgiven => exact .finished (Or.inl hphase) (by simp [stopping, hgiven])
      · split
        · next hretries => exact .resumed hphase hretries
        · next hretries => exact .rested hphase hretries
  · next hphase =>
      unfold await
      split
      · next hstop => exact .finished (Or.inr (Or.inl hphase)) hstop
      · split
        · next hbacklog => exact .taken hphase hbacklog
        · exact .aside (.refl w) rfl nofun id
  · next hphase => exact move_seek hphase a
  · next hphase => exact move_submit hphase a
  · next hphase => exact move_confirm hphase a
  · next conn hphase =>
      refine .aside ⟨rfl, rfl, rfl, rfl⟩ ?_ (Failover.quiet_call rfl) nofun
      rw [hphase]
      rfl
  · exact .aside (.refl w) rfl nofun id

theorem move_step (w : Forwarder) (e : Event) : Move w e.offer? (w.step e) := by
  cases e with
  | start =>
      simp only [step, begin]
      split
      · next hphase =>
          refine .aside ⟨rfl, rfl, rfl, rfl⟩ ?_ (Failover.quiet_call rfl) nofun
          rw [hphase]
          rfl
      · exact .aside (.refl w) rfl nofun id
  | offer m => exact .offered m
  | stop =>
      simp only [step, signalStop]
      split <;> exact .aside ⟨rfl, rfl, rfl, rfl⟩ rfl nofun id
  | orphan =>
      simp only [step, orphan]
      split <;> exact .aside ⟨rfl, rfl, rfl, rfl⟩ rfl nofun id
  | elapse moment => exact .aside ⟨rfl, rfl, rfl, rfl⟩ rfl nofun id
  | work a => exact move_work w a

theorem stance_of_phase {w : Forwarder} {phase : Phase} (h : w.phase = phase) :
    w.phase.stance = phase.stance := by rw [h]

theorem stance_finish (w : Forwarder) : w.finish.1.phase.stance = .ended := by
  unfold finish
  simp only
  split <;> rfl

/-! ## Runs -/

theorem run_append (w : Forwarder) (es later : List Event) :
    w.run (es ++ later) =
      (((w.run es).1.run later).1, (w.run es).2 ++ ((w.run es).1.run later).2) := by
  induction es generalizing w with
  | nil => rfl
  | cons e es ih => simp [run, ih]

end Forwarder

end ClusterRelay
