import ClusterRelay.Link
import ClusterRelay.Proofs.Stopping
import ClusterRelay.Status.Json

/-!
# The password is not seen

The password of a link goes where the link goes: it stands in the settings, it is carried through
every search next to what is logged, and it is handed to the network with every dial. That nobody
else learns it is a statement about two runs: let everything that happens to a link happen to the
link with another password, and the two cannot be told apart but by what was handed over in dialing.

The second run is the first one with the password exchanged, in the state and in the notes. So it is
enough that a step does the same before and after the exchange: `Forwarder.step_withPassword`. A
line, a count or a delay that depended on the password would break the equation at the place where
it was made.
-/

namespace ClusterRelay

/-! ## Another password -/

def Credentials.withPassword (c : Credentials) (password : String) : Credentials :=
  { c with password }

def LinkSettings.withPassword (s : LinkSettings) (password : String) : LinkSettings :=
  { s with credentials := s.credentials.withPassword password }

/-- Of all that is noted down only a dial has to do with the password. -/
def Note.withPassword (password : String) : Note → Note
  | .dialed endpoint credentials answer =>
    .dialed endpoint (credentials.withPassword password) answer
  | n => n

def Failover.withPassword (f : Failover) (password : String) : Failover :=
  { f with credentials := f.credentials.withPassword password }

def Turn.withPassword (t : Turn) (password : String) : Turn :=
  { t with
    failover := t.failover.withPassword password
    notes := t.notes.map (Note.withPassword password) }

def Forwarder.withPassword (w : Forwarder) (password : String) : Forwarder :=
  { w with failover := w.failover.withPassword password }

def Link.withPassword (l : Link) (password : String) : Link :=
  { l with forwarder := l.forwarder.withPassword password }

variable {password : String}

namespace Failover

variable {f : Failover} {c : Counters} {now : Nat} {v : Visit}

theorem start_withPassword {link : String} {targets : List String} {port : UInt16}
    {credentials : Credentials} {pacing : Pacing} :
    start link targets port (credentials.withPassword password) pacing =
      (start link targets port credentials pacing).map (·.withPassword password) := by
  unfold start
  split <;> rfl

theorem rest_withPassword (notes : List Note) :
    (f.withPassword password).rest c now (notes.map (Note.withPassword password)) =
      (f.rest c now notes).withPassword password := by
  simp only [rest, withPassword]
  split <;> rfl

theorem failed_withPassword (notes : List Note) (target : String) (fault : Fault) :
    (f.withPassword password).failed c now (notes.map (Note.withPassword password)) target fault =
      (f.failed c now notes target fault).withPassword password := by
  rw [failed, failed, ← rest_withPassword, List.map_append]
  rfl

theorem pacing_withPassword : (f.withPassword password).pacing = f.pacing := rfl

theorem exhausted_withPassword (notes : List Note) (target : String) :
    (f.withPassword password).exhausted c now (notes.map (Note.withPassword password)) target =
      (f.exhausted c now notes target).withPassword password := by
  simp only [exhausted, pacing_withPassword]
  split
  · rfl
  · split
    · rfl
    · rw [← rest_withPassword, List.map_append]
      rfl

theorem caught_failed_withPassword (a : Answers) (notes : List Note) (target : String)
    (fault : Fault) :
    (f.withPassword password).caught c a (notes.map (Note.withPassword password))
        ((f.withPassword password).failed c now (notes.map (Note.withPassword password)) target
          fault) =
      (f.caught c a notes (f.failed c now notes target fault)).withPassword password := by
  simp only [caught]
  split
  · exact failed_withPassword notes target fault
  · rfl

theorem nextPoll_withPassword (notes : List Note) :
    (f.withPassword password).nextPoll c now (notes.map (Note.withPassword password)) v =
      (f.nextPoll c now notes v).withPassword password := by
  unfold nextPoll
  split
  · rfl
  · exact exhausted_withPassword notes v.target

theorem pause_withPassword (notes : List Note) :
    (f.withPassword password).pause c now (notes.map (Note.withPassword password)) v =
      (f.pause c now notes v).withPassword password := by
  simp only [pause, withPassword]
  split <;> rfl

theorem visit_withPassword :
    (f.withPassword password).visit c now = (f.visit c now).withPassword password := by
  simp only [visit, withPassword]
  split
  · exact rest_withPassword []
  · next target _ _ =>
      split
      · next fault _ => exact failed_withPassword [] target fault
      · split
        · rfl
        · exact exhausted_withPassword [] target
        · rfl

/-- A search does not look at the password. -/
theorem step_withPassword (a : Answers) (s : Seek) :
    (f.withPassword password).step c now a s = (f.step c now a s).withPassword password := by
  cases s with
  | verifying =>
      simp only [step, withPassword]
      split
      · rfl
      · split
        · rfl
        · rfl
        · simp only [caught]
          split <;> rfl
  | dropping conn =>
      simp only [step]
      split <;> rfl
  | visiting => exact visit_withPassword
  | dialing v =>
      have hdialed : [Note.dialed v.endpoint (f.withPassword password).credentials a.dial] =
          [Note.dialed v.endpoint f.credentials a.dial].map (Note.withPassword password) := rfl
      simp only [step, hdialed]
      split
      · exact pause_withPassword _
      · rfl
      · exact failed_withPassword _ _ _
      · exact caught_failed_withPassword a _ _ _
  | probing v conn =>
      simp only [step]
      split <;> rfl
  | discarding v conn =>
      simp only [step]
      split
      · exact pause_withPassword [.released conn a.release]
      · exact caught_failed_withPassword a [.released conn a.release] _ _
  | lapsing v conn crash => exact caught_failed_withPassword a [.released conn a.release] _ _
  | pausing v wake =>
      simp only [step]
      split
      · rfl
      · exact nextPoll_withPassword []
  | resting wake =>
      simp only [step]
      split
      · rfl
      · simp only [rotated, withPassword]
        split <;> rfl

end Failover

namespace Forwarder

variable {w : Forwarder}

/-- What a forwarder has become and what it has noted down, with another password. -/
def exchanged (password : String) (r : Forwarder × List Note) : Forwarder × List Note :=
  (r.1.withPassword password, r.2.map (Note.withPassword password))

@[simp] theorem phase_withPassword : (w.withPassword password).phase = w.phase := rfl
@[simp] theorem signal_withPassword : (w.withPassword password).signal = w.signal := rfl
@[simp] theorem stopping_withPassword : (w.withPassword password).stopping = w.stopping := rfl
@[simp] theorem backlog_withPassword : (w.withPassword password).backlog = w.backlog := rfl
@[simp] theorem retries_withPassword : (w.withPassword password).retries = w.retries := rfl

theorem choose_withPassword : (w.withPassword password).choose = exchanged password w.choose := by
  unfold choose
  -- The two conditions are the same, but their instances are not, and `split` would see one only.
  by_cases hgiven : w.signal = .given
  · rw [if_pos (signal_withPassword.trans hgiven), if_pos hgiven]
    rfl
  · rw [if_neg (mt signal_withPassword.symm.trans hgiven), if_neg hgiven, retries_withPassword]
    split <;> rfl

theorem await_withPassword : (w.withPassword password).await = exchanged password w.await := by
  unfold await
  rw [stopping_withPassword, backlog_withPassword]
  cases w.stopping with
  | true => rfl
  | false =>
      simp only [Bool.false_eq_true, if_false]
      split <;> rfl

theorem seek_withPassword (p : Parcel) (s : Seek) (a : Answers) :
    (w.withPassword password).seek p s a = exchanged password (w.seek p s a) := by
  have hturn : (w.withPassword password).failover.step (w.withPassword password).counters
      (w.withPassword password).now a s =
        (w.failover.step w.counters w.now a s).withPassword password :=
    Failover.step_withPassword a s
  simp only [seek, stopping_withPassword, hturn]
  generalize w.failover.step w.counters w.now a s = t
  obtain ⟨failover, counters, progress, notes⟩ := t
  split
  · rfl
  · cases progress with
    | seeking next => rfl
    | found conn => rfl
    | broken crash =>
        simp only [Turn.withPassword, exchanged, List.map_append]
        rfl

theorem submit_withPassword (p : Parcel) (conn : ConnId) (a : Answers) :
    (w.withPassword password).submit p conn a = exchanged password (w.submit p conn a) := by
  simp only [submit, caught]
  split
  · rfl
  · split
    · rfl
    · rfl
    · split <;> rfl

theorem confirm_withPassword (p : Parcel) (conn : ConnId) (a : Answers) :
    (w.withPassword password).confirm p conn a = exchanged password (w.confirm p conn a) := by
  simp only [confirm, caught]
  split
  · rfl
  · rfl
  · split <;> rfl

theorem work_withPassword (a : Answers) :
    (w.withPassword password).work a = exchanged password (w.work a) := by
  simp only [work, phase_withPassword]
  split
  · rfl
  · exact choose_withPassword
  · exact await_withPassword
  · exact seek_withPassword _ _ a
  · exact submit_withPassword _ _ a
  · exact confirm_withPassword _ _ a
  · rfl
  · rfl

/-- A line says nothing of the password. -/
theorem map_logged_withPassword (lines : List LogLine) :
    (lines.map Note.logged).map (Note.withPassword password) = lines.map Note.logged := by
  rw [List.map_map]
  rfl

theorem offer_withPassword (m : Mutation) :
    (w.withPassword password).offer m = exchanged password (w.offer m) := by
  have hevicted (evicted : Option Parcel) : (evicted.map Note.evicted).toList.map
      (Note.withPassword password) = (evicted.map Note.evicted).toList := by
    cases evicted <;> rfl
  simp only [offer, exchanged, List.map_append, List.map_cons, map_logged_withPassword, hevicted]
  rfl

/-- Nor does a forwarder, whatever happens to it. -/
theorem step_withPassword (e : Event) :
    (w.withPassword password).step e = exchanged password (w.step e) := by
  cases e with
  | start =>
      simp only [step, begin, phase_withPassword]
      split <;> rfl
  | offer m => exact offer_withPassword m
  | stop =>
      simp only [step, signalStop, signal_withPassword]
      split <;> rfl
  | orphan =>
      simp only [step, orphan, signal_withPassword]
      split <;> rfl
  | elapse moment => rfl
  | work a => exact work_withPassword a

end Forwarder

namespace Link

variable {l : Link}

/-- What a link notes down, and when. -/
def timed (l : Link) : List LinkEvent → List (Nat × Note)
  | [] => []
  | e :: es =>
    let (l', notes) := l.step e
    notes.map (fun note => (l.forwarder.now, note)) ++ l'.timed es

theorem onForwarder_withPassword (e : Event) :
    (l.withPassword password).onForwarder e = ((l.onForwarder e).1.withPassword password,
      (l.onForwarder e).2.map (Note.withPassword password)) := by
  have hstep : (l.withPassword password).forwarder.step e =
      Forwarder.exchanged password (l.forwarder.step e) := Forwarder.step_withPassword e
  rw [onForwarder, hstep]
  rfl

theorem step_withPassword (password : String) (e : LinkEvent) :
    (l.withPassword password).step e = ((l.step e).1.withPassword password,
      (l.step e).2.map (Note.withPassword password)) := by
  have hsignal : (l.withPassword password).forwarder.signal = l.forwarder.signal := rfl
  cases e with
  | offer m =>
      simp only [step, offer]
      by_cases hgiven : l.forwarder.signal = .given
      · rw [if_pos (hsignal.trans hgiven), if_pos hgiven]
        rfl
      · rw [if_neg (mt hsignal.symm.trans hgiven), if_neg hgiven]
        exact onForwarder_withPassword (.offer m)
  | stop =>
      simp only [step, stop]
      by_cases hgiven : l.forwarder.signal = .given
      · rw [if_pos (hsignal.trans hgiven), if_pos hgiven]
        rfl
      · rw [if_neg (mt hsignal.symm.trans hgiven), if_neg hgiven, onForwarder_withPassword,
          List.map_append]
        rfl
  | forwarder e => exact onForwarder_withPassword e

/-- The run of a link with another password. -/
theorem run_withPassword (l : Link) (password : String) (es : List LinkEvent) :
    (l.withPassword password).run es = ((l.run es).1.withPassword password,
      (l.run es).2.map (Note.withPassword password)) := by
  induction es generalizing l with
  | nil => rfl
  | cons e es ih =>
      have hstep := step_withPassword (l := l) password e
      simp only [run, hstep, ih, List.map_append]

theorem timed_withPassword (es : List LinkEvent) :
    (l.withPassword password).timed es =
      (l.timed es).map fun (moment, note) => (moment, note.withPassword password) := by
  induction es generalizing l with
  | nil => rfl
  | cons e es ih =>
      simp only [timed, step_withPassword, ih, List.map_append, List.map_map]
      rfl

theorem join_withPassword : (l.withPassword password).join.1 = l.join.1 := by
  simp only [join, withPassword, Forwarder.phase_withPassword]
  split <;> rfl

theorem ofSettings_withPassword (s : LinkSettings) (password : String) (port : UInt16)
    (capacity : Nat) :
    ofSettings (s.withPassword password) port capacity =
      (ofSettings s port capacity).bind fun l => .done (l.withPassword password) := by
  have hstart : Failover.start s.name s.targets port (s.credentials.withPassword password)
      s.schedule.pacing = (Failover.start s.name s.targets port s.credentials
        s.schedule.pacing).map (·.withPassword password) := Failover.start_withPassword
  unfold ofSettings
  cases Backlog.allocate capacity with
  | error crash => rfl
  | ok backlog =>
      show (Outcome.ofExcept (Failover.start s.name s.targets port
        (s.credentials.withPassword password) s.schedule.pacing) >>= _) = _
      rw [hstart]
      cases Failover.start s.name s.targets port s.credentials s.schedule.pacing <;> rfl

end Link

/-- Lines are the same for all passwords. -/
theorem linesOf_withPassword (notes : List Note) :
    linesOf (notes.map (Note.withPassword password)) = linesOf notes := by
  have hsame : Note.line? ∘ Note.withPassword password = Note.line? := by
    funext n
    cases n <;> rfl
  rw [linesOf, List.filterMap_map, hsame]
  rfl

/-- Settings that differ in the password only make links that cannot be told apart, or neither makes
one. Whatever happens to both in the same way, they log the same lines, publish the same status,
stand before the same targets, are ready for work and wake up at the same times, and note down the
same things at the same times, among these every frame that is submitted. The one thing that is not
the same is what they hand over in dialing. -/
theorem password_unseen (s : LinkSettings) (password : String) (port : UInt16) (capacity : Nat) :
    let s' := s.withPassword password
    s'.credentials.diagnostic = s.credentials.diagnostic ∧ s'.diagnostic = s.diagnostic ∧
    (∀ fault, Link.ofSettings s port capacity = .refused fault →
      Link.ofSettings s' port capacity = .refused fault) ∧
    (∀ crash, Link.ofSettings s port capacity = .crashed crash →
      Link.ofSettings s' port capacity = .crashed crash) ∧
    ∀ l, Link.ofSettings s port capacity = .done l → ∃ l',
      Link.ofSettings s' port capacity = .done l' ∧ l'.announcement = l.announcement ∧
      ∀ es : List LinkEvent,
        let last := (l.run es).1
        let last' := (l'.run es).1
        linesOf (l'.run es).2 = linesOf (l.run es).2 ∧
        last'.status = last.status ∧ last'.status.document = last.status.document ∧
        last'.forwarder.failover.rotation = last.forwarder.failover.rotation ∧
        last'.forwarder.failover.activeTarget = last.forwarder.failover.activeTarget ∧
        last'.forwarder.ready = last.forwarder.ready ∧
        last'.forwarder.wake? = last.forwarder.wake? ∧ last'.join.1 = last.join.1 ∧
        l'.timed es =
          (l.timed es).map fun (moment, note) => (moment, note.withPassword password) := by
  intro s'
  have hmade := Link.ofSettings_withPassword s password port capacity
  refine ⟨rfl, rfl, fun fault hfault => ?_, fun crash hcrash => ?_, fun l hl => ?_⟩
  · rw [hmade, hfault]
    rfl
  · rw [hmade, hcrash]
    rfl
  · rw [hl] at hmade
    refine ⟨l.withPassword password, hmade, rfl, fun es => ?_⟩
    intro last last'
    have hrun := l.run_withPassword password es
    have hlast : last' = last.withPassword password := congrArg Prod.fst hrun
    have hnotes : ((l.withPassword password).run es).2 =
        (l.run es).2.map (Note.withPassword password) := congrArg Prod.snd hrun
    rw [hnotes, linesOf_withPassword, hlast]
    exact ⟨rfl, rfl, rfl, rfl, rfl, rfl, rfl, Link.join_withPassword, Link.timed_withPassword es⟩

/-- A link dials at a time, and the link with another password does so at the same time with the
other password. -/
theorem password_unseen_dialing :
    let s : LinkSettings := ⟨"tokyo", ⟨"tokyo", "pass"⟩, ["t1"], 10, 1000, .fixed⟩
    let work : LinkEvent := .forwarder (.work {})
    let es : List LinkEvent := [.forwarder .start, .offer ⟨"orders", "k".toUTF8, "v".toUTF8⟩,
      .forwarder (.elapse 500), work, work, work, work, work, .stop, work]
    ∃ l l', Link.ofSettings s 5701 100 = .done l ∧
      Link.ofSettings (s.withPassword "secret") 5701 100 = .done l' ∧
      linesOf (l'.run es).2 = linesOf (l.run es).2 ∧
      (500, .dialed ⟨"t1", 5701⟩ ⟨"tokyo", "pass"⟩ (.done none)) ∈ l.timed es ∧
      (500, .dialed ⟨"t1", 5701⟩ ⟨"tokyo", "secret"⟩ (.done none)) ∈ l'.timed es := by
  intro s work es
  obtain ⟨l, hl⟩ : ∃ l, Link.ofSettings s 5701 100 = .done l := ⟨_, rfl⟩
  obtain ⟨-, -, -, -, hmade⟩ := password_unseen s "secret" 5701 100
  obtain ⟨l', hl', -, hruns⟩ := hmade l hl
  obtain ⟨hlines, -, -, -, -, -, -, -, htimed⟩ := hruns es
  have hdialed : (500, .dialed ⟨"t1", 5701⟩ ⟨"tokyo", "pass"⟩ (.done none)) ∈ l.timed es := by
    cases hl
    exact List.mem_of_getElem? (i := 2) rfl
  refine ⟨l, l', hl, hl', hlines, hdialed, ?_⟩
  rw [htimed]
  exact List.mem_map.mpr ⟨_, hdialed, rfl⟩

end ClusterRelay
