import ClusterRelay.Proofs.Stopping
import Mathlib.Data.List.Induction

/-!
# Only live connections are written to

A connection may die at any time, so a probe is worth little by the time its answer is used. What a
forwarder can do is leave nothing between the two: the call before a submission is a probe of the
same connection, it was answered live, and the forwarder was not suspended in between. Nor does it
look for a new connection as long as the one in use has not failed its probe.

Both are facts about the order in which things happen over a whole run, in which mutations come,
connections die and searches start over. `Forwarder.trace` is this order: the calls, and between
them the marks of what a forwarder is at. A trace is read by a watch that remembers just as much of
it as matters, `Watch.Goes`; the states of a forwarder and of the watch belong together, `Fits`. A
step leads from such a pair to another, by cases on the phase, and so does a run. What the watch lets
pass is then read off from its few moves, and not from the forwarder any more.
-/

namespace ClusterRelay

def Note.isCall (n : Note) : Bool := n.call?.isSome

/-- The calls on the network that notes tell of, with their answers. -/
def calledIn (notes : List Note) : List Note := notes.filter Note.isCall

theorem calledIn_append (notes more : List Note) :
    calledIn (notes ++ more) = calledIn notes ++ calledIn more := List.filter_append ..

theorem calledIn_eq_nil {notes : List Note} (h : callsIn notes = []) : calledIn notes = [] := by
  apply List.filter_eq_nil_iff.mpr
  intro n hn
  simp [Note.isCall, List.filterMap_eq_nil_iff.mp h n hn]

/-- What is to be seen of a forwarder, one thing after the other. -/
inductive Mark where
  /-- It turns to another mutation, or looks whether there is one. -/
  | turn
  /-- It begins to search for a connection, and has this one in use. -/
  | search (inUse : Option ConnId)
  /-- It is suspended. -/
  | suspended
  /-- It makes a call at this time. -/
  | call (moment : Nat) (note : Note)

namespace Mark

def note? : Mark → Option Note
  | call _ note => some note
  | _ => none

/-- A turn or a search begins. -/
def opens : Mark → Bool
  | turn => true
  | search _ => true
  | _ => false

def submits : Mark → Bool
  | call _ (.submitted _ _ _) => true
  | _ => false

end Mark

/-- The turn is over: what is seen next, if anything, is that another one begins. -/
def TurnOver (ms : List Mark) : Prop := ms = [] ∨ ∃ more, ms = .turn :: more

/-- A search is on, and no connection is in use: there was none when the search began, or the first
thing that was seen then is a probe that did not find it live. -/
def Disconnected (ms : List Mark) : Prop :=
  ∃ earlier inUse since, ms = earlier ++ .search inUse :: since ∧ (∀ m ∈ since, m.opens = false) ∧
    (inUse = none ∨ ∃ conn moment live, inUse = some conn ∧ live ≠ .ok true ∧
      since.head? = some (.call moment (.probed conn live)))

theorem Mark.exists_of_submits {m : Mark} (h : m.submits = true) :
    ∃ moment conn frame answer, m = .call moment (.submitted conn frame answer) := by
  unfold Mark.submits at h
  split at h
  · exact ⟨_, _, _, _, rfl⟩
  · cases h

/-- Another submission has to wait for another turn. -/
theorem TurnOver.turn_mem {m : Mark} {between after : List Mark}
    (h : TurnOver (between ++ m :: after)) (hsubmits : m.submits = true) : .turn ∈ between := by
  rcases h with hnil | ⟨more, hcons⟩
  · simp at hnil
  · cases between with
    | nil =>
        cases hcons
        cases hsubmits
    | cons m' between =>
        cases hcons
        exact List.mem_cons_self

theorem Disconnected.snoc {ms : List Mark} {m : Mark} (h : Disconnected ms)
    (hopens : m.opens = false) : Disconnected (ms ++ [m]) := by
  obtain ⟨earlier, inUse, since, rfl, hsince, hlost⟩ := h
  refine ⟨earlier, inUse, since ++ [m], by simp, fun m' hm' => ?_, ?_⟩
  · rcases List.mem_append.mp hm' with hmem | hmem
    · exact hsince m' hmem
    · rw [List.mem_singleton.mp hmem]
      exact hopens
  · refine hlost.imp_right ?_
    rintro ⟨conn, moment, answer, hinUse, hdead, hhead⟩
    exact ⟨conn, moment, answer, hinUse, hdead, by rw [List.head?_append, hhead]; rfl⟩

namespace Forwarder

/-- What a forwarder is at when something happens, which may be that it gets to work. -/
def caughtAt (w : Forwarder) (works : Bool) : List Mark :=
  match w.phase with
  | .choosing => if works then [.turn] else []
  | .seeking _ .verifying =>
    if works && !w.stopping then [.search (w.failover.active.map Prod.snd)] else []
  | _ => if w.suspended then [.suspended] else []

def marks (w : Forwarder) (e : Event) : List Mark :=
  w.caughtAt e.isWork ++ (calledIn (w.step e).2).map (Mark.call w.now)

/-- All that is to be seen in a run. -/
def trace (w : Forwarder) : List Occasion → List Mark
  | [] => []
  | o :: os => (w.under o.pacing).marks o.event ++ (w.stepUnder o).trace os

/-- Time passes only while there is nothing that the forwarder could do. -/
def Prompt (w : Forwarder) : List Occasion → Prop
  | [] => True
  | o :: os =>
    (∀ moment, o.event = .elapse moment → w.ready = false) ∧ (w.stepUnder o).Prompt os

end Forwarder

/-! ## The watch -/

/-- What is remembered of a trace. -/
inductive Watch where
  /-- No turn has begun, or the last one has come to its end. -/
  | over
  /-- There has been no search in this turn. -/
  | turned
  /-- A search has begun, and this connection in use is still to be probed. -/
  | bound (conn : ConnId)
  /-- There is no connection in use that could be live. -/
  | free
  /-- This connection has just been found live, at this time. -/
  | seen (conn : ConnId) (moment : Nat)
  /-- A frame has just been submitted to this connection. -/
  | wrote (conn : ConnId)

namespace Watch

/-- What may be seen, and how the watch goes on. Where the forwarder is never kept from its work, a
submission comes at the time of the probe. -/
inductive Goes (prompt : Prop) : Watch → Mark → Watch → Prop where
  | turn : Goes prompt .over .turn .turned
  /-- The mutation could not be written, and nothing was submitted. -/
  | turnAgain {conn : ConnId} {moment : Nat} : Goes prompt (.seen conn moment) .turn .turned
  | wait : Goes prompt .turned .suspended .turned
  | close {conn : ConnId} {answer : Option Crash} {moment : Nat} :
      Goes prompt .turned (.call moment (.released conn answer)) .turned
  | search : Goes prompt .turned (.search none) .free
  | verify {conn : ConnId} : Goes prompt .turned (.search (some conn)) (.bound conn)
  | reuse {conn : ConnId} {moment : Nat} :
      Goes prompt (.bound conn) (.call moment (.probed conn (.ok true))) (.seen conn moment)
  | lose {conn : ConnId} {answer : Except Crash Bool} {moment : Nat} (hlost : answer ≠ .ok true) :
      Goes prompt (.bound conn) (.call moment (.probed conn answer)) .free
  | rest : Goes prompt .free .suspended .free
  | dial {endpoint : Endpoint} {credentials : Credentials} {answer : Outcome (Option ConnId)}
      {moment : Nat} : Goes prompt .free (.call moment (.dialed endpoint credentials answer)) .free
  | release {conn : ConnId} {answer : Option Crash} {moment : Nat} :
      Goes prompt .free (.call moment (.released conn answer)) .free
  | reject {conn : ConnId} {answer : Except Crash Bool} {moment : Nat} (hdead : answer ≠ .ok true) :
      Goes prompt .free (.call moment (.probed conn answer)) .free
  | find {conn : ConnId} {moment : Nat} :
      Goes prompt .free (.call moment (.probed conn (.ok true))) (.seen conn moment)
  | write {conn : ConnId} {frame : ByteArray} {seen moment : Nat} (hnow : prompt → seen = moment) :
      Goes prompt (.seen conn seen) (.call moment (.submitted conn frame (.done ()))) (.wrote conn)
  | fail {conn : ConnId} {frame : ByteArray} {answer : Outcome Unit} {seen moment : Nat}
      (hnow : prompt → seen = moment) (hfailed : answer ≠ .done ()) :
      Goes prompt (.seen conn seen) (.call moment (.submitted conn frame answer)) .over
  | follow {conn : ConnId} {answer : Except Crash Bool} {moment : Nat} :
      Goes prompt (.wrote conn) (.call moment (.probed conn answer)) .over

/-- One mark after the other. -/
def Path (prompt : Prop) : Watch → List Mark → Watch → Prop
  | a, [], b => a = b
  | a, m :: ms, c => ∃ b, Goes prompt a m b ∧ Path prompt b ms c

variable {prompt : Prop} {a b c : Watch} {m : Mark} {ms ms' : List Mark} {conn : ConnId}

theorem path_append : Path prompt a (ms ++ ms') c ↔
    ∃ b, Path prompt a ms b ∧ Path prompt b ms' c := by
  induction ms generalizing a with
  | nil => simp [Path]
  | cons m ms ih =>
      simp only [List.cons_append, Path, ih]
      constructor
      · rintro ⟨b, hgoes, b', hpath, hpath'⟩
        exact ⟨b', ⟨b, hgoes, hpath⟩, hpath'⟩
      · rintro ⟨b', ⟨b, hgoes, hpath⟩, hpath'⟩
        exact ⟨b, hgoes, b', hpath, hpath'⟩

theorem path_snoc : Path prompt a (ms ++ [m]) c ↔
    ∃ b, Path prompt a ms b ∧ Goes prompt b m c := by
  simp [path_append, Path]

theorem Path.at {before after : List Mark} (h : Path prompt a (before ++ m :: after) c) :
    ∃ b b', Path prompt a before b ∧ Goes prompt b m b' ∧ Path prompt b' after c := by
  obtain ⟨b, hbefore, b', hgoes, hafter⟩ := path_append.mp h
  exact ⟨b, b', hbefore, hgoes, hafter⟩

theorem Goes.path (h : Goes prompt a m b) : Path prompt a [m] b := ⟨b, h, rfl⟩

/-! ## What the watch has seen -/

theorem Path.of_seen {moment : Nat} (h : Path prompt .over ms (.seen conn moment)) :
    ∃ earlier, ms = earlier ++ [.call moment (.probed conn (.ok true))] := by
  cases ms using List.reverseRecOn with
  | nil => cases h
  | append_singleton earlier m =>
      obtain ⟨b, -, hgoes⟩ := path_snoc.mp h
      cases hgoes with
      | reuse => exact ⟨earlier, rfl⟩
      | find => exact ⟨earlier, rfl⟩

theorem Path.of_bound (h : Path prompt .over ms (.bound conn)) :
    ∃ earlier, ms = earlier ++ [.search (some conn)] := by
  cases ms using List.reverseRecOn with
  | nil => cases h
  | append_singleton earlier m =>
      obtain ⟨b, -, hgoes⟩ := path_snoc.mp h
      cases hgoes
      exact ⟨earlier, rfl⟩

theorem Path.of_free (h : Path prompt .over ms .free) : Disconnected ms := by
  -- On the last move: either a search has just lost its connection, or it goes on without one.
  induction ms using List.reverseRecOn with
  | nil => cases h
  | append_singleton ms m ih =>
      obtain ⟨b, hpath, hgoes⟩ := path_snoc.mp h
      cases hgoes with
      | search => exact ⟨ms, none, [], rfl, nofun, Or.inl rfl⟩
      | @lose conn answer moment hlost =>
          obtain ⟨earlier, rfl⟩ := hpath.of_bound
          refine ⟨earlier, some conn, [.call moment (.probed conn answer)], by simp, ?_,
            Or.inr ⟨conn, moment, answer, rfl, hlost, rfl⟩⟩
          intro m hm
          rw [List.mem_singleton.mp hm]
          rfl
      | rest => exact (ih hpath).snoc rfl
      | dial => exact (ih hpath).snoc rfl
      | release => exact (ih hpath).snoc rfl
      | reject _ => exact (ih hpath).snoc rfl

/-! ## What it is going to see -/

theorem Path.turnOver (h : Path prompt .over ms b) : TurnOver ms := by
  cases ms with
  | nil => exact Or.inl rfl
  | cons m ms =>
      obtain ⟨b, hgoes, -⟩ := h
      cases hgoes
      exact Or.inr ⟨ms, rfl⟩

theorem Path.followed (h : Path prompt (.wrote conn) ms b) :
    (ms = [] ∧ b = .wrote conn) ∨
      ∃ moment answer more, ms = .call moment (.probed conn answer) :: more ∧ TurnOver more := by
  cases ms with
  | nil => exact Or.inl ⟨rfl, h.symm⟩
  | cons m ms =>
      obtain ⟨b, hgoes, hpath⟩ := h
      cases hgoes
      exact Or.inr ⟨_, _, ms, rfl, hpath.turnOver⟩

end Watch

/-! ## The steps of a search -/

open Watch

/-- How the watch stands when a search has come to this. -/
def Progress.watch (now : Nat) : Progress → Watch
  | .found conn => .seen conn now
  | _ => .free

/-- The search begins anew. -/
def Progress.restarts : Progress → Bool
  | .seeking .verifying => true
  | _ => false

/-- A step of a search makes calls that may be seen, and it does not begin the search anew. -/
structure Turn.Shown (prompt : Prop) (now : Nat) (a : Watch) (t : Turn) : Prop where
  path : Path prompt a ((calledIn t.notes).map (Mark.call now)) (t.progress.watch now)
  onward : t.progress.restarts = false

/-- It makes these calls, and they bring no connection. -/
structure Turn.Vain (calls : List Note) (t : Turn) : Prop where
  calls : calledIn t.notes = calls
  unfound : ∀ now, t.progress.watch now = .free
  onward : t.progress.restarts = false

theorem Turn.Vain.shown {prompt : Prop} {now : Nat} {a : Watch} {calls : List Note} {t : Turn}
    (h : t.Vain calls) (hcalls : Path prompt a (calls.map (Mark.call now)) .free) :
    t.Shown prompt now a := by
  refine ⟨?_, h.onward⟩
  rw [h.calls, h.unfound]
  exact hcalls

namespace Failover

variable {f : Failover} {c : Counters} {now : Nat} {a : Answers} {prompt : Prop}

theorem calledIn_said (notes : List Note) (line : String → LogLine) (text : String) :
    calledIn (notes ++ [f.say line text]) = calledIn notes := by
  simp [calledIn, say, Note.isCall, Note.call?]

theorem vain_rest (notes : List Note) : (f.rest c now notes).Vain (calledIn notes) := by
  unfold rest
  split <;> exact ⟨rfl, fun _ => rfl, rfl⟩

theorem vain_failed (notes : List Note) (target : String) (fault : Fault) :
    (f.failed c now notes target fault).Vain (calledIn notes) := by
  rw [← calledIn_said (f := f)]
  exact vain_rest _

theorem vain_exhausted (notes : List Note) (target : String) :
    (f.exhausted c now notes target).Vain (calledIn notes) := by
  rcases f.exhausted_cases c now notes target with ⟨text, hexhausted⟩ | ⟨crash, hexhausted⟩
  · rw [hexhausted, ← calledIn_said (f := f)]
    exact vain_rest _
  · rw [hexhausted]
    exact ⟨rfl, fun _ => rfl, rfl⟩

theorem vain_caught {calls notes : List Note} {next : Turn} (hcalls : calledIn notes = calls)
    (h : next.Vain calls) : (f.caught c a notes next).Vain calls := by
  rcases f.caught_cases c a notes next with hcaught | ⟨crash, hcaught⟩
  · rw [hcaught]
    exact h
  · rw [hcaught]
    exact ⟨hcalls, fun _ => rfl, rfl⟩

theorem vain_pause (notes : List Note) (v : Visit) :
    (f.pause c now notes v).Vain (calledIn notes) := by
  unfold pause
  split <;> exact ⟨rfl, fun _ => rfl, rfl⟩

theorem vain_visit : (f.visit c now).Vain [] := by
  unfold visit
  split
  · exact vain_rest []
  · split
    · exact vain_failed [] _ _
    · split
      · exact ⟨rfl, fun _ => rfl, rfl⟩
      · exact vain_exhausted [] _
      · exact ⟨rfl, fun _ => rfl, rfl⟩

theorem vain_nextPoll (v : Visit) : (f.nextPoll c now [] v).Vain [] := by
  unfold nextPoll
  split
  · exact ⟨rfl, fun _ => rfl, rfl⟩
  · exact vain_exhausted [] _

theorem vain_retire (notes : List Note) (target : String) (conn : ConnId) :
    (f.retire c notes target conn).Vain (calledIn notes) := by
  rw [← calledIn_said (f := f)]
  exact ⟨rfl, fun _ => rfl, rfl⟩

/-- How the watch stands when a search begins. -/
def entering : Option ConnId → Watch
  | none => .free
  | some conn => .bound conn

theorem goes_entering (inUse : Option ConnId) :
    Goes prompt .turned (.search inUse) (entering inUse) := by
  cases inUse with
  | none => exact .search
  | some conn => exact .verify

/-- A search begins with the connection in use. -/
theorem shown_verifying :
    (f.step c now a .verifying).Shown prompt now (entering (f.active.map Prod.snd)) := by
  simp only [step]
  split
  · next hactive =>
      rw [hactive]
      exact ⟨rfl, rfl⟩
  · next target conn hactive =>
      rw [hactive]
      split
      · next hlive =>
          rw [hlive]
          exact ⟨Goes.reuse.path, rfl⟩
      · next hdead => exact (vain_retire _ target conn).shown (Goes.lose (by simp [hdead])).path
      · next crash hcrash =>
          have hretired := vain_retire (f := f) (c := c) [.probed conn a.probe,
            f.say .warn ("liveness check on " ++ target ++ " failed: " ++
              (crash.asFault "liveness check").message)] target conn
          refine (vain_caught ?_ hretired).shown (Goes.lose (by simp [hcrash])).path
          rfl

/-- From there on there is no connection in use. -/
theorem shown_step {s : Seek} (hs : s ≠ .verifying) :
    (f.step c now a s).Shown prompt now .free := by
  cases s with
  | verifying => exact absurd rfl hs
  | dropping conn =>
      simp only [step]
      split <;> exact ⟨Goes.release.path, rfl⟩
  | visiting => exact vain_visit.shown rfl
  | dialing v =>
      simp only [step]
      split
      · exact (vain_pause _ v).shown Goes.dial.path
      · exact ⟨Goes.dial.path, rfl⟩
      · exact (vain_failed _ _ _).shown Goes.dial.path
      · exact (vain_caught rfl (vain_failed _ _ _)).shown Goes.dial.path
  | probing v conn =>
      simp only [step]
      split
      · next hlive =>
          rw [hlive]
          exact ⟨Goes.find.path, rfl⟩
      · next hdead => exact ⟨(Goes.reject (by simp [hdead])).path, rfl⟩
      · next crash hcrash => exact ⟨(Goes.reject (by simp [hcrash])).path, rfl⟩
  | discarding v conn =>
      simp only [step]
      split
      · exact (vain_pause _ v).shown Goes.release.path
      · exact (vain_caught rfl (vain_failed _ _ _)).shown Goes.release.path
  | lapsing v conn crash => exact (vain_caught rfl (vain_failed _ _ _)).shown Goes.release.path
  | pausing v wake =>
      simp only [step]
      split
      · exact ⟨rfl, rfl⟩
      · exact (vain_nextPoll v).shown rfl
  | resting wake =>
      simp only [step]
      split <;> exact ⟨rfl, rfl⟩

end Failover

/-! ## A forwarder and its watch -/

namespace Forwarder

variable {w w' : Forwarder} {watch : Watch} {prompt : Prop} {a : Answers} {p : Parcel} {s : Seek}

/-- How the watch stands while a forwarder is in its phase. A turn may begin after a submission, and
also after a mutation that could not be written, so two states of the watch fit where one is about to
begin. -/
def Fits (prompt : Prop) (w : Forwarder) (watch : Watch) : Prop :=
  match w.phase with
  | .idle | .choosing => Goes prompt watch .turn .turned
  | .waiting | .seeking _ .verifying => watch = .turned
  | .seeking _ _ => watch = .free
  | .submitting _ conn => ∃ seen, watch = .seen conn seen ∧ (prompt → seen = w.now)
  | .confirming _ conn => watch = .wrote conn
  | .closing _ => watch = .turned ∨ watch = .free
  | .ended _ => ∀ conn, watch ≠ .wrote conn

/-- The watch lets these marks pass, and fits the forwarder afterwards. -/
def Passes (prompt : Prop) (watch : Watch) (ms : List Mark) (w : Forwarder) : Prop :=
  ∃ watch', Path prompt watch ms watch' ∧ Fits prompt w watch'

theorem Fits.passes (h : Fits prompt w watch) : Passes prompt watch [] w := ⟨watch, rfl, h⟩

theorem Passes.cons {before : Watch} {m : Mark} {ms : List Mark} (hgoes : Goes prompt before m watch)
    (h : Passes prompt watch ms w) : Passes prompt before (m :: ms) w := by
  obtain ⟨watch', hpath, hfits⟩ := h
  exact ⟨watch', ⟨watch, hgoes, hpath⟩, hfits⟩

theorem Fits.same (h : Fits prompt w watch) (hphase : w'.phase = w.phase) (hnow : w'.now = w.now) :
    Fits prompt w' watch := by
  rw [Fits, hphase, hnow]
  exact h

theorem fits_seeking (hphase : w.phase = .seeking p s) (hs : s ≠ .verifying) :
    Fits prompt w watch ↔ watch = .free := by
  rw [Fits, hphase]
  cases s with
  | verifying => exact absurd rfl hs
  | dropping | visiting | dialing | probing | discarding | lapsing | pausing | resting => rfl

theorem fits_finish (h : watch = .turned ∨ watch = .free) : Fits prompt w.finish.1 watch := by
  unfold finish Fits
  cases w.failover.active with
  | none => rcases h with rfl | rfl <;> nofun
  | some inUse => exact h

/-- A crash that was caught leads on to a next turn, and one that was not leads nowhere. -/
theorem passes_caught {handled : Forwarder × List Note} (hcalls : calledIn handled.2 = [])
    (h : handled.1.phase = .choosing) :
    Passes prompt .over ((calledIn (w.caught a handled).2).map (Mark.call w.now))
      (w.caught a handled).1 := by
  rcases w.caught_cases a handled with hcaught | ⟨crash, hcaught⟩
  · rw [hcaught]
    refine ⟨.over, by rw [hcalls]; rfl, ?_⟩
    rw [Fits, h]
    exact .turn
  · rw [hcaught]
    exact ⟨.over, rfl, fun _ hwrote => by cases hwrote⟩

theorem caughtAt_seeking (hphase : w.phase = .seeking p s) (hs : s ≠ .verifying) (works : Bool) :
    w.caughtAt works = if w.suspended then [.suspended] else [] := by
  rw [caughtAt, hphase]
  cases s with
  | verifying => exact absurd rfl hs
  | dropping | visiting | dialing | probing | discarding | lapsing | pausing | resting => rfl

/-- A search that is not called off. -/
theorem passes_seek (hunheeded : w.heeds s = false)
    (hshown : (w.failover.step w.counters w.now a s).Shown prompt w.now watch) :
    Passes prompt watch ((calledIn (w.seek p s a).2).map (Mark.call w.now)) (w.seek p s a).1 := by
  obtain ⟨hpath, honward⟩ := hshown
  refine ⟨(w.failover.step w.counters w.now a s).progress.watch w.now, ?_⟩
  rw [heeds] at hunheeded
  simp only [seek, hunheeded]
  generalize w.failover.step w.counters w.now a s = t at hpath honward ⊢
  obtain ⟨failover, counters, progress, notes⟩ := t
  cases progress with
  | seeking next =>
      refine ⟨hpath, (fits_seeking rfl ?_).mpr rfl⟩
      rintro rfl
      cases honward
  | found conn => exact ⟨hpath, w.now, rfl, fun _ => rfl⟩
  | broken crash =>
      refine ⟨?_, fun _ hwrote => by cases hwrote⟩
      simpa [calledIn, breakDown, say, Note.isCall, Note.call?] using hpath

theorem Fits.seek (h : Fits prompt w watch) (hphase : w.phase = .seeking p s) :
    Passes prompt watch (w.marks (.work a)) (w.work a).1 := by
  by_cases hs : s = .verifying
  · subst hs
    have hturned : watch = .turned := by rwa [Fits, hphase] at h
    subst hturned
    cases hstop : w.stopping with
    | true =>
        simp only [marks, caughtAt, Forwarder.step, Forwarder.work, hphase, Forwarder.seek, hstop]
        exact (fits_finish (Or.inl rfl)).passes
    | false =>
        simp only [marks, caughtAt, Forwarder.step, Forwarder.work, hphase, hstop]
        exact (passes_seek (by simp [heeds, hstop]) Failover.shown_verifying).cons
          (Failover.goes_entering _)
  · have hfree := (fits_seeking hphase hs).mp h
    subst hfree
    have hstep : Passes prompt .free ((calledIn (w.work a).2).map (Mark.call w.now))
        (w.work a).1 := by
      simp only [Forwarder.work, hphase]
      cases hheeds : w.heeds s with
      | true =>
          rw [heeds] at hheeds
          simp only [Forwarder.seek, hheeds]
          exact (fits_finish (Or.inr rfl)).passes
      | false => exact passes_seek hheeds (Failover.shown_step hs)
    rw [marks, caughtAt_seeking hphase hs]
    split
    · exact hstep.cons .rest
    · exact hstep

theorem Fits.work (h : Fits prompt w watch) :
    Passes prompt watch (w.marks (.work a)) (w.work a).1 := by
  cases hphase : w.phase with
  | seeking p s => exact h.seek hphase
  | idle =>
      simp only [marks, caughtAt, suspended, Forwarder.step, Forwarder.work, hphase]
      exact h.passes
  | choosing =>
      rw [Fits, hphase] at h
      simp only [marks, caughtAt, Event.isWork, if_true, Forwarder.step, Forwarder.work, hphase,
        choose]
      split
      · exact (fits_finish (Or.inl rfl)).passes.cons h
      · split
        · exact Passes.cons h ⟨.turned, rfl, rfl⟩
        · exact Passes.cons h ⟨.turned, rfl, rfl⟩
  | waiting =>
      rw [Fits, hphase] at h
      subst h
      simp only [marks, caughtAt, suspended, if_true, Forwarder.step, Forwarder.work, hphase, await]
      split
      · exact (fits_finish (Or.inl rfl)).passes.cons .wait
      · split
        · exact Passes.cons .wait ⟨.turned, rfl, rfl⟩
        · refine Passes.cons .wait ⟨.turned, rfl, ?_⟩
          rw [Fits, hphase]
  | submitting p conn =>
      rw [Fits, hphase] at h
      obtain ⟨seen, rfl, hnow⟩ := h
      simp only [marks, caughtAt, suspended, Bool.false_eq_true, if_false, Forwarder.step,
        Forwarder.work, hphase, submit]
      split
      · exact ⟨.seen conn seen, rfl, .turnAgain⟩
      · split
        · next hdone =>
            rw [hdone]
            exact Passes.cons (.write hnow) ⟨.wrote conn, rfl, rfl⟩
        · next hrefused =>
            exact Passes.cons (.fail hnow (by simp [hrefused])) ⟨.over, rfl, .turn⟩
        · next hcrashed =>
            exact (passes_caught rfl rfl).cons (.fail hnow (by simp [hcrashed]))
  | confirming p conn =>
      rw [Fits, hphase] at h
      subst h
      simp only [marks, caughtAt, suspended, Bool.false_eq_true, if_false, Forwarder.step,
        Forwarder.work, hphase, confirm]
      split
      · exact Passes.cons .follow ⟨.over, rfl, .turn⟩
      · exact Passes.cons .follow ⟨.over, rfl, .turn⟩
      · exact (passes_caught rfl rfl).cons .follow
  | closing conn =>
      rw [Fits, hphase] at h
      simp only [marks, caughtAt, suspended, Bool.false_eq_true, if_false, Forwarder.step,
        Forwarder.work, hphase, close]
      rcases h with rfl | rfl
      · exact Passes.cons .close ⟨.turned, rfl, fun _ hwrote => by cases hwrote⟩
      · exact Passes.cons .release ⟨.free, rfl, fun _ hwrote => by cases hwrote⟩
  | ended how =>
      simp only [marks, caughtAt, suspended, Forwarder.step, Forwarder.work, hphase]
      exact h.passes

/-- Whatever else happens, the watch stays where it is. -/
theorem Fits.caught (h : Fits prompt w watch) : Path prompt watch (w.caughtAt false) watch := by
  cases hphase : w.phase with
  | waiting =>
      rw [Fits, hphase] at h
      subst h
      simp only [caughtAt, suspended, hphase, if_true]
      exact Goes.wait.path
  | seeking p s =>
      by_cases hs : s = .verifying
      · simp only [caughtAt, hphase, hs]
        rfl
      · have hfree := (fits_seeking hphase hs).mp h
        subst hfree
        rw [caughtAt_seeking hphase hs]
        split
        · exact Goes.rest.path
        · rfl
  | idle | choosing | submitting | confirming | closing | ended =>
      simp only [caughtAt, suspended, hphase]
      rfl

theorem Fits.aside (h : Fits prompt w watch) {e : Event} (hidle : e.isWork = false)
    (hcalls : calledIn (w.step e).2 = []) (hfits : Fits prompt (w.step e).1 watch) :
    Passes prompt watch (w.marks e) (w.step e).1 := by
  refine ⟨watch, ?_, hfits⟩
  rw [marks, hidle, hcalls, List.map_nil, List.append_nil]
  exact h.caught

theorem Fits.begin (h : Fits prompt w watch) : Fits prompt w.begin.1 watch := by
  unfold Forwarder.begin
  split
  · next hphase =>
      rw [Fits, hphase] at h
      exact h
  · exact h

/-- Between the probe and the submission there is something to do. -/
theorem Fits.elapse (h : Fits prompt w watch) (hprompt : prompt → w.ready = false)
    (moment : Nat) : Fits prompt (w.elapse moment) watch := by
  cases hphase : w.phase with
  | submitting p conn =>
      rw [Fits, hphase] at h
      obtain ⟨seen, rfl, -⟩ := h
      have hready : w.ready = true := by rw [ready, hphase]
      simp only [Fits, Forwarder.elapse, hphase]
      exact ⟨seen, rfl, fun hp => absurd hready (by simp [hprompt hp])⟩
  | seeking p s =>
      simp only [Fits, Forwarder.elapse, hphase] at h ⊢
      -- Which of the two lines of `Fits` it is depends on the place in the search.
      cases s <;> exact h
  | idle | choosing | waiting | confirming | closing | ended =>
      simp only [Fits, Forwarder.elapse, hphase] at h ⊢
      exact h

theorem Fits.step (h : Fits prompt w watch) {o : Occasion}
    (hprompt : prompt → ∀ moment, o.event = .elapse moment → w.ready = false) :
    Passes prompt watch ((w.under o.pacing).marks o.event) (w.stepUnder o) := by
  have hunder : Fits prompt (w.under o.pacing) watch := h
  unfold stepUnder
  cases hevent : o.event with
  | start =>
      refine hunder.aside rfl ?_ hunder.begin
      simp only [Forwarder.step, Forwarder.begin]
      split <;> rfl
  | offer m =>
      exact hunder.aside rfl (calledIn_eq_nil (callsIn_offer _ m)) (hunder.same rfl rfl)
  | stop =>
      refine hunder.aside rfl rfl ?_
      simp only [Forwarder.step, signalStop]
      split <;> exact hunder.same rfl rfl
  | orphan =>
      refine hunder.aside rfl rfl ?_
      simp only [Forwarder.step, Forwarder.orphan]
      split <;> exact hunder.same rfl rfl
  | elapse moment =>
      exact hunder.aside rfl rfl (hunder.elapse (fun hp => hprompt hp moment hevent) moment)
  | work a => exact hunder.work

theorem Fits.run (h : Fits prompt w watch) {os : List Occasion} (hprompt : prompt → w.Prompt os) :
    Passes prompt watch (w.trace os) (w.runUnder os) := by
  induction os generalizing w watch with
  | nil => exact h.passes
  | cons o os ih =>
      obtain ⟨next, hnow, hnext⟩ := h.step fun hp => (hprompt hp).1
      obtain ⟨last, hthen, hlast⟩ := ih hnext fun hp => (hprompt hp).2
      exact ⟨last, path_append.mpr ⟨next, hnow, hthen⟩, hlast⟩

/-- Only a forwarder that is about to probe the connection again has just written to it. -/
theorem Fits.confirming {conn : ConnId} (h : Fits prompt w (.wrote conn)) :
    ∃ p, w.phase = .confirming p conn := by
  unfold Fits at h
  split at h
  · cases h
  · cases h
  · cases h
  · cases h
  · cases h
  · obtain ⟨_, hwatch, -⟩ := h
    cases hwatch
  · next p conn' hphase =>
      cases h
      exact ⟨p, hphase⟩
  · rcases h with h | h <;> cases h
  · exact absurd rfl (h conn)

theorem fits_start (f : Failover) (capacity : Nat) :
    Fits prompt (ofParts f (Backlog.ofCapacity capacity)) .over := .turn

theorem notes_caughtAt (w : Forwarder) (works : Bool) :
    (w.caughtAt works).filterMap Mark.note? = [] := by
  unfold caughtAt
  split <;> split <;> rfl

/-- Nothing that is called is missing in a trace, and nothing is called in another order. -/
theorem notes_trace (w : Forwarder) (os : List Occasion) :
    (w.trace os).filterMap Mark.note? = calledIn (w.notesUnder os) := by
  induction os generalizing w with
  | nil => rfl
  | cons o os ih =>
      have hcalls (notes : List Note) :
          (notes.map (Mark.call (w.under o.pacing).now)).filterMap Mark.note? = notes := by
        rw [List.filterMap_map]
        exact List.filterMap_some
      rw [trace, notesUnder, marks, List.filterMap_append, List.filterMap_append, notes_caughtAt,
        hcalls, ih, calledIn_append, List.nil_append]

end Forwarder

/-- Over any run, whatever the network answers: nothing is submitted unless the last thing that was
seen before is a probe of the same connection that found it live, at the same time if time passes
only where there is nothing to do. After a submission that went well the connection is probed once,
and after any other there is no call, before the turn is over; so there is one submission at most in
a turn. And no peer is dialed unless, when the search began, no connection was in use, or the first
thing that was seen then is a probe that did not find it live. -/
theorem writes_follow_live_probes (f : Failover) (capacity : Nat) (os : List Occasion) :
    let w := Forwarder.ofParts f (Backlog.ofCapacity capacity)
    let trace := w.trace os
    trace.filterMap Mark.note? = calledIn (w.notesUnder os) ∧
    (∀ before moment conn frame answer after,
      trace = before ++ .call moment (.submitted conn frame answer) :: after →
      (∃ earlier seen, before = earlier ++ [.call seen (.probed conn (.ok true))] ∧
        (w.Prompt os → seen = moment)) ∧
      (answer = .done () →
        (after = [] ∧ ∃ p, (w.runUnder os).phase = .confirming p conn) ∨
        ∃ later live more, after = .call later (.probed conn live) :: more ∧ TurnOver more) ∧
      (answer ≠ .done () → TurnOver after)) ∧
    (∀ before first between second after,
      trace = before ++ first :: (between ++ second :: after) →
      first.submits = true → second.submits = true → .turn ∈ between) ∧
    ∀ before moment endpoint credentials answer after,
      trace = before ++ .call moment (.dialed endpoint credentials answer) :: after →
      Disconnected before := by
  intro w trace
  obtain ⟨last, hpath, hlast⟩ : Forwarder.Passes (w.Prompt os) .over trace (w.runUnder os) :=
    (Forwarder.fits_start f capacity).run id
  refine ⟨Forwarder.notes_trace _ _, fun before moment conn frame answer after htrace => ?_,
    fun before first between second after htrace hfirst hsecond => ?_,
    fun before moment endpoint credentials answer after htrace => ?_⟩
  · obtain ⟨b, b', hbefore, hgoes, hafter⟩ := Path.at (htrace ▸ hpath)
    cases hgoes with
    | write hnow =>
        obtain ⟨earlier, hearlier⟩ := hbefore.of_seen
        refine ⟨⟨earlier, _, hearlier, hnow⟩, fun _ => ?_, fun hfailed => absurd rfl hfailed⟩
        refine hafter.followed.imp_left fun ⟨hnil, hwrote⟩ => ⟨hnil, ?_⟩
        subst hwrote
        exact hlast.confirming
    | fail hnow hfailed =>
        obtain ⟨earlier, hearlier⟩ := hbefore.of_seen
        exact ⟨⟨earlier, _, hearlier, hnow⟩, fun hdone => absurd hdone hfailed,
          fun _ => hafter.turnOver⟩
  · obtain ⟨b, b', -, hgoes, hafter⟩ := Path.at (htrace ▸ hpath)
    obtain ⟨moment, conn, frame, answer, rfl⟩ := Mark.exists_of_submits hfirst
    cases hgoes with
    | fail _ _ => exact hafter.turnOver.turn_mem hsecond
    | write _ =>
        rcases hafter.followed with ⟨hnil, -⟩ | ⟨later, live, more, hcons, hover⟩
        · simp at hnil
        · cases between with
          | nil =>
              cases hcons
              cases hsecond
          | cons m between =>
              cases hcons
              exact List.mem_cons_of_mem _ (hover.turn_mem hsecond)
  · obtain ⟨b, b', hbefore, hgoes, -⟩ := Path.at (htrace ▸ hpath)
    cases hgoes
    exact hbefore.of_free

/-- A connection is found, written to and lost, while the time is 500 throughout. -/
def foundAndLost : List Occasion :=
  [.start, .work {}, .elapse 500, .offer ⟨"orders", "k".toUTF8, "v".toUTF8⟩, .work {}, .work {},
    .work {}, .work { dial := .done (some 7) }, .work {}, .work {}, .work { probe := .ok false },
    .work {}, .work { probe := .ok false }, .work {}, .work {}, .work { dial := .done none }].map
    (Occasion.mk Schedule.standard.pacing)

theorem trace_foundAndLost : ∃ frame endpoint,
    (Forwarder.ofParts oneTarget (Backlog.ofCapacity 10)).trace foundAndLost =
      [.turn, .suspended, .suspended, .suspended, .search none,
        .call 500 (.dialed endpoint oneTarget.credentials (.done (some 7))),
        .call 500 (.probed 7 (.ok true))] ++
      .call 500 (.submitted 7 frame (.done ())) :: ([.call 500 (.probed 7 (.ok false)), .turn,
        .search (some 7), .call 500 (.probed 7 (.ok false)), .call 500 (.released 7 none)] ++
      [.call 500 (.dialed endpoint oneTarget.credentials (.done none))]) :=
  ⟨_, _, rfl⟩

theorem writes_follow_live_probes_found :
    let w := Forwarder.ofParts oneTarget (Backlog.ofCapacity 10)
    let trace := w.trace foundAndLost
    w.Prompt foundAndLost ∧
    (∃ earlier frame later live more,
      trace = earlier ++ [.call 500 (.probed 7 (.ok true))] ++
        .call 500 (.submitted 7 frame (.done ())) :: .call later (.probed 7 live) :: more ∧
      TurnOver more) ∧
    ∃ before endpoint,
      trace = before ++ [.call 500 (.dialed endpoint oneTarget.credentials (.done none))] ∧
      Disconnected before := by
  intro w trace
  obtain ⟨frame, endpoint, htrace⟩ := trace_foundAndLost
  obtain ⟨-, hsubmitted, -, hdialed⟩ := writes_follow_live_probes oneTarget 10 foundAndLost
  have hprompt : w.Prompt foundAndLost := by
    refine ⟨nofun, nofun, fun _ _ => rfl, ?_⟩
    simp [Forwarder.Prompt]
  have hdial : trace = _ ++ [.call 500 (.dialed endpoint oneTarget.credentials (.done none))] :=
    htrace.trans (List.append_assoc _ (_ :: _) _).symm
  refine ⟨hprompt, ?_, _, endpoint, hdial, hdialed _ _ _ _ _ [] hdial⟩
  obtain ⟨⟨earlier, seen, hbefore, hnow⟩, hfollowed, -⟩ := hsubmitted _ _ _ _ _ _ htrace
  rcases hfollowed rfl with ⟨hnil, -⟩ | ⟨later, live, more, hafter, hover⟩
  · cases hnil
  · refine ⟨earlier, frame, later, live, more, ?_, hover⟩
    rw [hnow hprompt] at hbefore
    rw [← hafter, ← hbefore]
    exact htrace

end ClusterRelay
