import ClusterRelay.Proofs.Admission
import ClusterRelay.Proofs.Custody
import ClusterRelay.Proofs.DropOldest
import ClusterRelay.Proofs.Service

/-!
# What each link is offered

A relay does to its links what its events say, to all of them or to one, by name or by place. Seen
from one link most of this is none of its business. What is, is its share of the events, and at any
time the link is where its share alone would have brought it: `Relay.share_run`. That is why no link
can change what another one is offered, whatever becomes of it.

A link by itself has a door that closes once. Before the signal to stop every mutation that is
offered comes in, whether or not another one has to make way for it in the backlog; after the signal
only what had already passed the door. So what comes to a link can be read off its share: `heard`.
-/

namespace ClusterRelay

/-! ## One link -/

namespace LinkEvent

/-- The signal to stop is given. -/
def stops : LinkEvent → Bool
  | .stop | .forwarder .stop => true
  | _ => false

/-- The mutation that has passed the door, and comes to the backlog in any case. -/
def late? : LinkEvent → Option Mutation
  | .forwarder e => e.offer?
  | _ => none

/-- The mutation that comes to the backlog if the door is open. -/
def offered? : LinkEvent → Option Mutation
  | .offer m => some m
  | e => e.late?

end LinkEvent

/-- The mutations that come to the backlog of a link: those that are offered before its first signal
to stop, and those that have passed the door by then. -/
def heard (es : List LinkEvent) : List Mutation :=
  (es.takeWhile (!·.stops)).filterMap LinkEvent.offered? ++
    (es.dropWhile (!·.stops)).filterMap LinkEvent.late?

theorem heard_cons_of_stops {e : LinkEvent} (h : e.stops = true) (es : List LinkEvent) :
    heard (e :: es) = (e :: es).filterMap LinkEvent.late? := by
  rw [heard, List.takeWhile_cons_of_neg (by simp [h]), List.dropWhile_cons_of_neg (by simp [h])]
  rfl

theorem heard_cons_of_not_stops {e : LinkEvent} (h : e.stops = false) (es : List LinkEvent) :
    heard (e :: es) = e.offered?.toList ++ heard es := by
  rw [heard, List.takeWhile_cons_of_pos (by simp [h]), List.dropWhile_cons_of_pos (by simp [h]),
    filterMap_cons_toList, List.append_assoc]
  rfl

namespace Forwarder

variable {w : Forwarder}

/-- Parcels come into the backlog at its end and leave it at its front. -/
theorem backlog_order (w : Forwarder) (e : Event) :
    ∃ gone, w.backlog.toList ++ admittedIn (w.step e).2 = gone ++ (w.step e).1.backlog.toList := by
  have hpass := passage_step w e
  generalize w.step e = r at hpass
  generalize e.offer? = m? at hpass
  cases hpass with
  | untouched hbacklog _ hin _ => exact ⟨[], by rw [hbacklog, hin, List.append_nil]; rfl⟩
  | offered m =>
      rw [admittedIn_offer]
      obtain ⟨-, hline⟩ := Backlog.offer_cases w.backlog (⟨w.admitted, m⟩ : Parcel)
      rcases hline with ⟨-, -, hlast⟩ | ⟨oldest, rest, hfull, -, -, hlast⟩
      · exact ⟨[], hlast.symm⟩
      · refine ⟨[oldest], ?_⟩
        rw [hfull]
        exact congrArg (oldest :: ·) hlast.symm
  | taken hphase hbacklog =>
      obtain ⟨hline, -, -⟩ := Backlog.of_take? hbacklog
      exact ⟨[_], by rw [hline]; exact List.append_nil _⟩

/-- A parcel that has just been admitted stands at the end of the backlog. -/
theorem last_of_admitted {e : Event} {p : Parcel} (h : admittedIn (w.step e).2 = [p]) :
    (w.step e).1.backlog.toList.getLast? = some p := by
  have hpass := passage_step w e
  generalize w.step e = r at hpass h
  generalize e.offer? = m? at hpass
  cases hpass with
  | untouched _ _ hin _ =>
      rw [hin] at h
      cases h
  | offered m =>
      rw [admittedIn_offer] at h
      cases h
      obtain ⟨-, hline⟩ := Backlog.offer_cases w.backlog (⟨w.admitted, m⟩ : Parcel)
      rcases hline with ⟨-, -, hlast⟩ | ⟨_, _, -, -, -, hlast⟩
      · exact (congrArg List.getLast? hlast).trans List.getLast?_concat
      · exact (congrArg List.getLast? hlast).trans List.getLast?_concat
  | taken _ _ => cases h

end Forwarder

namespace Link

open Forwarder (Gated Books)

variable {l : Link} {e : LinkEvent} {es : List LinkEvent} {ms ms' : List Mutation}

theorem name_step (l : Link) (e : LinkEvent) : (l.step e).1.name = l.name := by
  cases e with
  | offer m =>
      simp only [step, offer]
      split <;> rfl
  | stop =>
      simp only [step, stop]
      split <;> rfl
  | forwarder e => rfl

theorem run_one (l : Link) (e : LinkEvent) : l.run [e] = l.step e := by
  show ((l.step e).1, (l.step e).2 ++ []) = l.step e
  rw [List.append_nil]

theorem run_ite (l : Link) (c : Prop) [Decidable c] (e : LinkEvent) :
    l.run (if c then some e else none).toList = if c then l.step e else (l, []) := by
  split
  · exact l.run_one e
  · rfl

/-- In the course of something these mutations come to the backlog of a link, in this order. They
come in at its end, and whatever leaves it does so at its front. -/
structure Admits (l : Link) (ms : List Mutation) (r : Link × List Note) : Prop where
  count : r.1.forwarder.admitted = l.forwarder.admitted + ms.length
  notes : admittedIn r.2 = numbered l.forwarder.admitted ms
  order : ∃ gone, l.forwarder.backlog.toList ++ numbered l.forwarder.admitted ms =
    gone ++ r.1.forwarder.backlog.toList

theorem admits_none (l : Link) {notes : List Note} (h : admittedIn notes = []) :
    l.Admits [] (l, notes) :=
  ⟨rfl, h, [], List.append_nil _⟩

theorem admits_onForwarder (l : Link) (e : Event) :
    l.Admits e.offer?.toList (l.onForwarder e) := by
  obtain ⟨hcount, hnotes⟩ := l.forwarder.admitted_step e
  have horder := l.forwarder.backlog_order e
  rw [hnotes] at horder
  exact ⟨hcount, hnotes, horder⟩

theorem Admits.cons (h : l.Admits ms (l.step e))
    (h' : (l.step e).1.Admits ms' ((l.step e).1.run es)) :
    l.Admits (ms ++ ms') (l.run (e :: es)) := by
  refine ⟨?_, ?_, ?_⟩
  · show ((l.step e).1.run es).1.forwarder.admitted = _
    rw [h'.count, h.count, List.length_append, Nat.add_assoc]
  · show admittedIn ((l.step e).2 ++ ((l.step e).1.run es).2) = _
    rw [admittedIn_append, h.notes, h'.notes, h.count, numbered_append]
  · obtain ⟨gone, hnow⟩ := h.order
    obtain ⟨gone', hlater⟩ := h'.order
    refine ⟨gone ++ gone', ?_⟩
    rw [numbered_append, ← List.append_assoc, hnow, ← h.count, List.append_assoc, hlater,
      List.append_assoc]
    rfl

/-- What has just been admitted stands at the end of the backlog. -/
theorem last_of_admitted {p : Parcel} (h : admittedIn (l.step e).2 = [p]) :
    (l.step e).1.forwarder.backlog.toList.getLast? = some p := by
  cases e with
  | offer m =>
      simp only [step, offer] at h ⊢
      split at h
      · cases h
      · next hopen =>
          rw [if_neg hopen]
          exact Forwarder.last_of_admitted (w := l.forwarder) (e := .offer m) h
  | stop =>
      simp only [step, stop] at h
      split at h
      · cases h
      · cases h
  | forwarder e => exact Forwarder.last_of_admitted h

/-- The door is closed by a signal to stop and by nothing else, and it stays closed. -/
theorem signal_step (h : l.forwarder.signal ≠ .orphaned) (hheld : e ≠ .forwarder .orphan) :
    (l.step e).1.forwarder.signal = if e.stops then .given else l.forwarder.signal := by
  have hsignalled : l.forwarder.signalStop.signal = .given := by
    unfold Forwarder.signalStop
    split
    · rfl
    · cases hsignal : l.forwarder.signal with
      | given => rfl
      | awaited => contradiction
      | orphaned => exact absurd hsignal h
  cases e with
  | offer m =>
      simp only [step, offer]
      split <;> rfl
  | stop =>
      simp only [step, stop]
      split
      · next hgiven => exact hgiven
      · exact hsignalled
  | forwarder e =>
      cases e with
      | start =>
          simp only [step, onForwarder, Forwarder.step, Forwarder.begin]
          split <;> rfl
      | offer | elapse => rfl
      | stop => exact hsignalled
      | orphan => exact absurd rfl hheld
      | work a => exact l.forwarder.signal_work a

/-- While the door is open what is offered comes in. -/
theorem admits_open (h : l.forwarder.signal = .awaited) (e : LinkEvent) :
    l.Admits e.offered?.toList (l.step e) := by
  have hopen : l.forwarder.signal ≠ .given := by rw [h]; nofun
  cases e with
  | offer m =>
      simp only [step, offer, if_neg hopen]
      exact l.admits_onForwarder (.offer m)
  | stop =>
      simp only [step, stop, onForwarder, Forwarder.step, Forwarder.signalStop, h]
      exact ⟨rfl, rfl, [], List.append_nil _⟩
  | forwarder e => exact l.admits_onForwarder e

theorem admits_closed (h : l.forwarder.signal = .given) (e : LinkEvent) :
    l.Admits e.late?.toList (l.step e) := by
  cases e with
  | offer m =>
      simp only [step, offer, if_pos h]
      exact l.admits_none rfl
  | stop =>
      simp only [step, stop, if_pos h]
      exact l.admits_none rfl
  | forwarder e => exact l.admits_onForwarder e

/-- After the signal to stop another one changes nothing. -/
theorem step_of_given (h : l.forwarder.signal = .given) (hstops : e.stops = true) :
    l.step e = (l, []) := by
  cases e with
  | offer m => cases hstops
  | stop => exact if_pos h
  | forwarder e =>
      cases e with
      | stop => simp only [step, onForwarder, Forwarder.step, Forwarder.signalStop, h]
      | start | offer | orphan | elapse | work => cases hstops

theorem given_run (h : l.forwarder.signal = .given)
    (hheld : ∀ e ∈ es, e ≠ .forwarder .orphan) : (l.run es).1.forwarder.signal = .given := by
  induction es generalizing l with
  | nil => exact h
  | cons e es ih =>
      obtain ⟨hnow, hlater⟩ := List.forall_mem_cons.mp hheld
      have hstill : (l.step e).1.forwarder.signal = .given := by
        rw [signal_step (by rw [h]; nofun) hnow, h, ite_self]
      exact ih hstill hlater

theorem admits_run_closed (h : l.forwarder.signal = .given)
    (hheld : ∀ e ∈ es, e ≠ .forwarder .orphan) :
    l.Admits (es.filterMap LinkEvent.late?) (l.run es) := by
  induction es generalizing l with
  | nil => exact l.admits_none rfl
  | cons e es ih =>
      obtain ⟨hnow, hlater⟩ := List.forall_mem_cons.mp hheld
      have hstill : (l.step e).1.forwarder.signal = .given := by
        rw [signal_step (by rw [h]; nofun) hnow, h, ite_self]
      rw [filterMap_cons_toList]
      exact (admits_closed h e).cons (ih hstill hlater)

/-- What comes to the backlog of a link in a run. -/
theorem admits_run (h : l.forwarder.signal = .awaited)
    (hheld : ∀ e ∈ es, e ≠ .forwarder .orphan) : l.Admits (heard es) (l.run es) := by
  induction es generalizing l with
  | nil => exact l.admits_none rfl
  | cons e es ih =>
      obtain ⟨hnow, hlater⟩ := List.forall_mem_cons.mp hheld
      have hsignal : (l.step e).1.forwarder.signal = if e.stops then .given else .awaited := by
        rw [signal_step (by rw [h]; nofun) hnow, h]
      cases hstops : e.stops with
      | false =>
          rw [heard_cons_of_not_stops hstops]
          exact (admits_open h e).cons (ih (by simp [hsignal, hstops]) hlater)
      | true =>
          have hnothing : e.offered? = e.late? := by
            cases e with
            | offer m => cases hstops
            | stop | forwarder => rfl
          rw [heard_cons_of_stops hstops, filterMap_cons_toList, ← hnothing]
          exact (admits_open h e).cons (admits_run_closed (by simp [hsignal, hstops]) hlater)

/-- A mutation that came to the backlog with the last event of a run stands at its end. -/
theorem last_heard (h : l.forwarder.signal = .awaited)
    (hheld : ∀ e' ∈ es ++ [e], e' ≠ .forwarder .orphan)
    {m : Mutation} (hheard : heard (es ++ [e]) = heard es ++ [m]) :
    (l.run (es ++ [e])).1.forwarder.backlog.toList.getLast? =
      some ⟨l.forwarder.admitted + (heard es).length, m⟩ := by
  have hbefore := admits_run h fun e' hmem => hheld e' (List.mem_append_left _ hmem)
  have hall := (admits_run h hheld).notes
  rw [notes_append, admittedIn_append, hbefore.notes, hheard, numbered_append, run_one] at hall
  rw [run_append, run_one]
  exact last_of_admitted (List.append_cancel_left hall)

/-- Once the signal to stop was given, it can be given again as often as one likes. -/
theorem stopped_run (h : l.forwarder.signal ≠ .orphaned)
    (hheld : ∀ e ∈ es, e ≠ .forwarder .orphan) (hstopped : ∃ e ∈ es, e.stops = true)
    (hstops : e.stops = true) :
    (l.run es).1.step e = ((l.run es).1, []) := by
  refine step_of_given ?_ hstops
  -- Up to the first signal the door is open; from there on `given_run` keeps it closed.
  induction es generalizing l with
  | nil => obtain ⟨e, hmem, -⟩ := hstopped; cases hmem
  | cons e es ih =>
      obtain ⟨hnow, hlater⟩ := List.forall_mem_cons.mp hheld
      have hsignal := signal_step h hnow
      cases hfirst : e.stops with
      | true =>
          rw [hfirst, if_pos rfl] at hsignal
          exact given_run (l := (l.step e).1) hsignal hlater
      | false =>
          rw [hfirst, if_neg nofun] at hsignal
          refine ih (hsignal ▸ h) hlater ?_
          obtain ⟨e', hmem, hlast⟩ := hstopped
          rcases List.mem_cons.mp hmem with rfl | hmem
          · rw [hfirst] at hlast
            cases hlast
          · exact ⟨e', hmem, hlast⟩

end Link

/-! ## All links -/

/-- What an event of a relay is to the link that has this place and this name. -/
def RelayEvent.share? (place : Nat) (name : String) : RelayEvent → Option LinkEvent
  | .commit m => some (.offer m)
  | .offerTo other m => if other = name then some (.offer m) else none
  | .stopLink other => if other = name then some .stop else none
  | .stop => some .stop
  | .forwarder other e => if other = place then some (.forwarder e) else none

theorem RelayEvent.eq_of_share?_forwarder {place : Nat} {name : String} {e : RelayEvent}
    {e' : Event} (h : e.share? place name = some (.forwarder e')) : e = .forwarder place e' := by
  cases e with
  | commit | stop => cases h
  | offerTo | stopLink =>
      rw [share?] at h
      split at h <;> cases h
  | forwarder other e =>
      rw [share?] at h
      split at h
      · next hplace =>
          cases h
          rw [hplace]
      · cases h

/-- A link that keeps its signal keeps it in its share. -/
theorem kept_in_share {es : List RelayEvent} (hheld : ∀ place, .forwarder place .orphan ∉ es)
    (place : Nat) (name : String) :
    ∀ e ∈ es.filterMap (·.share? place name), e ≠ .forwarder .orphan := by
  rintro e hmem rfl
  obtain ⟨e, hevent, hshare⟩ := List.mem_filterMap.mp hmem
  exact hheld place (RelayEvent.eq_of_share?_forwarder hshare ▸ hevent)

namespace Relay

variable {f : Link → Link × List Note} {ls : List Link} {place : Nat} {l : Link}

theorem getElem?_onLinks (h : ls[place]? = some l) :
    (onLinks f ls).1[place]? = some (f l).1 ∧ (f l).2.Sublist (onLinks f ls).2 := by
  induction ls generalizing place with
  | nil => cases h
  | cons first ls ih =>
      rw [onLinks]
      cases place with
      | zero =>
          cases h
          exact ⟨rfl, List.sublist_append_left _ _⟩
      | succ place =>
          obtain ⟨hlink, hnotes⟩ := ih h
          exact ⟨hlink, hnotes.trans (List.sublist_append_right _ _)⟩

/-- Where no two links share a name, an operation by name is for the one link that has it. -/
theorem getElem?_onNamed (name : String) (hnodup : (ls.map Link.name).Nodup)
    (h : ls[place]? = some l) :
    let r := if name = l.name then f l else (l, [])
    (onNamed name f ls).1[place]? = some r.1 ∧ r.2.Sublist (onNamed name f ls).2 := by
  induction ls generalizing place with
  | nil => cases h
  | cons first ls ih =>
      obtain ⟨hnew, hrest⟩ := List.nodup_cons.mp hnodup
      rw [onNamed]
      cases place with
      | zero =>
          cases h
          by_cases hname : l.name = name
          · rw [if_pos hname, if_pos hname.symm]
            exact ⟨rfl, List.Sublist.refl _⟩
          · rw [if_neg hname, if_neg (Ne.symm hname)]
            exact ⟨rfl, List.nil_sublist _⟩
      | succ place =>
          have hmem : l.name ∈ ls.map Link.name :=
            List.mem_map.mpr ⟨l, List.mem_of_getElem? h, rfl⟩
          by_cases hname : first.name = name
          · -- An earlier link has the name, so this one has another.
            have hother : name ≠ l.name := fun hsame => hnew (hname.trans hsame ▸ hmem)
            rw [if_pos hname, if_neg hother]
            exact ⟨h, List.nil_sublist _⟩
          · rw [if_neg hname]
            exact ih hrest h

theorem getElem?_onPlace (other : Nat) (h : ls[place]? = some l) :
    let r := if other = place then f l else (l, [])
    (onPlace f other ls).1[place]? = some r.1 ∧ r.2.Sublist (onPlace f other ls).2 := by
  induction ls generalizing other place with
  | nil => cases h
  | cons first ls ih =>
      cases other with
      | zero =>
          cases place with
          | zero => cases h; exact ⟨rfl, List.Sublist.refl _⟩
          | succ place => exact ⟨h, List.nil_sublist _⟩
      | succ other =>
          cases place with
          | zero => exact ⟨h, List.nil_sublist _⟩
          | succ place =>
              have hih := ih other h
              simp only [Nat.succ_inj]
              exact hih

theorem names_onLinks (hf : ∀ l, (f l).1.name = l.name) :
    (onLinks f ls).1.map Link.name = ls.map Link.name := by
  rw [fst_onLinks, List.map_map]
  exact List.map_congr_left fun l _ => hf l

theorem names_onNamed (hf : ∀ l, (f l).1.name = l.name) (name : String) :
    (onNamed name f ls).1.map Link.name = ls.map Link.name := by
  induction ls with
  | nil => rfl
  | cons l ls ih =>
      rw [onNamed]
      split
      · rw [List.map_cons, List.map_cons, hf]
      · rw [List.map_cons, List.map_cons, ih]

theorem names_onPlace (hf : ∀ l, (f l).1.name = l.name) (place : Nat) :
    (onPlace f place ls).1.map Link.name = ls.map Link.name := by
  induction ls generalizing place with
  | nil => rw [onPlace]
  | cons l ls ih =>
      cases place with
      | zero => rw [onPlace, List.map_cons, List.map_cons, hf]
      | succ place => rw [onPlace, List.map_cons, List.map_cons, ih]

theorem names_step (r : Relay) (e : RelayEvent) :
    (r.step e).1.links.map Link.name = r.links.map Link.name := by
  cases e with
  | commit m => exact names_onLinks fun l => l.name_step (.offer m)
  | offerTo name m => exact names_onNamed (fun l => l.name_step (.offer m)) name
  | stopLink name => exact names_onNamed (fun l => l.name_step .stop) name
  | stop => exact names_onLinks fun l => l.name_step .stop
  | forwarder place e => exact names_onPlace (fun l => l.name_step (.forwarder e)) place

/-- In a step of the relay a link takes its share. -/
theorem share_step {r : Relay} (hnodup : (r.links.map Link.name).Nodup)
    (h : r.links[place]? = some l) (e : RelayEvent) :
    let mine := l.run (e.share? place l.name).toList
    (r.step e).1.links[place]? = some mine.1 ∧ mine.2.Sublist (r.step e).2 := by
  cases e with
  | commit m =>
      rw [RelayEvent.share?, Option.toList_some, Link.run_one]
      exact getElem?_onLinks h
  | offerTo name m =>
      rw [RelayEvent.share?, Link.run_ite]
      exact getElem?_onNamed name hnodup h
  | stopLink name =>
      rw [RelayEvent.share?, Link.run_ite]
      exact getElem?_onNamed name hnodup h
  | stop =>
      rw [RelayEvent.share?, Option.toList_some, Link.run_one]
      exact getElem?_onLinks h
  | forwarder other e =>
      rw [RelayEvent.share?, Link.run_ite]
      exact getElem?_onPlace other h

/-- So it does in a run. -/
theorem share_run {r : Relay} (hnodup : (r.links.map Link.name).Nodup)
    (h : r.links[place]? = some l) (es : List RelayEvent) :
    let mine := l.run (es.filterMap (·.share? place l.name))
    (r.run es).1.links[place]? = some mine.1 ∧ mine.2.Sublist (r.run es).2 := by
  induction es generalizing r l with
  | nil => exact ⟨h, List.Sublist.refl _⟩
  | cons e es ih =>
      obtain ⟨hlink, hnotes⟩ := share_step hnodup h e
      have hname : (l.run (e.share? place l.name).toList).1.name = l.name := by
        cases e.share? place l.name with
        | none => rfl
        | some e' => exact l.name_step e'
      obtain ⟨hlink', hnotes'⟩ := ih ((names_step r e).symm ▸ hnodup) hlink
      rw [hname] at hlink' hnotes'
      rw [filterMap_cons_toList]
      refine ⟨?_, ?_⟩
      · rw [Link.run_append]
        exact hlink'
      · rw [Link.notes_append]
        exact hnotes.append hnotes'

theorem onLinks_idle (h : ∀ l ∈ ls, f l = (l, [])) : onLinks f ls = (ls, []) := by
  induction ls with
  | nil => rfl
  | cons l ls ih =>
      obtain ⟨hl, hls⟩ := List.forall_mem_cons.mp h
      rw [onLinks, hl, ih hls]
      rfl

theorem onNamed_idle {name : String} (h : ∀ l ∈ ls, l.name = name → f l = (l, [])) :
    onNamed name f ls = (ls, []) := by
  induction ls with
  | nil => rfl
  | cons l ls ih =>
      obtain ⟨hl, hls⟩ := List.forall_mem_cons.mp h
      rw [onNamed]
      split
      · next hname => rw [hl hname]
      · rw [ih hls]

theorem names_run (r : Relay) (es : List RelayEvent) :
    (r.run es).1.links.map Link.name = r.links.map Link.name := by
  induction es generalizing r with
  | nil => rfl
  | cons e es ih => exact (ih (r.step e).1).trans (names_step r e)

/-- Links that were told to stop, in one way or the other, make nothing of being told again. -/
theorem stopped_in_run {r : Relay} (hnodup : (r.links.map Link.name).Nodup)
    (hsignals : ∀ l ∈ r.links, l.forwarder.signal ≠ .orphaned) {es : List RelayEvent}
    (hheld : ∀ place, .forwarder place .orphan ∉ es) (hl : l ∈ (r.run es).1.links)
    (hstopped : .stop ∈ es ∨ .stopLink l.name ∈ es) : l.stop = (l, []) := by
  obtain ⟨place, hplace⟩ := List.mem_iff_getElem?.mp hl
  obtain ⟨before, hbefore, hname⟩ : ∃ before, r.links[place]? = some before ∧
      before.name = l.name := by
    have hnames : (r.links.map Link.name)[place]? = some l.name := by
      rw [← names_run r es, List.getElem?_map, hplace]
      rfl
    rwa [List.getElem?_map, Option.map_eq_some_iff] at hnames
  obtain ⟨hlast, -⟩ := share_run hnodup hbefore es
  cases hplace.symm.trans hlast
  refine Link.stopped_run (e := .stop) (hsignals before (List.mem_of_getElem? hbefore))
    (kept_in_share hheld place before.name) ⟨.stop, ?_, rfl⟩ rfl
  rcases hstopped with hall | hone
  · exact List.mem_filterMap.mpr ⟨.stop, hall, rfl⟩
  · exact List.mem_filterMap.mpr ⟨_, hone, if_pos hname.symm⟩

end Relay

namespace Link

open Forwarder (Books)

/-- What a link has published after a run of what it admitted. -/
theorem offered_run {s : LinkSettings} {port : UInt16} {capacity : Nat} {es : List LinkEvent}
    {ms : List Mutation} (h : (begun s port capacity).Admits ms ((begun s port capacity).run es)) :
    ((begun s port capacity).run es).1.status.offered = UInt64.ofNat ms.length := by
  obtain ⟨es', hrun⟩ := (begun s port capacity).run_forwarder es
  obtain ⟨t, hbooks⟩ := (Forwarder.books_start (made s port capacity).forwarder.failover
    capacity).run (.start :: es')
  have hlast : Books ((begun s port capacity).run es).1.forwarder t := hrun ▸ hbooks
  have hcount : ((begun s port capacity).run es).1.forwarder.admitted = 0 + ms.length := h.count
  show ((begun s port capacity).run es).1.forwarder.backlog.offered = _
  rw [hlast.offered, hcount, Nat.zero_add]

end Link

/-- A relay and what its links are offered, whatever happens to them, as long as no link gives its
signal away. Each link is where its own share of the events has brought it. What came to its backlog
is what it heard, in this order and unchanged, and it has counted just that. Each mutation comes in
at the end of the backlog, and what it heard has left at the front or is still there. Once it was
told to stop nothing changes when it is told again, and so it is for the relay as a whole. -/
theorem fan_out {n : NodeSettings} {r : Relay} {lines : List LogLine}
    (hr : Relay.start n = .done (r, lines)) {es : List RelayEvent}
    (hheld : ∀ place, .forwarder place .orphan ∉ es) :
    (∀ (place : Nat) s, n.links[place]? = some s → ∃ l, r.links[place]? = some l ∧
      let mine := es.filterMap (·.share? place s.name)
      let last := (l.run mine).1
      (r.run es).1.links[place]? = some last ∧ (l.run mine).2.Sublist (r.run es).2 ∧
      admittedIn (l.run mine).2 = numbered 0 (heard mine) ∧
      last.status.offered = UInt64.ofNat (heard mine).length ∧
      (∃ gone, numbered 0 (heard mine) = gone ++ last.forwarder.backlog.toList) ∧
      (∀ before e m, mine = before ++ [e] → heard mine = heard before ++ [m] →
        last.forwarder.backlog.toList.getLast? = some ⟨(heard before).length, m⟩) ∧
      ((∃ e ∈ mine, e.stops = true) →
        ∀ e : LinkEvent, e.stops = true → last.step e = (last, []))) ∧
    let last := (r.run es).1
    (.stop ∈ es → last.step .stop = (last, [])) ∧
    ∀ name, .stop ∈ es ∨ .stopLink name ∈ es → last.step (.stopLink name) = (last, []) := by
  obtain ⟨hlinks, hnodup⟩ := Relay.links_of_start hr
  refine ⟨fun place s hs => ?_, ?_⟩
  · have hl : r.links[place]? = some (Link.begun s n.port n.capacity.toNat) := by
      rw [hlinks, List.getElem?_map, hs]
      rfl
    obtain ⟨hlast, hnotes⟩ := Relay.share_run hnodup hl es
    have hadmits := Link.admits_run (l := Link.begun s n.port n.capacity.toNat) rfl
      (kept_in_share hheld place s.name)
    refine ⟨_, hl, hlast, hnotes, hadmits.notes, Link.offered_run hadmits, hadmits.order, ?_,
      fun hstopped e => Link.stopped_run nofun (kept_in_share hheld place s.name) hstopped⟩
    intro before e m hmine hheard
    have hkept := kept_in_share hheld place s.name
    rw [hmine] at hkept hheard ⊢
    have hstands := Link.last_heard (l := Link.begun s n.port n.capacity.toNat) rfl hkept hheard
    rwa [show (Link.begun s n.port n.capacity.toNat).forwarder.admitted = 0 from rfl,
      Nat.zero_add] at hstands
  · have hsignals : ∀ l ∈ r.links, l.forwarder.signal ≠ .orphaned := by
      rw [hlinks]
      exact List.forall_mem_map.mpr fun s _ => nofun
    have hidle := fun l hl => Relay.stopped_in_run (l := l) hnodup hsignals hheld hl
    intro last
    refine ⟨fun hall => ?_, fun name hstopped => ?_⟩
    · have hsame : Relay.onLinks Link.stop last.links = (last.links, []) :=
        Relay.onLinks_idle fun l hl => hidle l hl (.inl hall)
      rw [Relay.step, Relay.stop, hsame]
      rfl
    · have hsame : Relay.onNamed name Link.stop last.links = (last.links, []) :=
        Relay.onNamed_idle fun l hl hname => hidle l hl (hname ▸ hstopped)
      rw [Relay.step, hsame]
      rfl

/-- One of two links is stopped after the first of four commits, and both backlogs hold one mutation
only. Being told to stop a second time changes nothing. -/
theorem fan_out_one_stopped :
    let m (key : String) : Mutation := ⟨"orders", key.toUTF8, "v".toUTF8⟩
    let n : NodeSettings := ⟨"node-a", 5701, 1,
      [⟨"tokyo", ⟨"tokyo", "pass"⟩, ["t1"], 10, 1000, .fixed⟩,
        ⟨"london", ⟨"london", "pass"⟩, ["l1"], 10, 1000, .fixed⟩]⟩
    let es : List RelayEvent := [.commit (m "a"), .stopLink "tokyo", .forwarder 0 (.work {}),
      .commit (m "b"), .commit (m "c"), .stop, .commit (m "d")]
    ∃ r lines, Relay.start n = .done (r, lines) ∧ (∀ place, .forwarder place .orphan ∉ es) ∧
      (∃ l last notes, r.links[0]? = some l ∧ (r.run es).1.links[0]? = some last ∧
        notes.Sublist (r.run es).2 ∧ admittedIn notes = [⟨0, m "a"⟩] ∧ last.status.offered = 1) ∧
      (∃ l last notes, r.links[1]? = some l ∧ (r.run es).1.links[1]? = some last ∧
        notes.Sublist (r.run es).2 ∧
        admittedIn notes = [⟨0, m "a"⟩, ⟨1, m "b"⟩, ⟨2, m "c"⟩] ∧ last.status.offered = 3 ∧
        ∃ gone, [⟨0, m "a"⟩, ⟨1, m "b"⟩, ⟨2, m "c"⟩] = gone ++ last.forwarder.backlog.toList) ∧
      (r.run es).1.step (.stopLink "tokyo") = ((r.run es).1, []) := by
  intro m n es
  obtain ⟨lines, hr⟩ := Relay.start_of_check (n := n) (by decide) (by decide)
  have hheld : ∀ place, .forwarder place .orphan ∉ es := by simp [es]
  obtain ⟨hlinks, -, hstopped⟩ := fan_out hr hheld
  obtain ⟨tokyo, htokyo, htlast, htnotes, htadmitted, htcount, -⟩ := hlinks 0 _ rfl
  obtain ⟨london, hlondon, hllast, hlnotes, hladmitted, hlcount, hlorder, -⟩ := hlinks 1 _ rfl
  exact ⟨_, lines, hr, hheld, ⟨tokyo, _, _, htokyo, htlast, htnotes, htadmitted, htcount⟩,
    ⟨london, _, _, hlondon, hllast, hlnotes, hladmitted, hlcount, hlorder⟩,
    hstopped "tokyo" (.inr (by simp [es]))⟩

end ClusterRelay
