import ClusterRelay.Proofs.Endings
import ClusterRelay.Proofs.FanOut

/-!
# What the links of a relay have heard

Where a relay is steered by something else, it matters what its links have heard in the end and not
in which steps. `Relay.Hears` forgets the steps: each link has come from where it was by events of
its own, in which it heard certain mutations, and it was told to stop or was not. A commit adds a
mutation to what every link has heard. Time, work and a second signal to stop add nothing.
-/

namespace ClusterRelay

theorem heard_append (mine more : List LinkEvent) : heard (mine ++ more) = heard mine ++
    if mine.any LinkEvent.stops then more.filterMap LinkEvent.late? else heard more := by
  induction mine with
  | nil => rfl
  | cons e mine ih =>
      rw [List.cons_append]
      cases hstops : e.stops with
      | true =>
          rw [heard_cons_of_stops hstops, heard_cons_of_stops hstops, List.any_cons, hstops,
            ← List.cons_append, List.filterMap_append]
          rfl
      | false =>
          rw [heard_cons_of_not_stops hstops, heard_cons_of_not_stops hstops, List.any_cons, hstops,
            ih, List.append_assoc]
          rfl

theorem heard_snoc_of_quiet {mine : List LinkEvent} {e : LinkEvent} (hquiet : e.offered? = none) :
    heard (mine ++ [e]) = heard mine := by
  have hlate : e.late? = none := by
    cases e with
    | offer m => cases hquiet
    | stop | forwarder => exact hquiet
  have hnothing : heard [e] = [] := by
    cases hstops : e.stops with
    | true => rw [heard_cons_of_stops hstops, List.filterMap_cons_none hlate, List.filterMap_nil]
    | false =>
        rw [heard_cons_of_not_stops hstops, hquiet]
        rfl
  rw [heard_append, hnothing, List.filterMap_cons_none hlate, List.filterMap_nil, ite_self,
    List.append_nil]

theorem heard_snoc_offer {mine : List LinkEvent} (hopen : mine.any LinkEvent.stops = false)
    (m : Mutation) : heard (mine ++ [.offer m]) = heard mine ++ [m] := by
  rw [heard_append, hopen]
  rfl

/-- A link that was told to stop has the signal. -/
theorem Link.given_of_stopped {l : Link} (hawaited : l.forwarder.signal = .awaited)
    {mine : List LinkEvent} (hmine : ∀ e ∈ mine, e ≠ .forwarder .orphan)
    (hstopped : ∃ e ∈ mine, e.stops = true) : (l.run mine).1.forwarder.signal = .given := by
  have hagain : (l.run mine).1.step .stop = ((l.run mine).1, []) :=
    Link.stopped_run (by rw [hawaited]; nofun) hmine hstopped rfl
  simp only [Link.step, Link.stop] at hagain
  split at hagain
  · next hgiven => exact hgiven
  · have hnotes := congrArg Prod.snd hagain
    exact absurd hnotes (List.append_ne_nil_of_right_ne_nil _ (List.cons_ne_nil _ _))

namespace Relay

/-- The links of a relay have come from where they were before by events of their own, each of them
has heard these mutations, and each has either been told to stop or not. -/
structure Hears (before : Relay) (ms : List Mutation) (stopped : Bool) (r : Relay)
    (notes : List Note) : Prop where
  names : r.links.map Link.name = before.links.map Link.name
  links : ∀ (place : Nat) l, before.links[place]? = some l → ∃ mine : List LinkEvent,
    (∀ e ∈ mine, e ≠ .forwarder .orphan) ∧ heard mine = ms ∧ mine.any LinkEvent.stops = stopped ∧
      r.links[place]? = some (l.run mine).1 ∧ (l.run mine).2.Sublist notes

variable {before r r' : Relay} {ms ms' : List Mutation} {stopped stopped' : Bool}
  {notes more : List Note}

theorem hears_start (r : Relay) : r.Hears [] false r [] :=
  ⟨rfl, fun _ _ hl => ⟨[], List.forall_mem_nil _, rfl, rfl, hl, List.Sublist.refl _⟩⟩

theorem Hears.mono (h : before.Hears ms stopped r notes) (more : List Note) :
    before.Hears ms stopped r (notes ++ more) := by
  refine ⟨h.names, fun place l hl => ?_⟩
  obtain ⟨mine, hmine, hms, hstopped, hlink, hnotes⟩ := h.links place l hl
  exact ⟨mine, hmine, hms, hstopped, hlink, hnotes.trans (List.sublist_append_left notes more)⟩

/-- Each link takes one event or none, and that is all that matters. -/
theorem Hears.step (h : before.Hears ms stopped r notes) (now : Nat → Option LinkEvent)
    (hnames : r'.links.map Link.name = r.links.map Link.name)
    (hlinks : ∀ (place : Nat) l, r.links[place]? = some l →
      r'.links[place]? = some (l.run (now place).toList).1 ∧
        (l.run (now place).toList).2.Sublist more)
    (hkept : ∀ place, now place ≠ some (.forwarder .orphan))
    (hheard : ∀ (place : Nat) mine, heard mine = ms → mine.any LinkEvent.stops = stopped →
      heard (mine ++ (now place).toList) = ms' ∧
        (mine ++ (now place).toList).any LinkEvent.stops = stopped') :
    before.Hears ms' stopped' r' (notes ++ more) := by
  refine ⟨hnames.trans h.names, fun place l hl => ?_⟩
  obtain ⟨mine, hmine, hms, hstopped, hlink, hnotes⟩ := h.links place l hl
  obtain ⟨hlink', hmore⟩ := hlinks place _ hlink
  obtain ⟨hms', hstopped'⟩ := hheard place mine hms hstopped
  refine ⟨mine ++ (now place).toList, ?_, hms', hstopped', ?_, ?_⟩
  · intro e he
    rcases List.mem_append.mp he with hold | hnew
    · exact hmine e hold
    · rintro rfl
      exact hkept place (Option.mem_toList.mp hnew)
  · rw [Link.run_append]
    exact hlink'
  · rw [Link.notes_append]
    exact hnotes.append hmore

/-- All links take the same event. -/
theorem Hears.all (h : before.Hears ms stopped r notes) {e : LinkEvent}
    (hkept : e ≠ .forwarder .orphan)
    (hheard : ∀ mine, heard mine = ms → mine.any LinkEvent.stops = stopped →
      heard (mine ++ [e]) = ms' ∧ (mine ++ [e]).any LinkEvent.stops = stopped') :
    before.Hears ms' stopped' (r.withLinks (onLinks (·.step e) r.links)).1
      (notes ++ (onLinks (·.step e) r.links).2) := by
  refine h.step (fun _ => some e) (names_onLinks fun l => l.name_step e) ?_ ?_ ?_
  · intro place l hl
    rw [Option.toList_some, Link.run_one]
    exact getElem?_onLinks hl
  · exact fun _ hsame => hkept (Option.some.inj hsame)
  · exact fun _ mine => hheard mine

theorem Hears.commit (h : before.Hears ms false r notes) (m : Mutation) :
    before.Hears (ms ++ [m]) false (r.commit m).1 (notes ++ (r.commit m).2) := by
  refine h.all (e := .offer m) nofun fun mine hms hopen => ⟨?_, ?_⟩
  · rw [heard_snoc_offer hopen, hms]
  · rw [List.any_append, hopen]
    rfl

theorem Hears.stop (h : before.Hears ms stopped r notes) :
    before.Hears ms true r.stop.1 (notes ++ r.stop.2) := by
  refine h.all (e := .stop) nofun fun mine hms _ => ⟨?_, ?_⟩
  · rw [heard_snoc_of_quiet rfl, hms]
  · rw [List.any_append, Bool.or_eq_true]
    exact .inr rfl

theorem Hears.elapse (h : before.Hears ms stopped r notes) (moment : Nat) :
    before.Hears ms stopped (r.withLinks (onLinks (·.onForwarder (.elapse moment)) r.links)).1
      (notes ++ (onLinks (·.onForwarder (.elapse moment)) r.links).2) := by
  refine h.all (e := .forwarder (.elapse moment)) nofun fun mine hms hstopped => ⟨?_, ?_⟩
  · rw [heard_snoc_of_quiet rfl, hms]
  · rw [List.any_append, hstopped]
    exact Bool.or_false _

theorem Hears.work (h : before.Hears ms stopped r notes) (place : Nat) (a : Answers) :
    before.Hears ms stopped (r.step (.forwarder place (.work a))).1
      (notes ++ (r.step (.forwarder place (.work a))).2) := by
  refine h.step (fun other => if place = other then some (.forwarder (.work a)) else none)
    (names_step r _) ?_ ?_ ?_
  · intro other l hl
    rw [Link.run_ite]
    exact getElem?_onPlace place hl
  · intro other
    split <;> nofun
  · intro other mine hms hstopped
    split
    · rw [Option.toList_some, heard_snoc_of_quiet rfl, List.any_append, hms, hstopped]
      exact ⟨rfl, Bool.or_false _⟩
    · rw [Option.toList_none, List.append_nil]
      exact ⟨hms, hstopped⟩

/-- All links of a relay were started, and none was told to stop. -/
def Fresh (r : Relay) : Prop :=
  ∀ l ∈ r.links, l.forwarder.phase ≠ .idle ∧ l.forwarder.signal = .awaited

theorem Hears.bound (h : before.Hears ms true r notes) (hbefore : before.Fresh) :
    ∀ place < before.links.length, ∃ l, r.links[place]? = some l ∧ l.forwarder.Bound := by
  intro place hplace
  obtain ⟨mine, hmine, -, hstopped, hlink, -⟩ := h.links place _ (List.getElem?_eq_getElem hplace)
  obtain ⟨hstarted, hawaited⟩ := hbefore _ (List.getElem_mem hplace)
  refine ⟨_, hlink, ?_, ?_⟩
  · obtain ⟨es, hrun⟩ := Link.run_forwarder before.links[place] mine
    rw [hrun]
    exact Forwarder.started_run hstarted es
  · exact Link.given_of_stopped hawaited hmine (List.any_eq_true.mp hstopped)

theorem forwarder_joinLink (l : Link) :
    (joinLink l).1.forwarder = l.forwarder ∧ (joinLink l).1.name = l.name := by
  have hjoin : l.join.2.forwarder = l.forwarder ∧ l.join.2.name = l.name := by
    unfold Link.join
    split <;> exact ⟨rfl, rfl⟩
  unfold joinLink
  split
  · next heq => rwa [heq] at hjoin
  · next heq => rwa [heq] at hjoin

end Relay

end ClusterRelay
