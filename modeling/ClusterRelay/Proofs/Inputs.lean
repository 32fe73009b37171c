import ClusterRelay.CommandLine.Forwarding
import ClusterRelay.Proofs.Hearing
import ClusterRelay.Proofs.InputLines

/-!
# What becomes of the input

The forwarding command takes in lines while its links are at work, and no link waits for another. So
that the order of events does not matter, two invariants follow a run of the command. Up to the end
of input `Reads` says what the lines so far have come to: every link has heard the mutations that
they spell, in their order, and for each malformed line there is a warning. After it `Finishes` says
that nothing is added to this, whatever the command waits for, until it ends with code 0 and prints
the status of links that have heard just these mutations.

The command comes to that end if it is given the chance: time, one more look, and eight steps of
work for each link, in whatever else may happen. The one thing that can come between is a line that
is not UTF-8. Then the command gives up at once, and what is behind the line is never read.
-/

namespace ClusterRelay

namespace CommandLine

/-! ## What is said -/

def Remark.note? : Remark → Option Note
  | .own _ => none
  | .noted note => some note

/-- The lines of the command itself. -/
def ownIn (remarks : List Remark) : List LogLine := remarks.filterMap Remark.own?

/-- What is noted about links. -/
def notesIn (remarks : List Remark) : List Note := remarks.filterMap Remark.note?

@[simp] theorem ownIn_append (remarks more : List Remark) :
    ownIn (remarks ++ more) = ownIn remarks ++ ownIn more := List.filterMap_append

@[simp] theorem notesIn_append (remarks more : List Remark) :
    notesIn (remarks ++ more) = notesIn remarks ++ notesIn more := List.filterMap_append

@[simp] theorem ownIn_noted (notes : List Note) : ownIn (notes.map .noted) = [] := by
  induction notes with
  | nil => rfl
  | cons _ _ ih => exact ih

@[simp] theorem notesIn_noted (notes : List Note) : notesIn (notes.map .noted) = notes := by
  induction notes with
  | nil => rfl
  | cons note _ ih => exact congrArg (note :: ·) ih

/-- The warning about a malformed line, which leaves out the reason. -/
def skipped : LogLine := .warn ("Skipping malformed mutation line: " ++ LogLine.unstated)

/-- The line about the end of input, with the number of mutations that were admitted. -/
def finished (count : UInt64) : LogLine :=
  .info ("Input finished admitted=" ++ Text.decimal count.toNat ++ " interrupted=" ++ "false")

def timeOver : LogLine := .warn "Drain timeout elapsed with updates still pending"

/-- What the command has said when the input is over. -/
def said (ms : List Mutation) (bad : Nat) : List LogLine :=
  List.replicate bad skipped ++ [finished (UInt64.ofNat ms.length)]

/-! ## Up to the end of input -/

/-- Something that comes from outside and not from the links, the clock or the command. -/
def ForwardingEvent.isInput : ForwardingEvent → Bool
  | .line _ | .endOfInput | .interrupt => true
  | _ => false

/-- The link at this place works. -/
def ForwardingEvent.worksAt (place : Nat) : ForwardingEvent → Bool
  | .work other _ => other == place
  | _ => false

namespace Forwarding

variable {first f : Forwarding} {remarks : List Remark} {ms : List Mutation} {bad : Nat}
  {e : ForwardingEvent}

theorem run_append (f : Forwarding) (es more : List ForwardingEvent) :
    f.run (es ++ more) =
      (((f.run es).1.run more).1, (f.run es).2 ++ ((f.run es).1.run more).2) := by
  induction es generalizing f with
  | nil => rfl
  | cons e es ih => simp only [List.cons_append, run, ih, List.append_assoc]

theorem run_of_ended {exit : Exit} (hstage : f.stage = .ended exit) (es : List ForwardingEvent) :
    f.run es = (f, []) := by
  induction es with
  | nil => rfl
  | cons e es ih =>
      have hstep : f.step e = (f, []) := by simp only [step, hstage]
      simp only [run, hstep, ih, List.append_nil]

theorem ownIn_withRelay (f : Forwarding) (result : Relay × List Note) :
    ownIn (remarks ++ (f.withRelay result).2) = ownIn remarks := by
  rw [ownIn_append, withRelay, ownIn_noted, List.append_nil]

/-- What an operation notes about the links, the command notes too. -/
theorem hears_withRelay {before : Relay} {stopped : Bool} {result : Relay × List Note}
    (h : before.Hears ms stopped result.1 (notesIn remarks ++ result.2)) :
    before.Hears ms stopped (f.withRelay result).1.relay
      (notesIn (remarks ++ (f.withRelay result).2)) := by
  rw [notesIn_append, withRelay, notesIn_noted]
  exact h

/-- A command that reads its input, and what has become of the input so far. -/
structure Reads (first : Forwarding) (ms : List Mutation) (bad : Nat) (f : Forwarding)
    (remarks : List Remark) : Prop where
  stage : f.stage = .reading
  drain : f.drainSeconds = first.drainSeconds
  admitted : f.admitted = UInt64.ofNat ms.length
  own : ownIn remarks = List.replicate bad skipped
  links : first.relay.Hears ms false f.relay (notesIn remarks)

theorem Reads.aside (h : Reads first ms bad f remarks) (he : e.isInput = false) :
    Reads first ms bad (f.step e).1 (remarks ++ (f.step e).2) := by
  cases e with
  | line | endOfInput | interrupt => cases he
  | look | conclude =>
      simp only [step, h.stage, List.append_nil]
      exact h
  | elapse moment =>
      have hstep : f.step (.elapse moment) = f.elapse moment := by simp only [step, h.stage]
      rw [hstep]
      exact ⟨h.stage, h.drain, h.admitted, (ownIn_withRelay _ _).trans h.own,
        hears_withRelay (h.links.elapse moment)⟩
  | work place a =>
      have hstep : f.step (.work place a) =
          f.withRelay (f.relay.step (.forwarder place (.work a))) := by simp only [step, h.stage]
      rw [hstep]
      exact ⟨h.stage, h.drain, h.admitted, (ownIn_withRelay _ _).trans h.own,
        hears_withRelay (h.links.work place a)⟩

theorem Reads.step_line (h : Reads first ms bad f remarks) (line : ByteArray) :
    f.step (.line line) = f.take line := by
  simp only [step, h.stage]

theorem Reads.mutation (h : Reads first ms bad f remarks) {line : ByteArray} {m : Mutation}
    (hspells : Spells line m) :
    Reads first (ms ++ [m]) bad (f.step (.line line)).1 (remarks ++ (f.step (.line line)).2) := by
  rw [h.step_line, take, InputLine.ofBytes_eq_mutation_iff.mpr hspells]
  refine ⟨h.stage, h.drain, ?_, (ownIn_withRelay _ _).trans h.own,
    hears_withRelay (h.links.commit m)⟩
  show f.admitted + 1 = _
  rw [h.admitted, List.length_append, List.length_singleton, UInt64.ofNat_add]
  rfl

theorem Reads.blank (h : Reads first ms bad f remarks) {s : String}
    (hblank : Text.allBlank s = true) :
    Reads first ms bad (f.step (.line s.toUTF8)).1 (remarks ++ (f.step (.line s.toUTF8)).2) := by
  rw [h.step_line, take, InputLine.ofBytes_eq_blank_iff.mpr ⟨s, rfl, hblank⟩]
  simp only [List.append_nil]
  exact h

theorem Reads.malformed (h : Reads first ms bad f remarks) {s : String}
    (hblank : Text.allBlank s = false) (hnone : ∀ m, ¬ Spells s.toUTF8 m) :
    Reads first ms (bad + 1) (f.step (.line s.toUTF8)).1
      (remarks ++ (f.step (.line s.toUTF8)).2) := by
  rw [h.step_line, take, InputLine.ofBytes_eq_malformed_iff.mpr ⟨s, rfl, hblank, hnone⟩]
  refine ⟨h.stage, h.drain, h.admitted, ?_, ?_⟩
  · rw [ownIn_append, h.own, List.replicate_succ']
    rfl
  · rw [notesIn_append]
    exact h.links.mono []

/-- Lines that are texts never end the reading, and between them anything may happen. -/
theorem Reads.run (h : Reads first ms bad f remarks) {es : List ForwardingEvent}
    {lines : List ByteArray} {ms' : List Mutation} {bad' : Nat} (hcomes : Comes lines ms' bad')
    (hes : es.filter ForwardingEvent.isInput = lines.map .line) :
    Reads first (ms ++ ms') (bad + bad') (f.run es).1 (remarks ++ (f.run es).2) := by
  induction es generalizing f remarks lines ms bad ms' bad' with
  | nil =>
      cases lines with
      | cons => cases hes
      | nil =>
          cases hcomes
          rw [List.append_nil]
          exact (List.append_nil remarks).symm ▸ h
  | cons e es ih =>
      have hassoc : remarks ++ (f.run (e :: es)).2 =
          remarks ++ (f.step e).2 ++ ((f.step e).1.run es).2 := by
        rw [List.append_assoc]
        rfl
      rw [hassoc]
      cases hinput : e.isInput with
      | false =>
          rw [List.filter_cons_of_neg (by simp [hinput])] at hes
          exact ih (h.aside hinput) hcomes hes
      | true =>
          rw [List.filter_cons_of_pos hinput] at hes
          cases lines with
          | nil => cases hes
          | cons line lines =>
              obtain ⟨rfl, hrest⟩ := List.cons.inj hes
              cases hcomes with
              | mutation hspells hcomes =>
                  have hrun := ih (h.mutation hspells) hcomes hrest
                  rwa [List.append_assoc] at hrun
              | blank hblank hcomes => exact ih (h.blank hblank) hcomes hrest
              | malformed hblank hnone hcomes =>
                  have hrun := ih (h.malformed hblank hnone) hcomes hrest
                  rwa [Nat.add_right_comm] at hrun

/-- A garbled line ends the command, and nothing happens to it any more. -/
theorem Reads.run_garbled (h : Reads first ms bad f remarks) {line : ByteArray}
    (hgarbled : Garbled line) (late : List ForwardingEvent) :
    f.run (.line line :: late) = ({ f with stage := .ended (.failure .other) }, []) := by
  have hstep : f.step (.line line) = ({ f with stage := .ended (.failure .other) }, []) := by
    rw [h.step_line, take, InputLine.ofBytes_eq_garbled_iff.mpr hgarbled]
  rw [Forwarding.run, hstep]
  exact run_of_ended rfl late

/-! ## After the end of input -/

/-- A command that has taken in all of its input. Its links hear nothing more. -/
inductive Finishes (first : Forwarding) (ms : List Mutation) (bad deadline : Nat)
    (f : Forwarding) (remarks : List Remark) : Prop where
  | draining {idleLooks : Nat} (hstage : f.stage = .draining deadline idleLooks)
      (hown : ownIn remarks = said ms bad)
      (hlinks : first.relay.Hears ms false f.relay (notesIn remarks))
  | stopping (hstage : f.stage = .stopping)
      (hown : ownIn remarks = said ms bad ∨ ownIn remarks = said ms bad ++ [timeOver])
      (hlinks : first.relay.Hears ms true f.relay (notesIn remarks))
  | ended {last : Relay} (hstage : f.stage = .ended { code := 0, output := report f.relay })
      (hown : ownIn remarks = said ms bad ∨ ownIn remarks = said ms bad ++ [timeOver])
      (hlast : f.relay = last.join.1)
      (hlinks : first.relay.Hears ms true last (notesIn remarks))

variable {deadline : Nat}

theorem Reads.endOfInput (h : Reads first ms bad f remarks)
    (hdrain : first.drainSeconds < Delay.clockRange) :
    Finishes first ms bad (f.now + first.drainSeconds * 1000) (f.step .endOfInput).1
      (remarks ++ (f.step .endOfInput).2) := by
  have hstep : f.step .endOfInput =
      ({ f with stage := .draining (f.now + first.drainSeconds * 1000) 0 }, [f.summary false]) := by
    have hclock : ¬ Delay.clockRange ≤ first.drainSeconds := Nat.not_le.mpr hdrain
    simp only [step, h.stage, finishInput, h.drain, if_neg hclock]
  rw [hstep]
  refine .draining rfl ?_ ?_
  · rw [ownIn_append, h.own, said, ← h.admitted]
    rfl
  · rw [notesIn_append]
    exact h.links.mono []

/-- The links are told to stop. -/
theorem finishes_halt {stopped : Bool}
    (hown : ownIn remarks = said ms bad ∨ ownIn remarks = said ms bad ++ [timeOver])
    (hlinks : first.relay.Hears ms stopped f.relay (notesIn remarks)) :
    Finishes first ms bad deadline f.halt.1 (remarks ++ f.halt.2) :=
  .stopping rfl (by rwa [halt, ownIn_withRelay]) (hears_withRelay hlinks.stop)

theorem Finishes.step (h : Finishes first ms bad deadline f remarks) (e : ForwardingEvent) :
    Finishes first ms bad deadline (f.step e).1 (remarks ++ (f.step e).2) := by
  cases h with
  | @draining idleLooks hstage hown hlinks =>
      cases e with
      | line | endOfInput | interrupt | conclude =>
          simp only [Forwarding.step, hstage, List.append_nil]
          exact .draining hstage hown hlinks
      | elapse moment =>
          simp only [Forwarding.step, hstage]
          exact .draining hstage ((ownIn_withRelay _ _).trans hown)
            (hears_withRelay (hlinks.elapse moment))
      | work place a =>
          simp only [Forwarding.step, hstage]
          exact .draining hstage ((ownIn_withRelay _ _).trans hown)
            (hears_withRelay (hlinks.work place a))
      | look =>
          simp only [Forwarding.step, hstage, look]
          split
          · exact finishes_halt (.inl hown) hlinks
          · split
            · have hsaid : ownIn (remarks ++ [.own timeOver]) = said ms bad ++ [timeOver] := by
                rw [ownIn_append, hown]
                rfl
              have hheard : first.relay.Hears ms false f.relay
                  (notesIn (remarks ++ [.own timeOver])) := by
                rw [notesIn_append]
                exact hlinks.mono _
              rw [List.append_cons]
              exact finishes_halt (.inr hsaid) hheard
            · rw [List.append_nil]
              exact .draining rfl hown hlinks
  | stopping hstage hown hlinks =>
      cases e with
      | line | endOfInput | interrupt | look =>
          simp only [Forwarding.step, hstage, List.append_nil]
          exact .stopping hstage hown hlinks
      | elapse moment =>
          simp only [Forwarding.step, hstage]
          exact .stopping hstage (by rwa [elapse, ownIn_withRelay])
            (hears_withRelay (hlinks.elapse moment))
      | work place a =>
          simp only [Forwarding.step, hstage]
          exact .stopping hstage (by rwa [ownIn_withRelay])
            (hears_withRelay (hlinks.work place a))
      | conclude =>
          simp only [Forwarding.step, hstage, conclude]
          split
          · refine .ended rfl ?_ rfl ?_
            · rwa [ownIn_append, ownIn_noted, List.append_nil]
            · rw [notesIn_append]
              exact hlinks.mono _
          · rw [List.append_nil]
            exact .stopping hstage hown hlinks
  | ended hstage hown hlast hlinks =>
      simp only [Forwarding.step, hstage, List.append_nil]
      exact .ended hstage hown hlast hlinks

theorem Finishes.length (h : Finishes first ms bad deadline f remarks) :
    f.relay.links.length = first.relay.links.length := by
  have hnames : f.relay.links.map Link.name = first.relay.links.map Link.name := by
    cases h with
    | draining _ _ hlinks | stopping _ _ hlinks => exact hlinks.names
    | ended _ _ hlast hlinks =>
        rw [hlast]
        exact (Relay.names_onLinks fun l => (Relay.forwarder_joinLink l).2).trans hlinks.names
  rw [← List.length_map, hnames, List.length_map]

theorem Finishes.run (h : Finishes first ms bad deadline f remarks) (es : List ForwardingEvent) :
    Finishes first ms bad deadline (f.run es).1 (remarks ++ (f.run es).2) := by
  induction es generalizing f remarks with
  | nil => exact (List.append_nil remarks).symm ▸ h
  | cons e es ih =>
      have hrun := ih (h.step e)
      rw [List.append_assoc] at hrun
      exact hrun

/-! ## The end of the command -/

theorem now_step (f : Forwarding) (e : ForwardingEvent) : f.now ≤ (f.step e).1.now := by
  unfold step
  split
  · exact Nat.le_refl _
  · exact Nat.le_max_left _ _
  · exact Nat.le_refl _
  · unfold take
    split <;> exact Nat.le_refl _
  · exact Nat.le_refl _
  · exact Nat.le_refl _
  · unfold look
    split
    · exact Nat.le_refl _
    · split <;> exact Nat.le_refl _
  · unfold conclude
    split <;> exact Nat.le_refl _
  · exact Nat.le_refl _

theorem now_run (f : Forwarding) (es : List ForwardingEvent) : f.now ≤ (f.run es).1.now := by
  induction es generalizing f with
  | nil => exact Nat.le_refl _
  | cons e es ih => exact Nat.le_trans (f.now_step e) (ih _)

/-- The command has ended, or it waits for its links, and each of them, of so many, has had so many
steps of work since it was told to stop. -/
def Leaves (places : Nat) (works : Nat → Nat) (f : Forwarding) : Prop :=
  (∃ exit, f.stage = .ended exit) ∨ (f.stage = .stopping ∧ ∀ place < places, ∃ l,
    f.relay.links[place]? = some l ∧ l.forwarder.Bound ∧ l.forwarder.left ≤ 8 - works place)

variable {places : Nat} {works : Nat → Nat}

theorem Leaves.step (h : Leaves places works f) (e : ForwardingEvent) :
    Leaves places (fun place => works place + (e.worksAt place).toNat) (f.step e).1 := by
  rcases h with ⟨exit, hended⟩ | ⟨hstage, hlinks⟩
  · refine .inl ⟨exit, ?_⟩
    simp only [Forwarding.step, hended]
  · cases e with
    | line | endOfInput | interrupt | look =>
        simp only [Forwarding.step, hstage]
        exact .inr ⟨hstage, hlinks⟩
    | elapse moment =>
        simp only [Forwarding.step, hstage]
        refine .inr ⟨hstage, fun place hplace => ?_⟩
        obtain ⟨l, hl, hbound, hleft⟩ := hlinks place hplace
        obtain ⟨hbound', hleft'⟩ := hbound.step (.elapse moment)
        exact ⟨_, (Relay.getElem?_onLinks hl).1, hbound', Nat.le_trans hleft' hleft⟩
    | work other a =>
        simp only [Forwarding.step, hstage]
        refine .inr ⟨hstage, fun place hplace => ?_⟩
        obtain ⟨l, hl, hbound, hleft⟩ := hlinks place hplace
        refine ⟨_, (Relay.getElem?_onPlace other hl).1, ?_⟩
        by_cases hother : other = place
        · obtain ⟨hbound', hleft'⟩ := hbound.step (.work a)
          have hworks : (ForwardingEvent.work other a).worksAt place = true := beq_iff_eq.mpr hother
          simp only [if_pos hother, hworks, Bool.toNat_true]
          refine ⟨hbound', Nat.le_trans hleft' ?_⟩
          show l.forwarder.left - 1 ≤ 8 - (works place + 1)
          omega
        · have hidle : (ForwardingEvent.work other a).worksAt place = false :=
            beq_false_of_ne hother
          simp only [if_neg hother, hidle]
          exact ⟨hbound, hleft⟩
    | conclude =>
        simp only [Forwarding.step, hstage, conclude]
        split
        · exact .inl ⟨_, rfl⟩
        · exact .inr ⟨hstage, hlinks⟩

theorem Leaves.run (h : Leaves places works f) (es : List ForwardingEvent) :
    Leaves places (fun place => works place + es.countP (·.worksAt place)) (f.run es).1 := by
  induction es generalizing f works with
  | nil => exact h
  | cons e es ih =>
      have hcount : (fun place => works place + (e :: es).countP (·.worksAt place)) =
          fun place => works place + (e.worksAt place).toNat + es.countP (·.worksAt place) := by
        funext place
        rw [List.countP_cons]
        cases e.worksAt place with
        | true => simp only [Bool.toNat_true, if_true]; omega
        | false => simp
      rw [hcount]
      exact ih (h.step e)

/-- After eight steps of work of each link the command can conclude. -/
theorem Leaves.conclude (h : Leaves places works f) (hplaces : f.relay.links.length = places)
    (hworks : ∀ place < places, 8 ≤ works place) :
    ∃ exit, (f.step .conclude).1.stage = .ended exit := by
  rcases h with ⟨exit, hended⟩ | ⟨hstage, hlinks⟩
  · exact ⟨exit, by simp only [Forwarding.step, hended]⟩
  · have hall : f.relay.links.all hasEnded = true := by
      rw [List.all_eq_true]
      intro l hl
      obtain ⟨place, hplace⟩ := List.mem_iff_getElem?.mp hl
      have hlt : place < places := by
        rw [← hplaces]
        exact (List.getElem?_eq_some_iff.mp hplace).1
      obtain ⟨l', hl', hbound, hleft⟩ := hlinks place hlt
      cases hplace.symm.trans hl'
      have hnone : l.forwarder.left = 0 := by
        have hmany := hworks place hlt
        omega
      obtain ⟨how, hended⟩ := hbound.ended hnone
      rw [hasEnded, hended]
    simp only [Forwarding.step, hstage, Forwarding.conclude, if_pos hall]
    exact ⟨_, rfl⟩

/-- The command is given the chance to end: after the end of input time passes beyond its deadline,
it looks once more, each of its links gets to work eight times, and it concludes. Whatever else may
happen in between or behind. -/
def Enough (f : Forwarding) (es : List ForwardingEvent) : Prop :=
  ∃ before moment waiting working after,
    es = before ++ .elapse moment :: (waiting ++ .look :: (working ++ .conclude :: after)) ∧
      .endOfInput ∈ before ∧ (f.run before).1.now + f.drainSeconds * 1000 ≤ moment ∧
      ∀ place < f.relay.links.length, 8 ≤ working.countP (·.worksAt place)

/-- The deadline is over, unless the command has ended before. -/
def Late (deadline : Nat) (f : Forwarding) : Prop :=
  (∃ exit, f.stage = .ended exit) ∨ deadline ≤ f.now

theorem Late.run (h : Late deadline f) (es : List ForwardingEvent) :
    Late deadline (f.run es).1 := by
  rcases h with ⟨exit, hended⟩ | hlate
  · rw [run_of_ended hended]
    exact .inl ⟨exit, hended⟩
  · exact .inr (Nat.le_trans hlate (f.now_run es))

theorem late_elapse {moment : Nat} (hmoment : deadline ≤ moment) :
    Late deadline (f.step (.elapse moment)).1 := by
  cases hstage : f.stage with
  | ended exit => exact .inl ⟨exit, by simp only [step, hstage]⟩
  | reading | draining | stopping =>
      simp only [step, hstage]
      exact .inr (Nat.le_trans hmoment (Nat.le_max_right _ _))

/-- When the deadline is over and the command looks, it has its links leave. -/
theorem Finishes.leaves (h : Finishes first ms bad deadline f remarks) (hlate : Late deadline f)
    (hfirst : first.relay.Fresh) :
    Leaves first.relay.links.length (fun _ => 0) (f.step .look).1 := by
  have hdrained : ∀ idleLooks, (f.step .look).1.stage ≠ .draining deadline idleLooks := by
    intro idleLooks
    cases h with
    | draining hstage _ _ =>
        have hover : deadline ≤ f.now := by
          apply hlate.resolve_left
          rintro ⟨exit, hended⟩
          rw [hstage] at hended
          cases hended
        simp only [Forwarding.step, hstage, look, if_pos hover]
        split <;> nofun
    | stopping hstage _ _ | ended hstage _ _ _ =>
        simp only [Forwarding.step, hstage]
        nofun
  cases h.step .look with
  | draining hstage _ _ => exact absurd hstage (hdrained _)
  | stopping hstage _ hlinks =>
      refine .inr ⟨hstage, fun place hplace => ?_⟩
      obtain ⟨l, hl, hbound⟩ := hlinks.bound hfirst place hplace
      exact ⟨l, hl, hbound, l.forwarder.left_le⟩
  | ended hstage _ _ _ => exact .inl ⟨_, hstage⟩

theorem ended_run {exit : Exit} (hstage : f.stage = .ended exit) (es : List ForwardingEvent) :
    (f.run es).1.stage = .ended exit := by
  rw [run_of_ended hstage]
  exact hstage

/-- A command that has taken in all of its input ends when it is given the chance. -/
theorem Finishes.ends (h : Finishes first ms bad deadline f remarks)
    (hfirst : first.relay.Fresh) {moment : Nat} (hmoment : deadline ≤ moment)
    (waiting : List ForwardingEvent)
    {working : List ForwardingEvent}
    (hworking : ∀ place < first.relay.links.length, 8 ≤ working.countP (·.worksAt place))
    (after : List ForwardingEvent) :
    let es := .elapse moment :: (waiting ++ .look :: (working ++ .conclude :: after))
    ∃ exit, (f.run es).1.stage = .ended exit := by
  intro es
  have hwaited := (h.step (.elapse moment)).run waiting
  have hlate : Late deadline ((f.step (.elapse moment)).1.run waiting).1 :=
    (late_elapse hmoment).run waiting
  have hleaves := (hwaited.leaves hlate hfirst).run working
  obtain ⟨exit, hexit⟩ := hleaves.conclude ((hwaited.step .look).run working).length
    fun place hplace => by simpa using hworking place hplace
  refine ⟨exit, ?_⟩
  show ((f.step (.elapse moment)).1.run _).1.stage = _
  rw [run_append]
  show ((((f.step (.elapse moment)).1.run waiting).1.step .look).1.run _).1.stage = _
  rw [run_append]
  exact ended_run hexit after

theorem reads_start (hstage : f.stage = .reading) (hadmitted : f.admitted = 0) :
    Reads f [] 0 f [] :=
  ⟨hstage, rfl, hadmitted, rfl, f.relay.hears_start⟩

/-- Input can be found among all that happens. -/
theorem split_at_input {es xs ys : List ForwardingEvent} {x : ForwardingEvent}
    (hes : es.filter ForwardingEvent.isInput = xs ++ x :: ys) :
    ∃ early late, es = early ++ x :: late ∧ early.filter ForwardingEvent.isInput = xs := by
  obtain ⟨early, rest, rfl, hearly, hrest⟩ := List.filter_eq_append_iff.mp hes
  obtain ⟨between, late, rfl, hbetween, -, -⟩ := List.filter_eq_cons_iff.mp hrest
  refine ⟨early ++ between, late, (List.append_assoc _ _ _).symm, ?_⟩
  rw [List.filter_append, hearly, List.filter_eq_nil_iff.mpr hbetween, List.append_nil]

/-- Where the end of input has been, all of the input has been. -/
theorem filter_before_end {before after : List ForwardingEvent} {lines : List ByteArray}
    (hes : (before ++ after).filter ForwardingEvent.isInput = lines.map .line ++ [.endOfInput])
    (hmem : .endOfInput ∈ before) :
    before.filter ForwardingEvent.isInput = lines.map .line ++ [.endOfInput] := by
  rw [List.filter_append] at hes
  rcases List.eq_nil_or_concat (after.filter ForwardingEvent.isInput) with hnil | ⟨more, e, hmore⟩
  · rwa [hnil, List.append_nil] at hes
  · rw [hmore, List.concat_eq_append, ← List.append_assoc] at hes
    have hlines := (List.append_inj' hes rfl).1
    have hinput : ForwardingEvent.endOfInput ∈ lines.map ForwardingEvent.line := by
      rw [← hlines]
      exact List.mem_append_left _ (List.mem_filter.mpr ⟨hmem, rfl⟩)
    obtain ⟨_, -, hline⟩ := List.mem_map.mp hinput
    cases hline

/-- After the end of input the command finishes, and its deadline is not far away. -/
theorem Reads.finishes (h : Reads first [] 0 first [])
    (hdrain : first.drainSeconds < Delay.clockRange)
    {es : List ForwardingEvent} {lines : List ByteArray} (hcomes : Comes lines ms bad)
    (hes : es.filter ForwardingEvent.isInput = lines.map .line ++ [.endOfInput]) :
    ∃ deadline ≤ (first.run es).1.now + first.drainSeconds * 1000,
      Finishes first ms bad deadline (first.run es).1 (first.run es).2 := by
  obtain ⟨early, late, rfl, hearly⟩ := split_at_input hes
  have hread := h.run hcomes hearly
  simp only [List.nil_append, Nat.zero_add] at hread
  have hfinishes := (hread.endOfInput hdrain).run late
  rw [List.append_assoc] at hfinishes
  rw [run_append]
  refine ⟨_, ?_, hfinishes⟩
  exact Nat.add_le_add_right (now_run _ (.endOfInput :: late)) _

/-- What the links of a command have made of its input: each has admitted these mutations, in their
order, and counted them. -/
def Told (n : NodeSettings) (first : Forwarding) (ms : List Mutation) (r : Relay)
    (notes : List Note) : Prop :=
  ∀ (place : Nat) s, n.links[place]? = some s → ∃ l mine link,
    first.relay.links[place]? = some l ∧ r.links[place]? = some link ∧
      link.forwarder = (l.run mine).1.forwarder ∧ (l.run mine).2.Sublist notes ∧
      heard mine = ms ∧ admittedIn (l.run mine).2 = numbered 0 ms ∧
      link.status.offered = UInt64.ofNat ms.length

variable {n : NodeSettings} {r : Relay} {notes : List Note} {stopped : Bool}

theorem told_of_hears
    (hfirst : first.relay.links = n.links.map fun s => Link.begun s n.port n.capacity.toNat)
    (h : first.relay.Hears ms stopped r notes) : Told n first ms r notes := by
  intro place s hs
  have hl : first.relay.links[place]? = some (Link.begun s n.port n.capacity.toNat) := by
    rw [hfirst, List.getElem?_map, hs]
    rfl
  obtain ⟨mine, hmine, hms, -, hlink, hnotes⟩ := h.links place _ hl
  have hadmits := Link.admits_run (l := Link.begun s n.port n.capacity.toNat) rfl hmine
  rw [hms] at hadmits
  exact ⟨_, mine, _, hl, hlink, rfl, hnotes, hms, hadmits.notes, Link.offered_run hadmits⟩

theorem Told.join (h : Told n first ms r notes) : Told n first ms r.join.1 notes := by
  intro place s hs
  obtain ⟨l, mine, link, hl, hlink, hforwarder, hnotes, hms, hadmitted, hoffered⟩ := h place s hs
  have hsame := (Relay.forwarder_joinLink link).1
  refine ⟨l, mine, _, hl, (Relay.getElem?_onLinks hlink).1, hsame.trans hforwarder, hnotes, hms,
    hadmitted, ?_⟩
  rw [← hoffered, Link.status, Link.status, hsame]

theorem Finishes.told (h : Finishes first ms bad deadline f remarks)
    (hfirst : first.relay.links = n.links.map fun s => Link.begun s n.port n.capacity.toNat) :
    Told n first ms f.relay (notesIn remarks) := by
  cases h with
  | draining _ _ hlinks | stopping _ _ hlinks => exact told_of_hears hfirst hlinks
  | ended _ _ hlast hlinks =>
      rw [hlast]
      exact (told_of_hears hfirst hlinks).join

theorem Finishes.own (h : Finishes first ms bad deadline f remarks) :
    ownIn remarks = said ms bad ∨ ownIn remarks = said ms bad ++ [timeOver] := by
  cases h with
  | draining _ hown _ => exact .inl hown
  | stopping _ hown _ | ended _ hown _ _ => exact hown

theorem Finishes.exit (h : Finishes first ms bad deadline f remarks) :
    f.exit? = none ∨ f.exit? = some { code := 0, output := report f.relay } := by
  cases h with
  | draining hstage _ _ | stopping hstage _ _ => exact .inl (by simp only [exit?, hstage])
  | ended hstage _ _ _ => exact .inr (by simp only [exit?, hstage])

end Forwarding

end CommandLine

open CommandLine

/-- What becomes of the input of a forwarding command, whatever its links, their peers and the clock
do meanwhile, unless it asked for backlogs that cannot be allocated and crashed before it read any.
Lines that are texts are read to the last one: what is blank is passed over, for what is malformed
there is a warning, and every link admits the mutations that the other lines spell, in their order,
and counts them. The command can only end with code 0, after it has printed a status with these
counts, and it does end when it is given the chance. If there is a garbled line, one that is not
UTF-8, then this is what becomes of the lines before it, and the command fails there with code 1,
prints nothing and reads no further. -/
theorem input_forwarded {n : NodeSettings} (hcheck : n.check = .ok ()) {drainSeconds : Nat}
    (hdrain : drainSeconds < Delay.clockRange) (input : ByteArray) {es : List ForwardingEvent}
    (hes : es.filter ForwardingEvent.isInput =
      (linesOfInput input).map .line ++ [.endOfInput]) :
    (¬ n.HasRoom → (Forwarding.start n drainSeconds).1 = .error .crashed) ∧
    (n.HasRoom → ∃ f announced, Forwarding.start n drainSeconds = (.ok f, announced) ∧
      ∃ read ms bad, Comes read ms bad ∧
        let last := (f.run es).1
        let remarks := (f.run es).2
        Forwarding.Told n f ms last.relay (notesIn remarks) ∧
        ((linesOfInput input = read ∧
          (ownIn remarks = said ms bad ∨ ownIn remarks = said ms bad ++ [timeOver]) ∧
          (last.exit? = none ∨
            last.exit? = some { code := 0, output := Forwarding.report last.relay }) ∧
          (f.Enough es →
            last.exit? = some { code := 0, output := Forwarding.report last.relay })) ∨
        ∃ line rest, linesOfInput input = read ++ line :: rest ∧ Garbled line ∧
          ownIn remarks = List.replicate bad skipped ∧
          last.exit? = some (.failure .other))) := by
  refine ⟨fun hroom => by rw [Forwarding.start, Relay.start_of_no_room hcheck hroom],
    fun hroom => ?_⟩
  obtain ⟨lines, hstart⟩ := Relay.start_of_check hcheck hroom
  let f : Forwarding :=
    { relay := ⟨n, n.links.map fun s => Link.begun s n.port n.capacity.toNat⟩, drainSeconds }
  have hfresh : f.relay.Fresh := List.forall_mem_map.mpr fun s _ => ⟨nofun, rfl⟩
  have hreads : f.Reads [] 0 f [] := Forwarding.reads_start rfl rfl
  obtain ⟨read, ms, bad, hcomes, hrest⟩ := exists_comes (linesOfInput input)
  refine ⟨f, _, by rw [Forwarding.start, hstart], read, ms, bad, hcomes, ?_⟩
  intro last remarks
  rcases hrest with hall | ⟨line, rest, hsplit, hgarbled⟩
  · rw [hall] at hes
    obtain ⟨deadline, -, hfinishes⟩ := hreads.finishes hdrain hcomes hes
    refine ⟨hfinishes.told rfl, .inl ⟨hall, hfinishes.own, hfinishes.exit, ?_⟩⟩
    rintro ⟨before, moment, waiting, working, after, rfl, hmem, hmoment, hworking⟩
    obtain ⟨deadline', hdeadline, hbefore⟩ :=
      hreads.finishes hdrain hcomes (Forwarding.filter_before_end hes hmem)
    obtain ⟨exit, hexit⟩ :=
      hbefore.ends hfresh (Nat.le_trans hdeadline hmoment) waiting hworking after
    have hended : last.exit? = some exit := by
      show (f.run (before ++ _)).1.exit? = _
      rw [Forwarding.run_append, Forwarding.exit?, hexit]
    apply hfinishes.exit.resolve_left
    show last.exit? ≠ none
    rw [hended]
    nofun
  · rw [hsplit, List.map_append, List.map_cons, List.append_assoc] at hes
    obtain ⟨early, late, rfl, hearly⟩ := Forwarding.split_at_input hes
    have hread := hreads.run hcomes hearly
    simp only [List.nil_append, Nat.zero_add] at hread
    have hstopped : f.run (early ++ .line line :: late) =
        ({ (f.run early).1 with stage := .ended (.failure .other) }, (f.run early).2) := by
      rw [Forwarding.run_append, hread.run_garbled hgarbled, List.append_nil]
    have htold : Forwarding.Told n f ms (f.run early).1.relay (notesIn (f.run early).2) :=
      Forwarding.told_of_hears rfl hread.links
    simp only [last, remarks, hstopped]
    exact ⟨htold, .inr ⟨line, rest, hsplit, hgarbled, hread.own, rfl⟩⟩

/-- A command with one link reads a mutation, a line that is no JSON, a blank line and a mutation
written as an array, and ends with two mutations counted. -/
theorem input_forwarded_bad_line :
    let n : NodeSettings :=
      ⟨"node-a", 5701, 100000, [⟨"tokyo", ⟨"tokyo", "pass"⟩, ["t1"], 10, 1000, .fixed⟩]⟩
    let input := ("\x7b\"key\":\"a\",\"container\":\"orders\",\"value\":\"v\"\x7d\r\nx\n \n" ++
      "[\"orders\",\"b\",\"w\"]").toUTF8
    let es : List ForwardingEvent := (linesOfInput input).map .line ++
      [.endOfInput, .work 0 {}, .elapse 30000, .look] ++ List.replicate 8 (.work 0 {}) ++
      [.conclude]
    ∃ f announced link, Forwarding.start n 30 = (.ok f, announced) ∧
      (f.run es).1.relay.links[0]? = some link ∧ link.status.offered = 2 ∧
      (f.run es).1.exit? =
        some { code := 0, output := Forwarding.report (f.run es).1.relay } := by
  intro n input es
  have hcheck : n.check = .ok () := by decide
  have hclock : 30 < Delay.clockRange := by decide
  have hes : es.filter ForwardingEvent.isInput =
      (linesOfInput input).map .line ++ [.endOfInput] := by
    simp [es, List.filter_map, Function.comp_def, ForwardingEvent.isInput]
    rfl
  have hlines : ∀ line ∈ linesOfInput input, InputLine.ofBytes line ≠ .garbled := by
    decide +kernel
  have htwo : ((linesOfInput input).filterMap
      fun line => (InputLine.ofBytes line).mutation?).length = 2 := by decide +kernel
  have hroom : n.HasRoom := by decide
  obtain ⟨f, announced, hf, read, ms, bad, hcomes, htold, hend⟩ :=
    (input_forwarded hcheck hclock input hes).2 hroom
  obtain ⟨lines, hstart⟩ := Relay.start_of_check hcheck hroom
  have hbegun := hf
  rw [Forwarding.start, hstart] at hbegun
  have henough : f.Enough es := by
    refine ⟨(linesOfInput input).map .line ++ [.endOfInput, .work 0 {}], 30000, [],
      List.replicate 8 (.work 0 {}), [], ?_, ?_, ?_, ?_⟩
    · simp [es]
    · simp
    · cases hbegun
      decide +kernel
    · cases hbegun
      intro place hplace
      cases Nat.lt_one_iff.mp hplace
      decide
  obtain ⟨l, mine, link, -, hlink, -, -, -, -, hoffered⟩ := htold 0 _ rfl
  rcases hend with ⟨rfl, -, -, hexit⟩ | ⟨line, rest, hsplit, hgarbled, -⟩
  · refine ⟨f, announced, link, hf, hlink, ?_, hexit henough⟩
    rw [hoffered, hcomes.computed.1, htwo]
    rfl
  · refine absurd (InputLine.ofBytes_eq_garbled_iff.mpr hgarbled) (hlines line ?_)
    rw [hsplit]
    exact List.mem_append_right _ List.mem_cons_self

/-- It is not so that a command that was not interrupted can only end with code 0. -/
theorem garbled_line_fails :
    ¬ ∀ (n : NodeSettings) (drainSeconds : Nat) (input : ByteArray) (es : List ForwardingEvent)
      (f : Forwarding) (announced : List Remark),
      n.check = .ok () → drainSeconds < Delay.clockRange →
      es.filter ForwardingEvent.isInput = (linesOfInput input).map .line ++ [.endOfInput] →
      Forwarding.start n drainSeconds = (.ok f, announced) →
      (f.run es).1.exit? = none ∨ ∃ output, (f.run es).1.exit? = some { code := 0, output } := by
  intro h
  let n : NodeSettings := ⟨"node-a", 5701, 100000, []⟩
  have hfailed : ∃ f announced, Forwarding.start n 0 = (.ok f, announced) ∧
      (f.run [.line ⟨#[0xff]⟩, .endOfInput]).1.exit? = some (.failure .other) :=
    ⟨_, _, rfl, by decide +kernel⟩
  obtain ⟨f, announced, hf, hexit⟩ := hfailed
  have hlines : linesOfInput ⟨#[0xff, 10]⟩ = [⟨#[0xff]⟩] := by decide +kernel
  have hes : [.line ⟨#[0xff]⟩, .endOfInput].filter ForwardingEvent.isInput =
      (linesOfInput ⟨#[0xff, 10]⟩).map .line ++ [.endOfInput] := by
    rw [hlines]
    rfl
  rcases h n 0 _ _ f announced (by decide) (by decide) hes hf with hnone | ⟨output, hzero⟩
  · rw [hexit] at hnone
    cases hnone
  · rw [hexit] at hzero
    cases hzero

end ClusterRelay
