import ClusterRelay.Proofs.Custody
import Mathlib.Data.List.Basic

/-!
# The order of attempts

A forwarder stays with a mutation until it is delivered or dropped. So its attempts come in
blocks, each block all the attempts at one mutation, and the blocks come in the order in
which the backlog hands the mutations out. That is the order of the offers, without those
that the backlog evicts.

What has to be found is the invariant that joins three places where a mutation can be: the
backlog, the retry stack and the forwarder's hand. `Chronicle` says that at most one parcel
is begun and not settled. It is in the hand, or it is the one entry of the retry stack, and
every attempt at it so far found the connection dead. What was settled, then the parcel that
is begun, then the backlog is what is kept of the offers (`Custody`); an attempt only moves
the boundary between the first two, and taking a parcel the boundary between the last two.

A parcel that is begun when the forwarder ends is lost, and with it the place of the boundary:
from then on nothing is attempted, and the chronicle only has to say what was. The last attempt at
that parcel may never be over, if the forwarder broke down in the middle of it.
-/

namespace ClusterRelay

/-- The note is about an attempt to deliver: a frame was submitted, or the attempt is over. -/
def Note.ofDelivery : Note → Bool
  | .submitted _ _ _ | .attempted _ _ => true
  | _ => false

def Note.attempted? : Note → Option (Parcel × Delivery)
  | .attempted p d => some (p, d)
  | _ => none

/-- The attempts that are over, in their order. -/
def attemptsIn (notes : List Note) : List (Parcel × Delivery) :=
  notes.filterMap Note.attempted?

/-- An attempt to deliver a parcel. -/
inductive Attempt where
  /-- No frame could be written. -/
  | unwritten (ending : Delivery)
  /-- A frame was submitted; the attempt may have ended since. -/
  | submitted (conn : ConnId) (frame : ByteArray) (answer : Outcome Unit)
      (ending : Option Delivery)

namespace Attempt

def ending? : Attempt → Option Delivery
  | unwritten d => some d
  | submitted _ _ _ d => d

def frame? : Attempt → Option ByteArray
  | unwritten _ => none
  | submitted _ frame _ _ => some frame

def notes (p : Parcel) : Attempt → List Note
  | unwritten d => [.attempted p d]
  | submitted conn frame answer none => [.submitted conn frame answer]
  | submitted conn frame answer (some d) => [.submitted conn frame answer, .attempted p d]

/-- The frame of `p` was accepted, and the connection was dead afterwards. -/
def InVain (p : Parcel) (a : Attempt) : Prop :=
  ∃ conn frame, Forwarder.frameOf p = .ok frame ∧ a = submitted conn frame (.done ()) (some .dead)

end Attempt

/-- Attempts at one parcel, one after another. -/
structure Block where
  parcel : Parcel
  attempts : List Attempt

namespace Block

def notes (b : Block) : List Note := b.attempts.flatMap (Attempt.notes b.parcel)

/-- There is an attempt, all but the last one were in vain, and whatever was submitted is the frame
of the parcel. -/
structure Sound (b : Block) : Prop where
  begun : b.attempts ≠ []
  vain : ∀ a ∈ b.attempts.dropLast, a.InVain b.parcel
  frames : ∀ a ∈ b.attempts, ∀ frame, a.frame? = some frame →
    Forwarder.frameOf b.parcel = .ok frame

/-- The last attempt is over, and not for want of a live connection. -/
def Settled (b : Block) : Prop :=
  ∃ a, b.attempts.getLast? = some a ∧ ∃ d, a.ending? = some d ∧ d ≠ .dead

/-- Every attempt was in vain; there may be none. -/
def AllInVain (b : Block) : Prop := ∀ a ∈ b.attempts, a.InVain b.parcel

variable {b : Block} {p : Parcel} {tries : List Attempt} {a : Attempt}

@[simp] theorem notes_concat : (Block.mk p (tries ++ [a])).notes =
    (Block.mk p tries).notes ++ a.notes p := by
  simp [notes]

theorem Sound.dead (h : b.Sound) : ∀ a ∈ b.attempts.dropLast, a.ending? = some .dead := by
  intro a ha
  obtain ⟨conn, frame, -, rfl⟩ := h.vain a ha
  rfl

theorem sound_of_allInVain (h : b.AllInVain) (hne : b.attempts ≠ []) : b.Sound := by
  refine ⟨hne, fun a ha => h a (List.dropLast_subset _ ha), fun a ha frame hframe => ?_⟩
  · obtain ⟨conn, frame', hok, rfl⟩ := h a ha
    cases hframe
    exact hok

theorem sound_concat (h : (Block.mk p tries).AllInVain)
    (hframe : ∀ frame, a.frame? = some frame → Forwarder.frameOf p = .ok frame) :
    (Block.mk p (tries ++ [a])).Sound := by
  refine ⟨by simp, fun a' ha => ?_, fun a' ha frame hf => ?_⟩
  · rw [show (Block.mk p (tries ++ [a])).attempts.dropLast = tries from List.dropLast_concat] at ha
    exact h a' ha
  · rcases List.mem_append.mp ha with ha | ha
    · obtain ⟨conn, frame', hok, rfl⟩ := h a' ha
      cases hf
      exact hok
    · rw [List.mem_singleton.mp ha] at hf
      exact hframe frame hf

theorem settled_concat {d : Delivery} (hd : a.ending? = some d) (hne : d ≠ .dead) :
    (Block.mk p (tries ++ [a])).Settled :=
  ⟨a, List.getLast?_concat, d, hd, hne⟩

theorem allInVain_concat (h : (Block.mk p tries).AllInVain) (ha : a.InVain p) :
    (Block.mk p (tries ++ [a])).AllInVain := by
  intro a' ha'
  rcases List.mem_append.mp ha' with ha' | ha'
  · exact h a' ha'
  · rw [List.mem_singleton.mp ha']
    exact ha

end Block

namespace Forwarder

theorem ofDelivery_quiet {notes : List Note} (h : ∀ n ∈ notes, n.ofParcel = false) :
    notes.filter Note.ofDelivery = [] := by
  refine List.filter_eq_nil_iff.mpr fun n hn => ?_
  have := h n hn
  cases n <;> first | exact Bool.false_ne_true | cases this

theorem ofDelivery_offer (w : Forwarder) (m : Mutation) :
    (w.offer m).2.filter Note.ofDelivery = [] := by
  obtain ⟨lines, hnotes⟩ := offer_notes w m
  rw [hnotes, List.filter_append, ofDelivery_quiet (quiet_lines lines), List.append_nil]
  cases (w.backlog.offer ⟨w.admitted, m⟩).1 <;> rfl

/-! ## The invariant -/

/-- The blocks are what was noted, and their parcels are what was taken. -/
structure Told (notes : List Note) (w : Forwarder) (blocks : List Block) : Prop where
  told : notes.filter Note.ofDelivery = blocks.flatMap Block.notes
  custody : Custody notes w (blocks.map Block.parcel)

/-- The block that is begun agrees with where the forwarder stands. -/
def Suits (current : Option Block) (w : Forwarder) : Prop :=
  match w.phase.stance with
  | .choosing => w.retries.toList = (current.map Block.parcel).toList ∧
      ∀ b, current = some b → b.AllInVain ∧ b.attempts ≠ []
  | .waiting => w.retries.toList = [] ∧ current = none
  | .holding p => w.retries.toList = [] ∧
      ∃ tries, current = some ⟨p, tries⟩ ∧ (Block.mk p tries).AllInVain
  | .awaiting p conn => w.retries.toList = [] ∧
      ∃ tries frame, current = some ⟨p, tries ++ [.submitted conn frame (.done ()) none]⟩ ∧
        frameOf p = .ok frame ∧ (Block.mk p tries).AllInVain
  | .ended => ∀ b, current = some b → b.attempts ≠ [] → b.Sound

/-- What happened so far: the blocks that are settled, and the one that is begun. -/
structure Chronicle (notes : List Note) (w : Forwarder) (closed : List Block)
    (current : Option Block) : Prop extends Told notes w (closed ++ current.toList) where
  settled : ∀ b ∈ closed, b.Sound ∧ b.Settled
  suits : Suits current w

variable {notes others : List Note} {w w' : Forwarder} {closed blocks : List Block}
  {current : Option Block}

theorem Told.silent (h : Told notes w blocks) (hbacklog : w'.backlog = w.backlog)
    (hadmitted : w'.admitted = w.admitted) (hquiet : ∀ n ∈ others, n.ofParcel = false) :
    Told (notes ++ others) w' blocks := by
  refine ⟨?_, ?_⟩
  · rw [List.filter_append, ofDelivery_quiet hquiet, List.append_nil]
    exact h.told
  · exact h.custody.untouched hbacklog hadmitted (admittedIn_quiet hquiet)
      (evictedIn_quiet hquiet)

theorem Told.grow {b b' : Block} (h : Told notes w (blocks ++ [b]))
    (hparcel : b'.parcel = b.parcel)
    (hnotes : b.notes ++ others.filter Note.ofDelivery = b'.notes)
    (hbacklog : w'.backlog = w.backlog) (hadmitted : w'.admitted = w.admitted)
    (hin : admittedIn others = []) (hout : evictedIn others = []) :
    Told (notes ++ others) w' (blocks ++ [b']) := by
  refine ⟨?_, ?_⟩
  · rw [List.filter_append, h.told, List.flatMap_append, List.flatMap_append, List.append_assoc,
      List.flatMap_singleton, List.flatMap_singleton, hnotes]
  · have hsame : (blocks ++ [b']).map Block.parcel = (blocks ++ [b]).map Block.parcel := by
      rw [List.map_append, List.map_append, List.map_singleton, List.map_singleton, hparcel]
    rw [hsame]
    exact h.custody.untouched hbacklog hadmitted hin hout

theorem Told.attempt {p : Parcel} {tries : List Attempt} {a : Attempt}
    (h : Told notes w (blocks ++ [⟨p, tries⟩]))
    (hnotes : others.filter Note.ofDelivery = a.notes p)
    (hbacklog : w'.backlog = w.backlog) (hadmitted : w'.admitted = w.admitted)
    (hin : admittedIn others = []) (hout : evictedIn others = []) :
    Told (notes ++ others) w' (blocks ++ [⟨p, tries ++ [a]⟩]) :=
  h.grow rfl (by rw [hnotes, Block.notes_concat]) hbacklog hadmitted hin hout

theorem Told.conclude {p : Parcel} {tries : List Attempt} {conn : ConnId} {frame : ByteArray}
    {answer : Outcome Unit} {d : Delivery}
    (h : Told notes w (blocks ++ [⟨p, tries ++ [.submitted conn frame answer none]⟩]))
    (hnotes : others.filter Note.ofDelivery = [.attempted p d])
    (hbacklog : w'.backlog = w.backlog) (hadmitted : w'.admitted = w.admitted)
    (hin : admittedIn others = []) (hout : evictedIn others = []) :
    Told (notes ++ others) w'
      (blocks ++ [⟨p, tries ++ [.submitted conn frame answer (some d)]⟩]) := by
  refine h.grow rfl ?_ hbacklog hadmitted hin hout
  rw [hnotes, Block.notes_concat, Block.notes_concat, List.append_assoc]
  rfl

theorem suits_choosing (h : w.phase.stance = .choosing) : Suits current w ↔
    w.retries.toList = (current.map Block.parcel).toList ∧
      ∀ b, current = some b → b.AllInVain ∧ b.attempts ≠ [] := by
  unfold Suits
  rw [h]

theorem suits_waiting (h : w.phase.stance = .waiting) : Suits current w ↔
    w.retries.toList = [] ∧ current = none := by
  unfold Suits
  rw [h]

theorem suits_holding {p : Parcel} (h : w.phase.stance = .holding p) : Suits current w ↔
    w.retries.toList = [] ∧
      ∃ tries, current = some ⟨p, tries⟩ ∧ (Block.mk p tries).AllInVain := by
  unfold Suits
  rw [h]

theorem suits_awaiting {p : Parcel} {conn : ConnId} (h : w.phase.stance = .awaiting p conn) :
    Suits current w ↔ w.retries.toList = [] ∧
      ∃ tries frame, current = some ⟨p, tries ++ [.submitted conn frame (.done ()) none]⟩ ∧
        frameOf p = .ok frame ∧ (Block.mk p tries).AllInVain := by
  unfold Suits
  rw [h]

theorem suits_ended (h : w.phase.stance = .ended) : Suits current w ↔
    ∀ b, current = some b → b.attempts ≠ [] → b.Sound := by
  unfold Suits
  rw [h]

/-- A forwarder may end anywhere; what was begun is then left as it is. -/
theorem Suits.cut (h : Suits current w) (hend : w'.phase.stance = .ended) :
    Suits current w' := by
  rw [suits_ended hend]
  cases hstance : w.phase.stance with
  | choosing =>
      rw [suits_choosing hstance] at h
      exact fun b hb => Block.sound_of_allInVain (h.2 b hb).1
  | waiting =>
      rw [suits_waiting hstance] at h
      rw [h.2]
      exact nofun
  | holding p =>
      rw [suits_holding hstance] at h
      obtain ⟨-, tries, rfl, hvain⟩ := h
      rintro b ⟨⟩
      exact Block.sound_of_allInVain hvain
  | awaiting p conn =>
      rw [suits_awaiting hstance] at h
      obtain ⟨-, tries, frame, rfl, hframe, hvain⟩ := h
      rintro b ⟨⟩ -
      exact Block.sound_concat hvain fun _ hf => by cases hf; exact hframe
  | ended => rwa [suits_ended hstance] at h

/-- Where a parcel is put down for good, its block is settled. -/
theorem Chronicle.settle {p : Parcel} {tries : List Attempt} {a : Attempt} {d : Delivery}
    (h : Chronicle notes w closed current) (htries : (Block.mk p tries).AllInVain)
    (hretries : w.retries.toList = []) (hd : a.ending? = some d) (hne : d ≠ .dead)
    (hframe : ∀ frame, a.frame? = some frame → frameOf p = .ok frame)
    (htold : Told (notes ++ others) w' (closed ++ [⟨p, tries ++ [a]⟩]))
    (hkeep : w'.retries = w.retries) (hphase : w'.phase.stance = .choosing) :
    ∃ closed' current', Chronicle (notes ++ others) w' closed' current' := by
  refine ⟨closed ++ [⟨p, tries ++ [a]⟩], none, ?_, ?_, ?_⟩
  · rw [Option.toList_none, List.append_nil]
    exact htold
  · intro b hb
    rcases List.mem_append.mp hb with hb | hb
    · exact h.settled b hb
    · rw [List.mem_singleton.mp hb]
      exact ⟨Block.sound_concat htries hframe, Block.settled_concat hd hne⟩
  · rw [suits_choosing hphase, hkeep, hretries]
    exact ⟨rfl, nofun⟩

theorem Chronicle.step (h : Chronicle notes w closed current) (e : Event) :
    ∃ closed' current', Chronicle (notes ++ (w.step e).2) (w.step e).1 closed' current' := by
  have hmove := move_step w e
  generalize w.step e = r at hmove
  generalize e.offer? = m? at hmove
  have hsuits := h.suits
  cases hmove with
  | aside haside hstance hquiet =>
      refine ⟨closed, current, h.toTold.silent haside.backlog haside.admitted hquiet,
        h.settled, ?_⟩
      unfold Suits at hsuits ⊢
      rw [hstance, haside.retries]
      exact hsuits
  | offered m =>
      refine ⟨closed, current, ⟨?_, h.custody.offered m⟩, h.settled, hsuits⟩
      rw [List.filter_append, ofDelivery_offer, List.append_nil]
      exact h.told
  | rested hphase hretries =>
      have hnil := RetryStack.pop?_eq_none_iff.mp hretries
      rw [suits_choosing (stance_of_phase hphase), hnil] at hsuits
      have hnone : current = none := by
        cases current with
        | none => rfl
        | some b => cases hsuits.1
      refine ⟨closed, current, h.toTold.silent rfl rfl nofun, h.settled, ?_⟩
      rw [suits_waiting rfl]
      exact ⟨hnil, hnone⟩
  | @resumed p rest hphase hretries =>
      have hcons := RetryStack.toList_of_pop? hretries
      rw [suits_choosing (stance_of_phase hphase), hcons] at hsuits
      obtain ⟨hparcel, hvain⟩ := hsuits
      refine ⟨closed, current, h.toTold.silent rfl rfl nofun, h.settled, ?_⟩
      rw [suits_holding rfl]
      cases current with
      | none => cases hparcel
      | some b =>
          obtain ⟨hp, hrest⟩ := List.cons.inj hparcel
          subst hp
          exact ⟨hrest, b.attempts, rfl, (hvain b rfl).1⟩
  | @taken p rest hphase hbacklog =>
      rw [suits_waiting (stance_of_phase hphase)] at hsuits
      obtain ⟨hretries, hnone⟩ := hsuits
      refine ⟨closed, some ⟨p, []⟩, ⟨?_, ?_⟩, h.settled, ?_⟩
      · rw [List.append_nil, h.told, hnone]
        simp [Block.notes]
      · have hcustody := h.custody.taken hbacklog
          (show (({ w with backlog := rest } : Forwarder).takeUp p).backlog = rest from rfl) rfl
        rw [hnone] at hcustody
        simpa using hcustody
      · rw [suits_holding rfl]
        exact ⟨hretries, [], rfl, nofun⟩
  | @submitted p conn frame hphase hframe =>
      rw [suits_holding (stance_of_phase hphase)] at hsuits
      obtain ⟨hretries, tries, rfl, hvain⟩ := hsuits
      refine ⟨closed, some ⟨p, tries ++ [.submitted conn frame (.done ()) none]⟩, ?_,
        h.settled, ?_⟩
      · exact h.toTold.attempt rfl rfl rfl rfl rfl
      · rw [suits_awaiting rfl]
        exact ⟨hretries, tries, frame, rfl, hframe, hvain⟩
  | @unwritten p conn fault hphase =>
      rw [suits_holding (stance_of_phase hphase)] at hsuits
      obtain ⟨hretries, tries, rfl, hvain⟩ := hsuits
      refine h.settle (a := .unwritten (.faulted fault)) hvain hretries rfl nofun nofun ?_ rfl rfl
      exact h.toTold.attempt rfl rfl rfl rfl rfl
  | @unaccepted p conn frame answer fault hphase hframe hanswer =>
      rw [suits_holding (stance_of_phase hphase)] at hsuits
      obtain ⟨hretries, tries, rfl, hvain⟩ := hsuits
      refine h.settle (a := .submitted conn frame answer (some (.faulted fault))) hvain hretries
        rfl nofun (fun _ hf => by cases hf; exact hframe) ?_ rfl rfl
      exact h.toTold.attempt rfl rfl rfl rfl rfl
  | @delivered p conn answer hphase hanswer =>
      rw [suits_awaiting (stance_of_phase hphase)] at hsuits
      obtain ⟨hretries, tries, frame, rfl, hframe, hvain⟩ := hsuits
      refine h.settle (a := .submitted conn frame (.done ()) (some .sent)) hvain hretries
        rfl nofun (fun _ hf => by cases hf; exact hframe) ?_ rfl rfl
      exact h.toTold.conclude rfl rfl rfl rfl rfl
  | @unconfirmed p conn answer crash fault hphase hanswer =>
      rw [suits_awaiting (stance_of_phase hphase)] at hsuits
      obtain ⟨hretries, tries, frame, rfl, hframe, hvain⟩ := hsuits
      refine h.settle (a := .submitted conn frame (.done ()) (some (.faulted fault))) hvain
        hretries rfl nofun (fun _ hf => by cases hf; exact hframe) ?_ rfl rfl
      exact h.toTold.conclude rfl rfl rfl rfl rfl
  | @returned p conn answer hphase hanswer =>
      -- The parcel stays begun, and moves from the hand to the retry stack.
      rw [suits_awaiting (stance_of_phase hphase)] at hsuits
      obtain ⟨hretries, tries, frame, rfl, hframe, hvain⟩ := hsuits
      refine ⟨closed, some ⟨p, tries ++ [.submitted conn frame (.done ()) (some .dead)]⟩, ?_,
        h.settled, ?_⟩
      · exact h.toTold.conclude rfl rfl rfl rfl rfl
      · rw [suits_choosing rfl]
        refine ⟨?_, ?_⟩
        · show p :: w.retries.toList = [p]
          rw [hretries]
        · rintro b ⟨⟩
          exact ⟨Block.allInVain_concat hvain ⟨conn, frame, hframe, rfl⟩, by simp⟩
  | finished hplace =>
      exact ⟨closed, current, h.toTold.silent rfl rfl (Failover.quiet_call rfl), h.settled,
        hsuits.cut (stance_finish w)⟩
  | broken hhand haside hquiet =>
      exact ⟨closed, current, h.toTold.silent haside.backlog haside.admitted
        (Failover.quiet_concat_logged hquiet), h.settled, hsuits.cut rfl⟩
  | @overcome p conn frame answer crash hphase hframe hanswer =>
      -- The frame was refused, and the attempt will never be over.
      rw [suits_holding (stance_of_phase hphase)] at hsuits
      obtain ⟨hretries, tries, rfl, hvain⟩ := hsuits
      refine ⟨closed, some ⟨p, tries ++ [.submitted conn frame answer none]⟩, ?_, h.settled, ?_⟩
      · exact h.toTold.attempt rfl rfl rfl rfl rfl
      · rw [suits_ended rfl]
        rintro b ⟨⟩ -
        exact Block.sound_concat hvain fun _ hf => by cases hf; exact hframe

theorem chronicle_start (f : Failover) (capacity : Nat) :
    Chronicle [] (ofParts f (Backlog.ofCapacity capacity)) [] none :=
  ⟨⟨rfl, custody_start f capacity⟩, nofun, rfl, nofun⟩

theorem Chronicle.run (h : Chronicle notes w closed current) (es : List Event) :
    ∃ closed' current', Chronicle (notes ++ (w.run es).2) (w.run es).1 closed' current' := by
  induction es generalizing notes w closed current with
  | nil => exact ⟨closed, current, by simpa [Forwarder.run] using h⟩
  | cons e es ih =>
      obtain ⟨closed', current', hstep⟩ := h.step e
      obtain ⟨closed'', current'', hrest⟩ := ih hstep
      exact ⟨closed'', current'', by simpa [Forwarder.run, List.append_assoc] using hrest⟩

/-! ## Reading it off -/

theorem Suits.sound {b : Block} (h : Suits (some b) w) (hne : b.attempts ≠ []) : b.Sound := by
  cases hstance : w.phase.stance with
  | choosing =>
      rw [suits_choosing hstance] at h
      exact Block.sound_of_allInVain (h.2 b rfl).1 hne
  | waiting =>
      rw [suits_waiting hstance] at h
      cases h.2
  | holding p =>
      rw [suits_holding hstance] at h
      obtain ⟨-, tries, heq, hvain⟩ := h
      cases heq
      exact Block.sound_of_allInVain hvain hne
  | awaiting p conn =>
      rw [suits_awaiting hstance] at h
      obtain ⟨-, tries, frame, heq, hframe, hvain⟩ := h
      cases heq
      exact Block.sound_concat hvain (fun _ hf => by cases hf; exact hframe)
  | ended =>
      rw [suits_ended hstance] at h
      exact h b rfl hne

theorem Chronicle.begun (h : Chronicle notes w closed current) :
    ∃ blocks : List Block, notes.filter Note.ofDelivery = blocks.flatMap Block.notes ∧
      (∀ b ∈ blocks, b.Sound) ∧ (∀ b ∈ blocks.dropLast, b.Settled) ∧
      blocks.map Block.parcel <+: (closed ++ current.toList).map Block.parcel := by
  have hclosed : ∀ b ∈ closed.dropLast, b.Settled :=
    fun b hb => (h.settled b (List.dropLast_subset _ hb)).2
  have hshort : closed.map Block.parcel <+: (closed ++ current.toList).map Block.parcel := by
    rw [List.map_append]
    exact List.prefix_append _ _
  cases current with
  | none =>
      refine ⟨closed, ?_, fun b hb => (h.settled b hb).1, hclosed, hshort⟩
      have htold := h.told
      rwa [Option.toList_none, List.append_nil] at htold
  | some b =>
      have htold := h.told
      rw [Option.toList_some] at htold
      by_cases hne : b.attempts = []
      · -- The parcel was taken and nothing has been attempted yet.
        have hnone : b.notes = [] := by rw [Block.notes, hne]; rfl
        refine ⟨closed, ?_, fun b hb => (h.settled b hb).1, hclosed, hshort⟩
        rw [htold, List.flatMap_append, List.flatMap_singleton, hnone, List.append_nil]
      · refine ⟨closed ++ [b], htold, ?_, ?_, List.prefix_refl _⟩
        · intro b' hb'
          rcases List.mem_append.mp hb' with hb' | hb'
          · exact (h.settled b' hb').1
          · rw [List.mem_singleton.mp hb']
            exact h.suits.sound hne
        · rw [List.dropLast_concat]
          exact fun b' hb' => (h.settled b' hb').2

end Forwarder

/-- One attempt may come after another: it is at a later parcel, or at the same one again
because the connection was dead. -/
def Follows (earlier later : Parcel × Delivery) : Prop :=
  earlier.1.serial < later.1.serial ∨ (earlier.1 = later.1 ∧ earlier.2 = .dead)

theorem attemptsIn_ofDelivery (notes : List Note) :
    attemptsIn (notes.filter Note.ofDelivery) = attemptsIn notes := by
  unfold attemptsIn
  rw [List.filterMap_filter]
  refine List.filterMap_congr fun n _ => ?_
  cases n <;> rfl

theorem attemptsIn_attempt (p : Parcel) (a : Attempt) :
    attemptsIn (a.notes p) = (a.ending?.map (p, ·)).toList := by
  cases a with
  | unwritten d => rfl
  | submitted conn frame answer ending => cases ending <;> rfl

theorem attemptsIn_block (b : Block) :
    attemptsIn b.notes = b.attempts.flatMap fun a => (a.ending?.map (b.parcel, ·)).toList := by
  unfold attemptsIn Block.notes
  rw [List.filterMap_flatMap]
  exact List.flatMap_congr fun a _ => attemptsIn_attempt b.parcel a

theorem pairwise_of_dropLast {α : Type} {P : α → Prop} {l : List α}
    (h : ∀ a ∈ l.dropLast, P a) : l.Pairwise fun a _ => P a := by
  induction l with
  | nil => exact List.Pairwise.nil
  | cons a l ih =>
      cases l with
      | nil => exact List.pairwise_singleton _ _
      | cons b l =>
          rw [List.dropLast_cons_of_ne_nil (List.cons_ne_nil b l)] at h
          refine List.pairwise_cons.mpr ⟨fun _ _ => h a List.mem_cons_self, ih fun c hc => ?_⟩
          exact h c (List.mem_cons_of_mem _ hc)

theorem follows_block {b : Block} (h : b.Sound) : (attemptsIn b.notes).Pairwise Follows := by
  rw [attemptsIn_block, List.pairwise_flatMap]
  refine ⟨fun a _ => ?_, ?_⟩
  · cases a.ending? with
    | none => exact List.Pairwise.nil
    | some d => exact List.pairwise_singleton _ _
  · refine (pairwise_of_dropLast h.dead).imp fun {a a'} hdead x hx y hy => ?_
    rw [hdead] at hx
    obtain rfl := List.mem_singleton.mp hx
    obtain ⟨d, -, rfl⟩ := Option.map_eq_some_iff.mp (Option.mem_toList.mp hy)
    exact Or.inr ⟨rfl, rfl⟩

theorem parcel_of_mem_block {b : Block} {x : Parcel × Delivery} (h : x ∈ attemptsIn b.notes) :
    x.1 = b.parcel := by
  rw [attemptsIn_block] at h
  obtain ⟨a, -, hx⟩ := List.mem_flatMap.mp h
  obtain ⟨d, -, rfl⟩ := Option.map_eq_some_iff.mp (Option.mem_toList.mp hx)
  rfl

theorem follows_blocks {blocks : List Block} (h : ∀ b ∈ blocks, b.Sound)
    (hsorted : (blocks.map Block.parcel).Pairwise (·.serial < ·.serial)) :
    (attemptsIn (blocks.flatMap Block.notes)).Pairwise Follows := by
  have hflat : attemptsIn (blocks.flatMap Block.notes) =
      blocks.flatMap fun b => attemptsIn b.notes := List.filterMap_flatMap
  rw [hflat, List.pairwise_flatMap]
  refine ⟨fun b hb => follows_block (h b hb), ?_⟩
  refine (List.pairwise_map.mp hsorted).imp fun {b b'} hlt x hx y hy => ?_
  rw [← parcel_of_mem_block hx, ← parcel_of_mem_block hy] at hlt
  exact Or.inl hlt

/-- The attempts of a run come in blocks, each at one parcel: all but the last attempt of a block
had their frame accepted and found the connection dead afterwards, every block but the last is
settled, and what is submitted is the frame of the parcel. The parcels of the blocks are, each once
and in the order of the offers, the first of those that are never evicted, however long the run goes
on. -/
theorem attempts_in_offer_order (f : Failover) (capacity : Nat) (es later : List Event) :
    let start := Forwarder.ofParts f (Backlog.ofCapacity capacity)
    let notes := (start.run es).2
    ∃ blocks : List Block,
      notes.filter Note.ofDelivery = blocks.flatMap Block.notes ∧
      (∀ b ∈ blocks, b.Sound) ∧
      (∀ b ∈ blocks.dropLast, b.Settled) ∧
      blocks.map Block.parcel <+: (numbered 0 (offersIn (es ++ later))).filter
        (· ∉ evictedIn (start.run (es ++ later)).2) ∧
      (blocks.map Block.parcel).Pairwise (·.serial < ·.serial) ∧
      (attemptsIn notes).Pairwise Follows := by
  intro start notes
  obtain ⟨closed, current, h⟩ := (Forwarder.chronicle_start f capacity).run es
  rw [List.nil_append] at h
  obtain ⟨blocks, htold, hsound, hsettled, hbegun⟩ := h.begun
  have hsorted : (blocks.map Block.parcel).Pairwise (·.serial < ·.serial) :=
    ((List.pairwise_append.mp h.custody.kept_sorted).1).sublist hbegun.sublist
  refine ⟨blocks, htold, hsound, hsettled, ?_, hsorted, ?_⟩
  · have hkept := h.custody.prefix_keptIn later
    have hoffered := (Forwarder.admittedIn_run start (es ++ later)).2
    have hrun : notes ++ ((start.run es).1.run later).2 = (start.run (es ++ later)).2 := by
      rw [Forwarder.run_append]
    rw [hrun, keptIn, hoffered] at hkept
    exact hbegun.trans hkept
  · rw [← attemptsIn_ofDelivery, htold]
    exact follows_blocks hsound hsorted

end ClusterRelay
