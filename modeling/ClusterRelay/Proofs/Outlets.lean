import ClusterRelay.Outlet
import ClusterRelay.Proofs.Codec
import ClusterRelay.Proofs.Streams

/-!
# What an outlet puts on its socket

Whoever submits frames, the writer that puts them on the socket and the reader that notices when the
peer is gone get on in any order, and each may find that another has already given up. The invariant
that survives all of it is `Outlet.Carries`. It compares an outlet with the stream of the handshake
and of all frames that were taken in: what was written and what is still to be written are the whole
of it, as long as the writer has not failed, and afterwards what was written is still a first part.

So nothing is written out of its turn, and a stream breaks off in one place only. What is submitted
after that is thrown away; the caller is told nothing, and can only see that the outlet is not live.
-/

namespace ClusterRelay

open Wire (joined joined_append)

/-- The frames that are submitted, until nobody is left who could. -/
def submittedIn : List OutletEvent → List ByteArray
  | [] => []
  | .submit frame :: es => frame :: submittedIn es
  | .letGo :: _ => []
  | _ :: es => submittedIn es

namespace Outlet

variable {o : Outlet} {stream : ByteArray} {e : OutletEvent}

/-- The frame that an event brings into the line. -/
def taken? (o : Outlet) : OutletEvent → Option ByteArray
  | .submit frame => if o.held && o.accepting then some frame else none
  | _ => none

/-- The frames that are taken into the line in the course of events. -/
def takenIn (o : Outlet) : List OutletEvent → List ByteArray
  | [] => []
  | e :: es => (o.taken? e).toList ++ (o.step e).takenIn es

/-- What is still to be written. -/
def pending (o : Outlet) : ByteArray :=
  match o.writer with
  | .writing left => left ++ joined o.queue
  | _ => joined o.queue

/-- An outlet puts this stream on its socket, or the beginning of it. -/
structure Carries (o : Outlet) (stream : ByteArray) : Prop where
  begun : ∃ rest, o.written ++ rest = stream
  whole : o.writer ≠ .failed → o.written ++ o.pending = stream
  emptied : o.writer = .finished → o.queue = [] ∧ o.held = false

/-- As long as the writer has not failed, the stream goes on with what is to be written. -/
theorem Carries.of_whole (hwhole : o.written ++ o.pending = stream)
    (hemptied : o.writer = .finished → o.queue = [] ∧ o.held = false) : o.Carries stream :=
  ⟨⟨_, hwhole⟩, fun _ => hwhole, hemptied⟩

theorem Carries.same {o' : Outlet} (h : o.Carries stream) (hwritten : o'.written = o.written)
    (hqueue : o'.queue = o.queue) (hwriter : o'.writer = o.writer)
    (hheld : o'.held = true → o.held = true) : o'.Carries stream := by
  refine ⟨?_, fun hsound => ?_, fun hfinished => ?_⟩
  · rw [hwritten]
    exact h.begun
  · rw [hwriter] at hsound
    rw [hwritten, pending, hwriter, hqueue]
    exact h.whole hsound
  · obtain ⟨hempty, hfree⟩ := h.emptied (hwriter ▸ hfinished)
    refine ⟨hqueue.trans hempty, Bool.eq_false_iff.mpr fun hstill => ?_⟩
    rw [hheld hstill] at hfree
    cases hfree

theorem carries_nextFrame (h : o.written ++ joined o.queue = stream) :
    o.nextFrame.Carries stream := by
  unfold nextFrame
  split
  · next frame queue hqueue =>
      rw [hqueue] at h
      exact .of_whole h nofun
  · next hqueue =>
      split
      · exact .of_whole h nofun
      · next hfree => exact .of_whole h fun _ => ⟨hqueue, Bool.eq_false_iff.mpr hfree⟩

/-- Some of a frame is written, and the rest of it comes next. -/
theorem written_append_pending {left : ByteArray} (hwriter : o.writer = .writing left)
    (h : o.written ++ o.pending = stream) (count : Nat) :
    o.written ++ left.extract 0 count ++ (left.extract count left.size ++ joined o.queue) =
      stream := by
  rw [pending, hwriter] at h
  rw [← ByteArray.append_assoc, ByteArray.append_assoc (a := o.written),
    Wire.extract_append_rest, ByteArray.append_assoc]
  exact h

theorem Carries.write (h : o.Carries stream) (count : Nat) : (o.write count).Carries stream := by
  unfold Outlet.write
  split
  · next left hwriter =>
      have hwhole := written_append_pending hwriter (h.whole (by rw [hwriter]; nofun)) count
      split
      · next hall =>
          have hnone : left.extract count left.size = ByteArray.empty :=
            ByteArray.extract_eq_empty_iff.mpr (by omega)
          rw [hnone, ByteArray.empty_append] at hwhole
          exact carries_nextFrame hwhole
      · exact .of_whole hwhole nofun
  · next hwriter =>
      have hwhole := h.whole (by rw [hwriter]; nofun)
      rw [pending, hwriter] at hwhole
      exact carries_nextFrame hwhole
  · exact h
  · exact h

theorem Carries.failWrite (h : o.Carries stream) (count : Nat) :
    (o.failWrite count).Carries stream := by
  unfold Outlet.failWrite
  split
  · next left hwriter =>
      have hwhole := written_append_pending hwriter (h.whole (by rw [hwriter]; nofun)) count
      exact ⟨⟨_, hwhole⟩, fun hsound => absurd rfl hsound, nofun⟩
  · exact h

/-- A frame that is taken in goes to the end of the stream. -/
theorem Carries.submit (h : o.Carries stream) (haccepting : o.accepting = true)
    (frame : ByteArray) : (o.submit frame).2.Carries (stream ++ frame) := by
  have hsound : o.writer ≠ .failed ∧ o.writer ≠ .finished := by
    constructor <;> rintro hwriter <;> rw [accepting, hwriter] at haccepting <;> cases haccepting
  have hwhole := h.whole hsound.1
  rw [Outlet.submit, if_pos haccepting]
  refine .of_whole ?_ fun hfinished => absurd hfinished hsound.2
  have hlast : joined (o.queue ++ [frame]) = joined o.queue ++ frame := by
    rw [joined_append, joined, joined, ByteArray.append_empty]
  rw [← hwhole, pending, pending]
  simp only [hlast]
  cases o.writer with
  | writing left => simp only [ByteArray.append_assoc]
  | ready | failed | finished => exact ByteArray.append_assoc.symm

/-- What an event does to an outlet and what it adds to the stream go together. -/
theorem Carries.step (h : o.Carries stream) (e : OutletEvent) :
    (o.step e).Carries (stream ++ joined (o.taken? e).toList) := by
  have hquiet (hnone : o.taken? e = none) (hsame : (o.step e).Carries stream) :
      (o.step e).Carries (stream ++ joined (o.taken? e).toList) := by
    rw [hnone, Option.toList_none, joined, ByteArray.append_empty]
    exact hsame
  cases e with
  | submit frame =>
      by_cases htaken : o.held = true ∧ o.accepting = true
      · have hframe : o.taken? (.submit frame) = some frame := by simp [taken?, htaken]
        have hnow : o.step (.submit frame) = (o.submit frame).2 := if_pos htaken.1
        rw [hframe, hnow, Option.toList_some, joined, joined, ByteArray.append_empty]
        exact h.submit htaken.2 frame
      · apply hquiet (by simpa [taken?] using htaken)
        simp only [Outlet.step]
        split
        · next hheld =>
            rw [Outlet.submit, if_neg fun haccepting => htaken ⟨hheld, haccepting⟩]
            exact h.same rfl rfl rfl id
        · exact h
  | write count => exact hquiet rfl (h.write count)
  | failWrite count => exact hquiet rfl (h.failWrite count)
  | loseReader => exact hquiet rfl (h.same rfl rfl rfl id)
  | hear bytes => exact hquiet rfl h
  | letGo => exact hquiet rfl (h.same rfl rfl rfl fun hstill => by cases hstill)

theorem Carries.run (h : o.Carries stream) (es : List OutletEvent) :
    (o.run es).Carries (stream ++ joined (o.takenIn es)) := by
  induction es generalizing o stream with
  | nil => rwa [takenIn, joined, ByteArray.append_empty]
  | cons e es ih =>
      rw [takenIn, joined_append, ← ByteArray.append_assoc]
      exact ih (h.step e)

theorem carries_start {c : Credentials} (h : start c = .ok o) :
    ∃ handshake, (Wire.Packet.auth c).frame = .ok handshake ∧ o.held = true ∧
      o.Carries handshake := by
  obtain ⟨handshake, hframe, hmade⟩ := Wire.ok_of_bind h
  cases hmade
  refine ⟨handshake, hframe, rfl, .of_whole ?_ nofun⟩
  show ByteArray.empty ++ (handshake ++ ByteArray.empty) = handshake
  rw [ByteArray.append_empty, ByteArray.empty_append]

/-! ## The end of the writer -/

/-- A writer that has come to an end, in one way or the other, stays there. -/
theorem still_step (h : o.accepting = false) (e : OutletEvent) :
    (o.step e).writer = o.writer ∧ (o.step e).written = o.written := by
  have hended : o.writer = .failed ∨ o.writer = .finished := by
    unfold accepting at h
    split at h
    · cases h
    · cases h
    · next hfailed => exact .inl hfailed
    · next hfinished => exact .inr hfinished
  cases e with
  | submit frame =>
      simp only [Outlet.step]
      split
      · rw [Outlet.submit, if_neg (by simp [h])]
        exact ⟨rfl, rfl⟩
      · exact ⟨rfl, rfl⟩
  | write count =>
      rcases hended with hwriter | hwriter <;> simp [Outlet.step, Outlet.write, hwriter]
  | failWrite count =>
      rcases hended with hwriter | hwriter <;> simp [Outlet.step, Outlet.failWrite, hwriter]
  | loseReader | hear | letGo => exact ⟨rfl, rfl⟩

theorem accepting_congr {o' : Outlet} (h : o'.writer = o.writer) :
    o'.accepting = o.accepting := by
  rw [accepting, h, accepting]

theorem still_run (h : o.accepting = false) (es : List OutletEvent) :
    (o.run es).writer = o.writer ∧ (o.run es).written = o.written := by
  induction es generalizing o with
  | nil => exact ⟨rfl, rfl⟩
  | cons e es ih =>
      obtain ⟨hwriter, hwritten⟩ := still_step h e
      obtain ⟨hwriter', hwritten'⟩ := ih ((accepting_congr hwriter).trans h)
      exact ⟨hwriter'.trans hwriter, hwritten'.trans hwritten⟩

theorem unsound_step (h : o.sound = false) (e : OutletEvent) : (o.step e).sound = false := by
  cases e with
  | submit frame =>
      simp only [Outlet.step]
      split
      · rw [Outlet.submit]
        split
        · exact h
        · rfl
      · exact h
  | write count =>
      simp only [Outlet.step, Outlet.write, nextFrame]
      repeat' split
      all_goals exact h
  | failWrite count =>
      simp only [Outlet.step, Outlet.failWrite]
      split
      · rfl
      · exact h
  | loseReader => rfl
  | hear | letGo => exact h

/-- An outlet does not come to life again. -/
theorem dead_step (h : o.isLive = false) (e : OutletEvent) : (o.step e).isLive = false := by
  rw [isLive, Bool.and_eq_false_iff] at h ⊢
  rcases h with hunsound | hended
  · exact .inl (unsound_step hunsound e)
  · exact .inr ((accepting_congr (still_step hended e).1).trans hended)

theorem dead_run (h : o.isLive = false) (es : List OutletEvent) : (o.run es).isLive = false := by
  induction es generalizing o with
  | nil => exact h
  | cons e es ih => exact ih (dead_step h e)

/-! ## What is submitted and what is taken -/

theorem held_step (hfree : e ≠ .letGo) : (o.step e).held = o.held := by
  cases e with
  | submit frame =>
      simp only [Outlet.step]
      split
      · rw [Outlet.submit]
        split <;> rfl
      · rfl
  | write count =>
      simp only [Outlet.step, Outlet.write, nextFrame]
      repeat' split
      all_goals rfl
  | failWrite count =>
      simp only [Outlet.step, Outlet.failWrite]
      split <;> rfl
  | loseReader | hear => rfl
  | letGo => exact absurd rfl hfree

/-- Once nobody can submit any more, or the writer has come to an end, it stays that way. -/
theorem closed_step (h : (o.held && o.accepting) = false) (e : OutletEvent) :
    ((o.step e).held && (o.step e).accepting) = false := by
  rw [Bool.and_eq_false_iff] at h ⊢
  rcases h with hfree | hended
  · by_cases hlast : e = .letGo
    · exact .inl (by rw [hlast]; rfl)
    · exact .inl ((held_step hlast).trans hfree)
  · exact .inr ((accepting_congr (still_step hended e).1).trans hended)

theorem takenIn_of_closed (h : (o.held && o.accepting) = false) (es : List OutletEvent) :
    o.takenIn es = [] := by
  induction es generalizing o with
  | nil => rfl
  | cons e es ih =>
      have hnone : o.taken? e = none := by
        cases e with
        | submit frame => rw [taken?, h]; rfl
        | write | failWrite | loseReader | hear | letGo => rfl
      rw [takenIn, hnone, ih (closed_step h e)]
      rfl

/-- Frames that are submitted are taken, up to the first one that is not. -/
theorem takenIn_prefix (hheld : o.held = true) (es : List OutletEvent) :
    o.takenIn es <+: submittedIn es := by
  induction es generalizing o with
  | nil => exact List.prefix_rfl
  | cons e es ih =>
      have hstill (hlast : e ≠ .letGo) : (o.step e).held = true := (held_step hlast).trans hheld
      cases e with
      | submit frame =>
          cases haccepting : o.accepting with
          | true =>
              have htaken : o.takenIn (.submit frame :: es) =
                  frame :: (o.step (.submit frame)).takenIn es := by
                simp [takenIn, taken?, hheld, haccepting]
              rw [htaken]
              exact (List.prefix_cons_inj frame).mpr (ih (hstill nofun))
          | false =>
              rw [takenIn_of_closed (by rw [haccepting, Bool.and_false])]
              exact List.nil_prefix
      | write | failWrite | loseReader | hear => exact ih (hstill nofun)
      | letGo =>
          rw [takenIn, takenIn_of_closed (o := o.step .letGo) rfl]
          exact List.prefix_rfl

/-- All that is submitted is taken, unless the writer fails: a writer that is finished leaves nobody
who could submit. -/
theorem takenIn_eq (h : o.Carries stream) (hheld : o.held = true) {es : List OutletEvent}
    (hsound : (o.run es).writer ≠ .failed) : o.takenIn es = submittedIn es := by
  induction es generalizing o stream with
  | nil => rfl
  | cons e es ih =>
      have hlater (hlast : e ≠ .letGo) : (o.step e).takenIn es = submittedIn es :=
        ih (h.step e) ((held_step hlast).trans hheld) hsound
      cases e with
      | submit frame =>
          have haccepting : o.accepting = true := by
            cases hwriter : o.writer with
            | writing | ready => rw [accepting, hwriter]
            | failed =>
                have hended : o.accepting = false := by rw [accepting, hwriter]
                exact absurd ((still_run hended (.submit frame :: es)).1.trans hwriter) hsound
            | finished => rw [(h.emptied hwriter).2] at hheld; cases hheld
          rw [submittedIn, ← hlater nofun]
          simp [takenIn, taken?, hheld, haccepting]
      | write | failWrite | loseReader | hear => exact hlater nofun
      | letGo =>
          rw [takenIn, takenIn_of_closed (o := o.step .letGo) rfl]
          rfl

end Outlet

/-- All that an outlet puts on its socket, whatever happens to it. At any time that is a first part
of the handshake and the frames that were submitted, in their order, and as long as the writer has
not failed the rest of it is still to be written. Once the writer has failed within a frame nothing
more is written. An outlet that is not live stays so. Who submits a frame is never told of a
failure. And if the writer is finished, all was taken in that was submitted, and all of it is on the
socket. -/
theorem outlet_writes_in_order {c : Credentials} {o : Outlet} (ho : Outlet.start c = .ok o)
    (es : List OutletEvent) :
    ∃ handshake, (Wire.Packet.auth c).frame = .ok handshake ∧
      let last := o.run es
      (∃ rest, last.written ++ rest = handshake ++ joined (submittedIn es)) ∧
      (last.writer ≠ .failed →
        last.written ++ last.pending = handshake ++ joined (submittedIn es)) ∧
      (∀ left count more, last.writer = .writing left →
        let broken := last.step (.failWrite count)
        broken.isLive = false ∧ (broken.run more).written = broken.written) ∧
      (∀ more, last.isLive = false → (last.run more).isLive = false) ∧
      (∀ frame, (last.submit frame).1 = .ok ()) ∧
      (last.writer = .finished → o.takenIn es = submittedIn es ∧
        last.written = handshake ++ joined (o.takenIn es)) := by
  obtain ⟨handshake, hframe, hheld, hcarries⟩ := Outlet.carries_start ho
  refine ⟨handshake, hframe, ?_⟩
  intro last
  have hlast : last.Carries (handshake ++ joined (o.takenIn es)) := hcarries.run es
  have hall (hsound : last.writer ≠ .failed) : o.takenIn es = submittedIn es :=
    Outlet.takenIn_eq hcarries hheld hsound
  refine ⟨?_, fun hsound => hall hsound ▸ hlast.whole hsound, fun left count more hwriter => ?_,
    fun more hdead => Outlet.dead_run hdead more, fun frame => rfl, fun hfinished => ?_⟩
  · obtain ⟨rest, hrest⟩ := hlast.begun
    obtain ⟨lost, hlost⟩ := Outlet.takenIn_prefix hheld es
    refine ⟨rest ++ joined lost, ?_⟩
    rw [← ByteArray.append_assoc, hrest, ByteArray.append_assoc, ← joined_append, hlost]
  · intro broken
    have hfailed : broken.writer = .failed := by
      simp [broken, Outlet.step, Outlet.failWrite, hwriter]
    have hended : broken.accepting = false := by rw [Outlet.accepting, hfailed]
    exact ⟨by rw [Outlet.isLive, hended, Bool.and_false], (Outlet.still_run hended more).2⟩
  · have hsound : last.writer ≠ .failed := by rw [hfinished]; nofun
    have hwhole := hlast.whole hsound
    rw [Outlet.pending, hfinished, (hlast.emptied hfinished).1, joined,
      ByteArray.append_empty] at hwhole
    exact ⟨hall hsound, hwhole⟩

/-- One outlet fails in the middle of the first frame, and the second is thrown away; another has
its frame written after nobody is left to submit one. -/
theorem outlet_writes_in_order_to_the_end :
    let c : Credentials := ⟨"tokyo", "pass"⟩
    let torn : List OutletEvent := [.submit "first".toUTF8, .write 0, .hear "hello".toUTF8,
      .write 100, .write 2, .failWrite 1, .submit "second".toUTF8]
    let finished : List OutletEvent :=
      [.submit "first".toUTF8, .letGo, .write 0, .loseReader, .write 100, .write 100]
    ∃ o handshake, Outlet.start c = .ok o ∧ (Wire.Packet.auth c).frame = .ok handshake ∧
      (o.run torn).written = handshake ++ "fir".toUTF8 ∧ (o.run torn).isLive = false ∧
      (∃ rest, (o.run torn).written ++ rest =
        handshake ++ joined ["first".toUTF8, "second".toUTF8]) ∧
      (∀ more, ((o.run torn).run more).isLive = false) ∧
      (o.run finished).written = handshake ++ joined ["first".toUTF8] := by
  intro c torn finished
  obtain ⟨o, ho⟩ : ∃ o, Outlet.start c = .ok o := ⟨_, rfl⟩
  obtain ⟨handshake, hframe, hbegun, -, -, hdead, -, -⟩ := outlet_writes_in_order ho torn
  obtain ⟨handshake', hframe', -, -, -, -, -, hfinished⟩ :=
    outlet_writes_in_order ho finished
  have hsame : handshake' = handshake := Except.ok.inj (hframe'.symm.trans hframe)
  have hlast : (o.run torn).written = handshake ++ "fir".toUTF8 ∧
      (o.run torn).isLive = false ∧ (o.run finished).writer = .finished := by
    cases ho
    cases hframe
    exact ⟨by decide, by decide, rfl⟩
  obtain ⟨hwritten, hlive, hwriter⟩ := hlast
  refine ⟨o, handshake, ho, hframe, hwritten, hlive, hbegun, fun more => hdead more hlive, ?_⟩
  obtain ⟨htaken, hall⟩ := hfinished hwriter
  rw [hall, htaken, hsame]
  rfl

end ClusterRelay
