import ClusterRelay.Proofs.Outlets

/-!
# Frames that come too late

An outlet that is not live is of no more use to those who submit frames, and they would expect that
what they still submit is thrown away. There are two ways to die, though. When the writer has come to
an end nothing is written any more, and late frames are indeed ignored. When only the reader has
learned that the peer is gone, the writer goes on as if nothing had happened: a late frame takes its
place in the line and is put on the socket. A peer that has closed no more than its own half of the
socket receives it, and `late_frames` says that this is the only case.

What it is to be ignored is told by two runs, one with the frame and one without.
-/

namespace ClusterRelay

open Wire (joined joined_append)

namespace Outlet

variable {o : Outlet} {stream : ByteArray}

/-- A frame that is submitted now makes no difference to what is put on the socket, whatever comes
after it. -/
def Ignores (o : Outlet) (frame : ByteArray) : Prop :=
  ∀ more, (o.run (.submit frame :: more)).written = (o.run more).written

/-- The writer gets to work this often, and nothing else happens. -/
def Writes (es : List OutletEvent) : Prop := ∀ e ∈ es, ∃ count, e = .write count

theorem takenIn_of_writes {es : List OutletEvent} (h : Writes es) : o.takenIn es = [] := by
  induction es generalizing o with
  | nil => rfl
  | cons e es ih =>
      obtain ⟨⟨count, rfl⟩, hes⟩ := List.forall_mem_cons.mp h
      exact ih hes

/-- A writer that is given the time puts all of the line on the socket. -/
theorem drains_writing {left : ByteArray} (hwriter : o.writer = .writing left) :
    ∃ es, Writes es ∧ (o.run es).written = o.written ++ (left ++ joined o.queue) := by
  induction hqueue : o.queue generalizing o left with
  | nil =>
      refine ⟨[.write left.size], ?_, ?_⟩
      · exact List.forall_mem_singleton.mpr ⟨_, rfl⟩
      · show (o.write left.size).written = _
        simp [Outlet.write, hwriter, nextFrame, hqueue, joined]
  | cons frame queue ih =>
      have hnext : (o.write left.size).writer = .writing frame ∧
          (o.write left.size).queue = queue ∧
          (o.write left.size).written = o.written ++ left := by
        simp [Outlet.write, hwriter, nextFrame, hqueue]
      obtain ⟨es, hes, hwritten⟩ := ih hnext.1 hnext.2.1
      refine ⟨.write left.size :: es, ?_, ?_⟩
      · exact List.forall_mem_cons.mpr ⟨⟨_, rfl⟩, hes⟩
      · show ((o.write left.size).run es).written = _
        rw [hwritten, hnext.2.2, joined, ByteArray.append_assoc]

theorem Carries.drains (h : o.Carries stream) (haccepting : o.accepting = true) :
    ∃ es, Writes es ∧ (o.run es).written = stream := by
  cases hwriter : o.writer with
  | writing left =>
      obtain ⟨es, hes, hwritten⟩ := drains_writing hwriter
      have hwhole := h.whole (by rw [hwriter]; rintro ⟨⟩)
      rw [pending, hwriter] at hwhole
      exact ⟨es, hes, hwritten.trans hwhole⟩
  | ready =>
      have hwhole := h.whole (by rw [hwriter]; rintro ⟨⟩)
      rw [pending, hwriter] at hwhole
      cases hqueue : o.queue with
      | nil =>
          rw [hqueue, joined, ByteArray.append_empty] at hwhole
          exact ⟨[], List.forall_mem_nil _, hwhole⟩
      | cons frame queue =>
          have hnext : (o.write 0).writer = .writing frame ∧ (o.write 0).queue = queue ∧
              (o.write 0).written = o.written := by
            simp [Outlet.write, hwriter, nextFrame, hqueue]
          obtain ⟨es, hes, hwritten⟩ := drains_writing hnext.1
          refine ⟨.write 0 :: es, List.forall_mem_cons.mpr ⟨⟨_, rfl⟩, hes⟩, ?_⟩
          show ((o.write 0).run es).written = _
          rw [hwritten, hnext.2.1, hnext.2.2]
          rwa [hqueue, joined] at hwhole
  | failed | finished =>
      rw [accepting, hwriter] at haccepting
      cases haccepting

/-- A frame that still finds a place in the line is put on the socket behind all frames before it,
and that is more than would be there without it. -/
theorem Carries.late (h : o.Carries stream) (hheld : o.held = true)
    (haccepting : o.accepting = true) (frame : ByteArray) :
    ∃ es, Writes es ∧ (o.run (.submit frame :: es)).written = stream ++ frame ∧
      (o.run es).written.size ≤ stream.size := by
  have hnow : o.step (.submit frame) = (o.submit frame).2 := if_pos hheld
  have hstill : (o.submit frame).2.accepting = true := by
    rw [Outlet.submit, if_pos haccepting]
    exact haccepting
  obtain ⟨es, hes, hwritten⟩ := (h.submit haccepting frame).drains hstill
  refine ⟨es, hes, ?_, ?_⟩
  · show ((o.step (.submit frame)).run es).written = _
    rw [hnow, hwritten]
  · obtain ⟨rest, hrest⟩ := (h.run es).begun
    rw [takenIn_of_writes hes, joined, ByteArray.append_empty] at hrest
    rw [← hrest, ByteArray.size_append]
    omega

theorem ignores_iff (h : o.Carries stream) {frame : ByteArray} (hframe : frame ≠ ByteArray.empty) :
    o.Ignores frame ↔ (o.held && o.accepting) = false := by
  constructor
  · intro hignores
    rw [← Bool.not_eq_true, Bool.and_eq_true]
    rintro ⟨hheld, haccepting⟩
    obtain ⟨es, -, hwith, hwithout⟩ := h.late hheld haccepting frame
    rw [← hignores es, hwith, ByteArray.size_append] at hwithout
    have hnone : frame.size = 0 := by omega
    exact hframe (ByteArray.size_eq_zero_iff.mp hnone)
  · intro hclosed more
    rcases Bool.and_eq_false_iff.mp hclosed with hfree | hended
    · have hnow : o.step (.submit frame) = o := by simp [Outlet.step, hfree]
      show ((o.step (.submit frame)).run more).written = _
      rw [hnow]
    · rw [(still_run hended (.submit frame :: more)).2, (still_run hended more).2]

/-- Only a failing write fails the writer. -/
theorem unfailed_step (h : o.writer ≠ .failed) {e : OutletEvent}
    (he : ∀ count, e ≠ .failWrite count) : (o.step e).writer ≠ .failed := by
  cases e with
  | submit frame =>
      simp only [Outlet.step, Outlet.submit]
      repeat' split
      all_goals exact h
  | write count =>
      simp only [Outlet.step, Outlet.write, nextFrame]
      repeat' split
      all_goals first | exact h | rintro ⟨⟩
  | failWrite count => exact absurd rfl (he count)
  | loseReader | hear | letGo => exact h

/-- What the reader learns does not close an outlet: if nobody lets go of it and no write fails, it
stays open. -/
theorem Carries.open_run (h : o.Carries stream) (hheld : o.held = true)
    (hwriter : o.writer ≠ .failed) {es : List OutletEvent}
    (hes : ∀ e ∈ es, e ≠ .letGo ∧ ∀ count, e ≠ .failWrite count) :
    ((o.run es).held && (o.run es).accepting) = true := by
  induction es generalizing o stream with
  | nil =>
      have haccepting : o.accepting = true := by
        cases hnow : o.writer with
        | writing | ready => rw [accepting, hnow]
        | failed => exact absurd hnow hwriter
        | finished => rw [(h.emptied hnow).2] at hheld; cases hheld
      show (o.held && o.accepting) = true
      rw [hheld, haccepting]
      rfl
  | cons e es ih =>
      obtain ⟨⟨hlast, hwrites⟩, hes⟩ := List.forall_mem_cons.mp hes
      exact ih (h.step e) ((held_step hlast).trans hheld) (unfailed_step hwriter hwrites) hes

end Outlet

/-- What becomes of a frame that is submitted to an outlet that has died. It makes no difference
exactly if the writer has come to an end, or nobody can submit it. Otherwise the writer can still put
it on the socket, behind the handshake and all frames before it; and so it is whenever no write has
failed and nobody has let go, which is to say that only the reader has learned of the death. -/
theorem late_frames {c : Credentials} {o : Outlet} (ho : Outlet.start c = .ok o)
    (es : List OutletEvent) (hdead : (o.run es).isLive = false) {frame : ByteArray}
    (hframe : frame ≠ ByteArray.empty) :
    let last := o.run es
    (last.Ignores frame ↔ (last.held && last.accepting) = false) ∧
    ((last.held && last.accepting) = true →
      ∃ handshake writes, (Wire.Packet.auth c).frame = .ok handshake ∧ Outlet.Writes writes ∧
        (last.run (.submit frame :: writes)).written =
          handshake ++ joined (submittedIn es) ++ frame ∧
        (last.run (.submit frame :: writes)).isLive = false) ∧
    ((∀ e ∈ es, e ≠ .letGo ∧ ∀ count, e ≠ .failWrite count) → ¬ last.Ignores frame) := by
  obtain ⟨handshake, hencoded, hheld, hcarries⟩ := Outlet.carries_start ho
  intro last
  have hlast : last.Carries (handshake ++ joined (o.takenIn es)) := hcarries.run es
  have hignores : last.Ignores frame ↔ (last.held && last.accepting) = false :=
    Outlet.ignores_iff hlast hframe
  refine ⟨hignores, fun hopen => ?_, fun hes => ?_⟩
  · obtain ⟨hholds, haccepting⟩ := Bool.and_eq_true_iff.mp hopen
    have hsound : last.writer ≠ .failed := by
      intro hfailed
      rw [Outlet.accepting, hfailed] at haccepting
      cases haccepting
    obtain ⟨writes, hwrites, hwritten, -⟩ := hlast.late hholds haccepting frame
    rw [Outlet.takenIn_eq hcarries hheld hsound] at hwritten
    exact ⟨handshake, writes, hencoded, hwrites, hwritten, Outlet.dead_run hdead _⟩
  · have hready : o.writer ≠ .failed := by
      obtain ⟨_, -, hmade⟩ := Wire.ok_of_bind ho
      cases hmade
      rintro ⟨⟩
    rw [hignores, hcarries.open_run hheld hready hes]
    rintro ⟨⟩

/-- Of two outlets that have died, the one whose write failed ignores a late frame, and the one whose
reader has learned of it does not. -/
theorem late_frames_two_deaths :
    let c : Credentials := ⟨"tokyo", "tokyo-pass"⟩
    let failed : List OutletEvent := [.write 0, .write 2, .failWrite 1]
    let closed : List OutletEvent := [.submit "early".toUTF8, .write 0, .loseReader]
    ∃ o handshake writes, Outlet.start c = .ok o ∧
      (Wire.Packet.auth c).frame = .ok handshake ∧
      (o.run failed).isLive = false ∧ (o.run failed).Ignores "late".toUTF8 ∧
      (o.run closed).isLive = false ∧ ¬ (o.run closed).Ignores "late".toUTF8 ∧
      ((o.run closed).run (.submit "late".toUTF8 :: writes)).written =
        handshake ++ joined ["early".toUTF8] ++ "late".toUTF8 := by
  intro c failed closed
  obtain ⟨o, ho⟩ : ∃ o, Outlet.start c = .ok o := ⟨_, rfl⟩
  have hframe : "late".toUTF8 ≠ ByteArray.empty := by decide
  have hdead : (o.run failed).isLive = false ∧ (o.run closed).isLive = false ∧
      ((o.run failed).held && (o.run failed).accepting) = false ∧
      ((o.run closed).held && (o.run closed).accepting) = true := by
    cases ho
    exact ⟨rfl, rfl, rfl, rfl⟩
  obtain ⟨hfailed, hclosed, hended, hopen⟩ := hdead
  obtain ⟨handshake, writes, hencoded, -, hwritten, -⟩ :=
    (late_frames ho closed hclosed hframe).2.1 hopen
  refine ⟨o, handshake, writes, ho, hencoded, hfailed, ?_, hclosed, ?_, hwritten⟩
  · exact (late_frames ho failed hfailed hframe).1.mpr hended
  · apply (late_frames ho closed hclosed hframe).2.2
    simp [closed]

/-- It is not so that an outlet that is not live ignores every frame. -/
theorem late_frame_written :
    ¬ ∀ (c : Credentials) (o : Outlet), Outlet.start c = .ok o →
      ∀ es frame, (o.run es).isLive = false → (o.run es).Ignores frame := by
  intro h
  obtain ⟨o, ho⟩ : ∃ o, Outlet.start ⟨"tokyo", "tokyo-pass"⟩ = .ok o := ⟨_, rfl⟩
  let closed : List OutletEvent := [.write 0, .write 100, .loseReader]
  have hsame : (o.run closed).Ignores "late".toUTF8 := h _ o ho closed _ (by cases ho; rfl)
  have hsizes : ((o.run closed).run [.submit "late".toUTF8, .write 0, .write 100]).written.size ≠
      ((o.run closed).run [.write 0, .write 100]).written.size := by
    cases ho
    decide
  exact hsizes (congrArg ByteArray.size (hsame [.write 0, .write 100]))

end ClusterRelay
