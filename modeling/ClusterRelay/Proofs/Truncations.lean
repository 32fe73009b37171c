import ClusterRelay.Proofs.Peers
import ClusterRelay.Proofs.Readings

/-!
# How a reader learns that a stream is over

A reader who asks frame by frame is told of the end of a stream by getting nothing. That should mean
that the stream ended where a frame ended, and it nearly does: `answers_ended_iff` says what exactly
it means. The stream consisted of the frames of the bodies that were read, and then of fewer bytes
than a length has. If there were any of these, the stream broke off inside a length, and the reader
is not told; they are lost without a trace.

A stream that breaks off anywhere else in a frame always ends in a fault. The length of that frame is
complete then, so either it announces too much, or some of what it announces is missing:
`answer_of_incomplete`.
-/

namespace ClusterRelay.Wire

namespace Source

variable {bytes : ByteArray}

/-- The end of a stream is reported when too few bytes are left to be a length. -/
theorem answer_none_iff : (answer bytes .finished).1 = .ok none ↔ bytes.size < 4 := by
  constructor
  · intro h
    unfold answer at h
    split at h
    · next hcut =>
        rcases of_cut_short hcut with hfew | ⟨hlength, -, -⟩
        · exact hfew
        · simp only [lastReading, Remainder.verdict, if_neg (Nat.not_lt.mpr hlength)] at h
          cases h
    · cases h
    · cases h
  · intro hfew
    have hcut : cut bytes = .short := by rw [cut, if_pos hfew]
    simp only [answer, hcut, lastReading, Remainder.verdict, if_pos hfew]

/-- A body is read when its frame is what comes next. -/
theorem answer_some_iff {b rest : ByteArray} {ending : StreamEnd} :
    answer bytes ending = (.ok (some b), rest) ↔ b.size ≤ maxBody ∧ bytes = framed b ++ rest := by
  constructor
  · intro h
    unfold answer at h
    split at h
    · simp only [lastReading] at h
      split at h <;> cases h
    · cases h
    · next hcut =>
        cases h
        exact eq_framed_of_cut hcut
  · rintro ⟨hsmall, rfl⟩
    rw [answer, cut_framed hsmall]

/-- The length is there and its frame is not: the end of the stream is a fault. -/
theorem answer_of_incomplete (hlength : 4 ≤ bytes.size)
    (hfew : bytes.size < 4 + number (bytes.extract 0 4)) :
    (answer bytes .finished).1 =
      .error (if maxBody < number (bytes.extract 0 4)
        then .oversize (number (bytes.extract 0 4)) maxBody else .io "early eof") := by
  by_cases hgreat : maxBody < number (bytes.extract 0 4)
  · have hcut : cut bytes = .oversize (number (bytes.extract 0 4)) := by
      rw [cut, if_neg (by omega)]
      simp only [if_pos hgreat]
    rw [answer, hcut, if_pos hgreat]
  · have hcut : cut bytes = .short := by
      rw [cut, if_neg (by omega)]
      simp only [if_neg hgreat, if_pos hfew]
    simp only [answer, hcut, lastReading, Remainder.verdict, if_neg hgreat,
      if_neg (Nat.not_lt.mpr hlength)]

/-- Frames are read one after another, whatever comes after them. -/
theorem answers_framed {bs : List ByteArray} (h : ∀ b ∈ bs, b.size ≤ maxBody) (rest : ByteArray)
    (ending : StreamEnd) (n : Nat) :
    answers (joined (bs.map framed) ++ rest) ending (bs.length + n) =
      bs.map (fun b => .ok (some b)) ++ answers rest ending n := by
  induction bs with
  | nil => rw [List.map_nil, joined, ByteArray.empty_append, List.length_nil, Nat.zero_add]; rfl
  | cons b bs ih =>
      obtain ⟨hb, hbs⟩ := List.forall_mem_cons.mp h
      have hanswer : answer (framed b ++ (joined (bs.map framed) ++ rest)) ending =
          (.ok (some b), joined (bs.map framed) ++ rest) := answer_some_iff.mpr ⟨hb, rfl⟩
      rw [List.map_cons, joined, ByteArray.append_assoc, List.length_cons, Nat.add_right_comm,
        answers, hanswer, ih hbs]
      rfl

/-- Some bodies are read and then the end of the stream is reported. -/
theorem answers_ended_iff {bs : List ByteArray} :
    answers bytes .finished (bs.length + 1) = bs.map (fun b => .ok (some b)) ++ [.ok none] ↔
      (∀ b ∈ bs, b.size ≤ maxBody) ∧
        ∃ few : ByteArray, few.size < 4 ∧ bytes = joined (bs.map framed) ++ few := by
  constructor
  · intro h
    induction bs generalizing bytes with
    | nil =>
        obtain ⟨hnone, -⟩ := List.cons.inj h
        exact ⟨List.forall_mem_nil _, bytes, answer_none_iff.mp hnone, ByteArray.empty_append.symm⟩
    | cons b bs ih =>
        obtain ⟨hsome, hlater⟩ := List.cons.inj h
        obtain ⟨hb, hbytes⟩ := answer_some_iff.mp (Prod.ext hsome rfl)
        obtain ⟨hbs, few, hfew, hrest⟩ := ih hlater
        refine ⟨List.forall_mem_cons.mpr ⟨hb, hbs⟩, few, hfew, ?_⟩
        rw [List.map_cons, joined, ByteArray.append_assoc, ← hrest]
        exact hbytes
  · rintro ⟨hbs, few, hfew, rfl⟩
    rw [answers_framed hbs, answers, answer_none_iff.mpr hfew]
    rfl

end Source

/-- Of a stream that ends without a failure, in whatever chunks it comes: some bodies are read and
then its end is reported exactly if it consists of their frames and of fewer bytes than a length has.
If it breaks off in a frame whose length is complete, a fault is reported after the bodies before. -/
theorem endings_told (chunks bs : List ByteArray) :
    let s : Source := ⟨chunks, .finished⟩
    (s.readings (bs.length + 1) = bs.map (fun b => .ok (some b)) ++ [.ok none] ↔
      (∀ b ∈ bs, b.size ≤ maxBody) ∧
        ∃ few : ByteArray, few.size < 4 ∧ joined chunks = joined (bs.map framed) ++ few) ∧
    ∀ rest : ByteArray, (∀ b ∈ bs, b.size ≤ maxBody) →
      joined chunks = joined (bs.map framed) ++ rest →
      4 ≤ rest.size → rest.size < 4 + number (rest.extract 0 4) →
      s.readings (bs.length + 1) = bs.map (fun b => .ok (some b)) ++
        [.error (if maxBody < number (rest.extract 0 4)
          then .oversize (number (rest.extract 0 4)) maxBody else .io "early eof")] := by
  intro s
  have hbytes : s.bytes = joined chunks := rfl
  rw [Source.readings_eq, hbytes]
  refine ⟨Source.answers_ended_iff, fun rest hbs hstream hlength hfew => ?_⟩
  rw [hstream, Source.answers_framed hbs]
  show _ ++ [(Source.answer rest .finished).1] = _
  rw [Source.answer_of_incomplete hlength hfew]

/-- Ten bytes are announced and two of them come. -/
theorem endings_told_early :
    let begun : ByteArray := ⟨#[0, 0, 0, 10, 1, 1]⟩
    joined [⟨#[0, 0, 0, 10, 1]⟩, ⟨#[1]⟩] = joined [] ++ begun ∧ 4 ≤ begun.size ∧
      begun.size < 4 + number (begun.extract 0 4) ∧
      (Source.mk [⟨#[0, 0, 0, 10, 1]⟩, ⟨#[1]⟩] .finished).readings 1 =
        [.error (.io "early eof")] := by
  intro begun
  have hstream : joined [⟨#[0, 0, 0, 10, 1]⟩, ⟨#[1]⟩] = joined [] ++ begun := by decide
  have hfew : begun.size < 4 + number (begun.extract 0 4) := by decide
  refine ⟨hstream, by decide, hfew, ?_⟩
  exact (endings_told [⟨#[0, 0, 0, 10, 1]⟩, ⟨#[1]⟩] []).2 begun nofun hstream (by decide) hfew

/-- A stream that breaks off in the length of its second frame is taken for one that ends where its
first frame ends. -/
theorem cut_length_unnoticed :
    ∃ body, (Packet.merge ⟨"orders", "key".toUTF8, "val".toUTF8⟩).body = .ok body ∧
      let chunks : List ByteArray := [framed body, ⟨#[0, 0]⟩]
      (Source.mk chunks .finished).readings 2 = [.ok (some body), .ok none] ∧
        joined chunks ≠ joined ([body].map framed) := by
  obtain ⟨body, hbody⟩ :
      ∃ body, (Packet.merge ⟨"orders", "key".toUTF8, "val".toUTF8⟩).body = .ok body := ⟨_, rfl⟩
  have hsmall : body.size ≤ maxBody := by
    cases hbody
    decide
  refine ⟨body, hbody, ?_, fun hsame => ?_⟩
  · have hstream : joined [framed body, ⟨#[0, 0]⟩] = joined ([body].map framed) ++ ⟨#[0, 0]⟩ := by
      simp [joined]
    rw [Source.readings_eq]
    exact Source.answers_ended_iff.mpr
      ⟨List.forall_mem_singleton.mpr hsmall, ⟨#[0, 0]⟩, by decide, hstream⟩
  · have htwo : (ByteArray.mk #[0, 0]).size = 2 := rfl
    have hsizes := congrArg ByteArray.size hsame
    simp only [joined, List.map_cons, List.map_nil, ByteArray.size_append, ByteArray.size_empty,
      htwo] at hsizes
    omega

end ClusterRelay.Wire
