import ClusterRelay.Wire.Source
import ClusterRelay.Proofs.Codec
import ClusterRelay.Proofs.Streams

/-!
# What a reader gets who asks frame by frame

A source takes its bytes from the chunks at hand, and a chunk may end anywhere, also in the middle
of a length. All the same a request comes out as the bytes alone decide: `read_of_le` and
`read_of_lt` say what becomes of them when some are taken off, and by `next_eq` a request does to
the bytes what `cut` says of them. So equal bytes are read alike, however often a reader asks, also
after a fault; and a reader who asks up to the end gets what a framer finds, one body after another.
-/

namespace ClusterRelay.Wire

theorem extract_append_beyond {a : ByteArray} (b : ByteArray) {n : Nat} (h : a.size ≤ n) :
    (a ++ b).extract 0 n = a ++ b.extract 0 (n - a.size) ∧
      (a ++ b).extract n (a ++ b).size = b.extract (n - a.size) b.size := by
  have hnone : a.extract n (a.size + b.size) = ByteArray.empty := by
    rw [ByteArray.extract_eq_empty_iff]
    omega
  refine ⟨?_, ?_⟩
  · rw [ByteArray.extract_append, extract_whole h, Nat.zero_sub]
  · rw [ByteArray.size_append, ByteArray.extract_append, hnone, ByteArray.empty_append,
      Nat.add_sub_cancel_left]

theorem takeOff_of_le {n : Nat} {chunks : List ByteArray} (h : n ≤ (joined chunks).size) :
    ∃ left, takeOff n chunks = (some ((joined chunks).extract 0 n), left) ∧
      joined left = (joined chunks).extract n (joined chunks).size := by
  induction chunks generalizing n with
  | nil =>
      obtain rfl : n = 0 := Nat.le_zero.mp h
      exact ⟨[], rfl, rfl⟩
  | cons chunk chunks ih =>
      rw [takeOff, joined]
      split
      · next hfits =>
          refine ⟨_, by rw [extract_append_within _ hfits], ?_⟩
          rw [joined, extract_append_from _ hfits]
      · next hmore =>
          rw [joined, ByteArray.size_append] at h
          obtain ⟨left, htaken, hleft⟩ := @ih (n - chunk.size) (by omega)
          obtain ⟨hfirst, hrest⟩ :=
            extract_append_beyond (joined chunks) (Nat.le_of_lt (Nat.lt_of_not_le hmore))
          exact ⟨left, by rw [htaken, hfirst]; rfl, hleft.trans hrest.symm⟩

theorem takeOff_of_lt {n : Nat} {chunks : List ByteArray} (h : (joined chunks).size < n) :
    takeOff n chunks = (none, []) := by
  induction chunks generalizing n with
  | nil => rw [takeOff, if_neg (Nat.ne_of_gt (Nat.lt_of_le_of_lt (Nat.zero_le _) h))]
  | cons chunk chunks ih =>
      rw [joined, ByteArray.size_append] at h
      rw [takeOff, if_neg (by omega), @ih (n - chunk.size) (by omega)]
      rfl

namespace Source

/-- The bytes that are still to come. -/
def bytes (s : Source) : ByteArray := joined s.chunks

variable {s : Source}

theorem read_of_le {n : Nat} (h : n ≤ s.bytes.size) :
    ∃ s', s.read n = (some (s.bytes.extract 0 n), s') ∧
      s'.bytes = s.bytes.extract n s.bytes.size ∧ s'.ending = s.ending := by
  obtain ⟨left, htaken, hleft⟩ := takeOff_of_le h
  exact ⟨{ s with chunks := left }, by rw [read, htaken]; rfl, hleft, rfl⟩

theorem read_of_lt {n : Nat} (h : s.bytes.size < n) : s.read n = (none, { s with chunks := [] }) := by
  rw [read, takeOff_of_lt h]

/-- What a reader gets who comes to the end of a stream, given what was left of it. -/
def lastReading (left : Remainder) (ending : StreamEnd) : Reading :=
  match left.verdict ending with
  | none => .ok none
  | some fault => .error fault

/-- What comes of asking for a frame when these bytes are still to come, and the bytes that are
still to come afterwards. -/
def answer (bytes : ByteArray) (ending : StreamEnd) : Reading × ByteArray :=
  match cut bytes with
  | .short => (lastReading (.unfinished bytes) ending, ByteArray.empty)
  | .oversize size => (.error (.oversize size maxBody), bytes.extract 4 bytes.size)
  | .frame body rest => (.ok (some body), rest)

def answers (bytes : ByteArray) (ending : StreamEnd) : Nat → List Reading
  | 0 => []
  | n + 1 => (answer bytes ending).1 :: answers (answer bytes ending).2 ending n

theorem next_eq (s : Source) : ∃ s', s.next = ((answer s.bytes s.ending).1, s') ∧
    s'.bytes = (answer s.bytes s.ending).2 ∧ s'.ending = s.ending := by
  unfold next answer cut
  -- Two reads, of the length and of the body, and either may find too few bytes.
  by_cases hfew : s.bytes.size < 4
  · rw [read_of_lt hfew, if_pos hfew]
    refine ⟨{ s with chunks := [] }, ?_, rfl, rfl⟩
    simp only [lastReading, Remainder.verdict]
    cases s.ending <;> simp [hfew]
  · obtain ⟨s', hread, hleft, hending⟩ := read_of_le (Nat.le_of_not_lt hfew)
    rw [hread, if_neg hfew]
    simp only
    by_cases hgreat : maxBody < number (s.bytes.extract 0 4)
    · rw [if_pos hgreat, if_pos hgreat]
      exact ⟨s', rfl, hleft, hending⟩
    · rw [if_neg hgreat, if_neg hgreat]
      have hsize : s'.bytes.size = s.bytes.size - 4 := by
        rw [hleft, ByteArray.size_extract]
        omega
      by_cases hshort : s.bytes.size < 4 + number (s.bytes.extract 0 4)
      · rw [if_pos hshort, read_of_lt (by omega)]
        refine ⟨{ s' with chunks := [] }, ?_, rfl, hending⟩
        simp only [lastReading, Remainder.verdict, hending]
        cases s.ending <;> simp [hfew]
      · obtain ⟨s'', hread', hleft', hending'⟩ :=
          read_of_le (s := s') (n := number (s.bytes.extract 0 4)) (by omega)
        rw [if_neg hshort, hread']
        refine ⟨s'', ?_, ?_, hending'.trans hending⟩
        · rw [hleft, ByteArray.extract_extract, Nat.min_eq_left (by omega)]
        · rw [hleft', hsize, hleft, ByteArray.extract_extract, Nat.min_eq_right (by omega)]

theorem readings_eq (s : Source) (n : Nat) : s.readings n = answers s.bytes s.ending n := by
  induction n generalizing s with
  | zero => rfl
  | succ n ih =>
      obtain ⟨s', hnext, hbytes, hending⟩ := next_eq s
      rw [readings, hnext, answers]
      simp only
      rw [ih, hbytes, hending]

/-! ## What the answers are -/

variable {bytes : ByteArray} {ending : StreamEnd}

theorem size_of_answer {body : ByteArray} (h : (answer bytes ending).1 = .ok (some body)) :
    body.size ≤ maxBody := by
  unfold answer at h
  split at h
  · unfold lastReading at h
    split at h <;> cases h
  · cases h
  · next hcut =>
      obtain ⟨hsmall, hfull, hbody, -⟩ := of_cut_frame hcut
      cases h
      rw [hbody, ByteArray.size_extract]
      omega

theorem size_of_mem_answers {body : ByteArray} {n : Nat}
    (h : .ok (some body) ∈ answers bytes ending n) : body.size ≤ maxBody := by
  induction n generalizing bytes with
  | zero => cases h
  | succ n ih =>
      rcases List.mem_cons.mp h with hnow | hlater
      · exact size_of_answer hnow.symm
      · exact ih hlater

/-- The bodies that a string of bytes holds come first, and then what is answered when only the
remainder is left. -/
theorem answers_bodies (bytes : ByteArray) (ending : StreamEnd) :
    ∃ rest, bodies rest = ([], (bodies bytes).2) ∧
      ∀ n, answers bytes ending ((bodies bytes).1.length + n) =
        (bodies bytes).1.map (fun b => .ok (some b)) ++ answers rest ending n := by
  cases h : cut bytes with
  | short =>
      rw [bodies_short h]
      exact ⟨bytes, bodies_short h, fun n => by rw [List.length_nil, Nat.zero_add]; rfl⟩
  | oversize size =>
      rw [bodies_oversize h]
      exact ⟨bytes, bodies_oversize h, fun n => by rw [List.length_nil, Nat.zero_add]; rfl⟩
  | frame body rest =>
      have hless := size_lt_of_cut h
      obtain ⟨last, hlast, hanswers⟩ := answers_bodies rest ending
      rw [bodies_frame h]
      refine ⟨last, hlast, fun n => ?_⟩
      have hanswer : answer bytes ending = (.ok (some body), rest) := by rw [answer, h]
      rw [List.length_cons, Nat.add_right_comm, answers, hanswer, hanswers n]
      rfl
termination_by bytes.size

theorem answer_last {left : Remainder} (h : bodies bytes = ([], left)) :
    (answer bytes ending).1 = lastReading left ending := by
  cases hcut : cut bytes with
  | short =>
      rw [bodies_short hcut] at h
      cases h
      rw [answer, hcut]
  | oversize size =>
      rw [bodies_oversize hcut] at h
      cases h
      rw [answer, hcut]
      rfl
  | frame body rest =>
      rw [bodies_frame hcut] at h
      cases h

theorem eq_of_bodies {left : ByteArray} (h : bodies bytes = ([], .unfinished left)) :
    bytes = left := by
  cases hcut : cut bytes with
  | short =>
      rw [bodies_short hcut] at h
      cases h
      rfl
  | oversize size =>
      rw [bodies_oversize hcut] at h
      cases h
  | frame body rest =>
      rw [bodies_frame hcut] at h
      cases h

/-- Once a stream is over it stays over. -/
theorem answers_empty (n : Nat) :
    answers ByteArray.empty .finished n = List.replicate n (.ok none) := by
  induction n with
  | zero => rfl
  | succ n ih =>
      have hanswer : answer ByteArray.empty .finished = (.ok none, ByteArray.empty) := rfl
      rw [answers, hanswer, ih]
      rfl

end Source

theorem bodies_joined {bs : List ByteArray} (h : ∀ b ∈ bs, b.size ≤ maxBody) :
    bodies (joined (bs.map framed)) = (bs, .unfinished ByteArray.empty) := by
  induction bs with
  | nil => exact bodies_empty
  | cons b bs ih =>
      obtain ⟨hb, hbs⟩ := List.forall_mem_cons.mp h
      rw [List.map_cons, joined, bodies_frame (cut_framed hb _), ih hbs]

/-- However the frames of some packets arrive in chunks, a reader who asks for one after another gets
their bodies, which hold the packets, and from then on nothing more. Whatever a stream holds, what a
reader gets is decided by its bytes and its end, however often it asks; no body is ever longer than a
body may be; and up to the end it is what a framer finds that is fed the chunks. -/
theorem readings_exact {ps : List Packet} {frames : List ByteArray}
    (hframes : List.Forall₂ (fun p frame => p.frame = .ok frame) ps frames)
    {chunks : List ByteArray} (hchunks : joined chunks = joined frames) :
    (∃ bs : List ByteArray, frames = bs.map (fun b => word32 b.size ++ b) ∧
      List.Forall₂ (fun p b => Packet.ofBody b = .ok p) ps bs ∧
      ∀ n, (Source.mk chunks .finished).readings (bs.length + n) =
        bs.map (fun b => .ok (some b)) ++ List.replicate n (.ok none)) ∧
    (∀ s s' : Source, joined s.chunks = joined s'.chunks → s.ending = s'.ending →
      ∀ n, s.readings n = s'.readings n) ∧
    (∀ (s : Source) n body, .ok (some body) ∈ s.readings n → body.size ≤ maxBody) ∧
    ∀ chunks ending,
      let found := Framer.feedAll {} chunks
      (Source.mk chunks ending).readings (found.1.length + 1) =
        found.1.map (fun b => .ok (some b)) ++
          [match found.2.left.verdict ending with
            | none => .ok none
            | some fault => .error fault] := by
  refine ⟨?_, fun s s' hbytes hending n => ?_, fun s n body hmem => ?_, fun chunks ending => ?_⟩
  · obtain ⟨bs, hbodies, hsizes, rfl⟩ := bodies_of_frames hframes
    refine ⟨bs, rfl, hbodies.imp fun _ _ hbody => ofBody_body hbody, fun n => ?_⟩
    obtain ⟨rest, hrest, hanswers⟩ := Source.answers_bodies (joined chunks) .finished
    rw [hchunks, bodies_joined hsizes] at hrest hanswers
    rw [Source.readings_eq]
    show Source.answers (joined chunks) .finished (bs.length + n) = _
    rw [hchunks, hanswers, Source.eq_of_bodies hrest, Source.answers_empty]
  · have hsame : s.bytes = s'.bytes := hbytes
    rw [Source.readings_eq, Source.readings_eq, hsame, hending]
  · rw [Source.readings_eq] at hmem
    exact Source.size_of_mem_answers hmem
  · intro found
    have hfound : found = ((bodies (joined chunks)).1, ⟨(bodies (joined chunks)).2⟩) :=
      feedAll_fresh chunks
    obtain ⟨rest, hrest, hanswers⟩ := Source.answers_bodies (joined chunks) ending
    rw [Source.readings_eq, hfound]
    show Source.answers (joined chunks) ending ((bodies (joined chunks)).1.length + 1) = _
    rw [hanswers, Source.answers, Source.answer_last hrest]
    rfl

/-- Two packets, in chunks that end in the length and in the body of the first frame. -/
theorem readings_exact_chunks :
    let p : Packet := .auth ⟨"tokyo", "pass"⟩
    let q : Packet := .merge ⟨"orders", "k".toUTF8, "v".toUTF8⟩
    ∃ frame₁ frame₂, p.frame = .ok frame₁ ∧ q.frame = .ok frame₂ ∧
      let stream := joined [frame₁, frame₂]
      let chunks := [stream.extract 0 3, stream.extract 3 20, stream.extract 20 stream.size]
      joined chunks = stream ∧
      ∃ b₁ b₂, Packet.ofBody b₁ = .ok p ∧ Packet.ofBody b₂ = .ok q ∧
        (Source.mk chunks .finished).readings 4 =
          [.ok (some b₁), .ok (some b₂), .ok none, .ok none] := by
  intro p q
  obtain ⟨frame₁, hframe₁⟩ : ∃ frame, p.frame = .ok frame := ⟨_, rfl⟩
  obtain ⟨frame₂, hframe₂⟩ : ∃ frame, q.frame = .ok frame := ⟨_, rfl⟩
  refine ⟨frame₁, frame₂, hframe₁, hframe₂, ?_⟩
  intro stream chunks
  have hchunks : joined chunks = stream := by
    cases hframe₁
    cases hframe₂
    decide +kernel
  obtain ⟨⟨bs, -, hread, hreadings⟩, -⟩ :=
    readings_exact (.cons hframe₁ (.cons hframe₂ .nil)) hchunks
  cases hread with
  | cons hp hread =>
      cases hread with
      | cons hq hread =>
          cases hread
          exact ⟨hchunks, _, _, hp, hq, hreadings 2⟩

end ClusterRelay.Wire
