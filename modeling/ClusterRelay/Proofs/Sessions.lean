import ClusterRelay.Ingest
import ClusterRelay.Proofs.Codec
import ClusterRelay.Proofs.Streams

/-!
# What a session makes of a stream that is cut off

A session only ever looks at the bodies of complete frames, one after another. How they were found
is the framer's business, and so is where the stream was cut off (`feedAll_eq`). What is left is a
run over bodies: the handshake opens the session and every merge after it is applied in the name of
the group that the handshake presented. A stream that is cut off ends the run early, and nothing
else: `applied_of_cut`.
-/

namespace ClusterRelay.Ingest.Session

open Wire

theorem receive_framer (s : Session) (f : Framer) (body : ByteArray) :
    receive { s with framer := f } body = { receive s body with framer := f } := by
  obtain ⟨expected, framer, stage, applied, count, lines⟩ := s
  unfold receive
  cases stage with
  | refused fault => rfl
  | greeting =>
      cases Packet.ofBody body with
      | error defect => rfl
      | ok packet =>
          cases packet with
          | merge m => rfl
          | auth c =>
              simp only [greet]
              split <;> rfl
  | serving group =>
      cases Packet.ofBody body with
      | error defect => rfl
      | ok packet => cases packet <;> rfl

theorem foldl_receive_framer (s : Session) (f : Framer) (found : List ByteArray) :
    found.foldl receive { s with framer := f } =
      { found.foldl receive s with framer := f } := by
  induction found generalizing s with
  | nil => rfl
  | cons body found ih => rw [List.foldl_cons, List.foldl_cons, receive_framer, ih]

/-- A session receives the bodies that its framer finds. -/
theorem feedAll_eq (s : Session) (chunks : List ByteArray) :
    s.feedAll chunks = { (s.framer.feedAll chunks).1.foldl receive s with
      framer := (s.framer.feedAll chunks).2 } := by
  induction chunks generalizing s with
  | nil => rfl
  | cons chunk chunks ih =>
      show (s.feed chunk).feedAll chunks = _
      rw [ih, feed, Framer.feedAll]
      simp only [foldl_receive_framer, List.foldl_append]

/-- What a session has become that was fed these bytes, and no more. -/
def told (s : Session) (bytes : ByteArray) : Session :=
  { (bodies bytes).1.foldl receive s with framer := ⟨(bodies bytes).2⟩ }

/-- However a stream arrives, a session with a peer is told its bytes. -/
theorem ofChunks_eq (expected : Option Credentials) (chunks : List ByteArray) :
    ofChunks expected chunks = told { expected } (joined chunks) := by
  rw [ofChunks, feedAll_eq, told]
  show { (Framer.feedAll {} chunks).1.foldl receive { expected } with
    framer := (Framer.feedAll {} chunks).2 } = _
  rw [feedAll_fresh]

theorem applied_ofChunks (expected : Option Credentials) (chunks : List ByteArray) :
    (ofChunks expected chunks).applied =
      ((bodies (joined chunks)).1.foldl receive { expected }).applied := by
  rw [ofChunks_eq, told]

/-! ## A link's stream -/

theorem accepts_self {expected : Option Credentials} {c : Credentials}
    (h : expected = none ∨ expected = some c) : accepts expected c = true := by
  rcases h with rfl | rfl
  · rfl
  · simp [accepts]

theorem receive_handshake {expected : Option Credentials} {c : Credentials}
    (h : expected = none ∨ expected = some c) {body : ByteArray}
    (hbody : (Packet.auth c).body = .ok body) :
    ∃ lines, receive { expected } body = { expected, stage := .serving c.group, lines } := by
  refine ⟨#[.info ("[WAN-RX] peer authenticated as group " ++ c.group)], ?_⟩
  unfold receive
  simp only [ofBody_body hbody, greet, accepts_self h, if_true]
  rfl

theorem receive_merge {s : Session} {group : String} (hstage : s.stage = .serving group)
    {m : Mutation} {body : ByteArray} (hbody : (Packet.merge m).body = .ok body) :
    receive s body =
      { s with applied := s.applied.push ⟨group, m⟩, count := s.count + 1 } := by
  unfold receive
  simp only [hstage, ofBody_body hbody, serve]

theorem applied_merges {s : Session} {group : String} (hstage : s.stage = .serving group)
    {ms : List Mutation} {bs : List ByteArray}
    (hbodies : List.Forall₂ (fun m body => (Packet.merge m).body = .ok body) ms bs) :
    (bs.foldl receive s).applied.toList = s.applied.toList ++ ms.map (Applied.mk group) := by
  induction hbodies generalizing s with
  | nil => simp
  | cons hbody _ ih =>
      rw [List.foldl_cons, receive_merge hstage hbody, ih (by exact hstage)]
      simp

/-- A peer that receives the handshake of a link and then frames of mutations, cut off after any
number of bytes and in any chunks, applies the mutations whose frames lie wholly before the cut, in
the name of the link's group. -/
theorem applied_of_cut {expected : Option Credentials} {c : Credentials}
    (h : expected = none ∨ expected = some c) {handshake : ByteArray}
    (hhandshake : (Packet.auth c).frame = .ok handshake) {ms : List Mutation}
    {frames : List ByteArray}
    (hframes : List.Forall₂ (fun m frame => (Packet.merge m).frame = .ok frame) ms frames)
    {chunks : List ByteArray} {n : Nat}
    (hcut : joined chunks = (handshake ++ joined frames).extract 0 n) :
    (ofChunks expected chunks).applied.toList =
      (ms.take (wholeWithin n (handshake :: frames) - 1)).map (Applied.mk c.group) := by
  obtain ⟨body, hbody, hsize, rfl⟩ := body_of_frame hhandshake
  obtain ⟨bs, hbodies, hsizes, rfl⟩ := bodies_of_frames hframes
  have hall : ∀ b ∈ body :: bs, b.size ≤ maxBody := List.forall_mem_cons.mpr ⟨hsize, hsizes⟩
  have hfound : (bodies (joined chunks)).1 =
      (body :: bs).take (wholeWithin n ((body :: bs).map framed)) := by
    rw [hcut]
    exact bodies_cut hall n
  rw [applied_ofChunks, hfound, List.map_cons]
  cases wholeWithin n (framed body :: bs.map framed) with
  | zero => rfl
  | succ k =>
      obtain ⟨lines, hserving⟩ := receive_handshake h hbody
      rw [List.take_succ_cons, List.foldl_cons, hserving,
        applied_merges rfl (List.forall₂_take k hbodies), Nat.add_sub_cancel]
      rfl

/-- Of a stream that is cut off anywhere, a peer applies exactly the mutations whose frames end
before the cut, unchanged, in their order and in the name of the link's group; and nothing at all
if the cut falls into the handshake. -/
theorem applied_before_cut {c : Credentials} {handshake : ByteArray}
    (hhandshake : (Packet.auth c).frame = .ok handshake) {ms : List Mutation}
    {frames : List ByteArray}
    (hframes : List.Forall₂ (fun m frame => (Packet.merge m).frame = .ok frame) ms frames)
    {expected : Option Credentials} (hexpected : expected = none ∨ expected = some c)
    {chunks : List ByteArray} {n : Nat}
    (hcut : joined chunks = (handshake ++ joined frames).extract 0 n) :
    ∃ k ≤ ms.length,
      (ofChunks expected chunks).applied.toList = (ms.take k).map (Applied.mk c.group) ∧
      (∀ i < ms.length, i < k ↔ (handshake ++ joined (frames.take (i + 1))).size ≤ n) ∧
      (n < handshake.size → k = 0) := by
  have hlength : ms.length = frames.length := hframes.length_eq
  have hle := wholeWithin_le n (handshake :: frames)
  rw [List.length_cons] at hle
  refine ⟨wholeWithin n (handshake :: frames) - 1, by omega,
    applied_of_cut hexpected hhandshake hframes hcut, fun i hi => ?_, fun hshort => ?_⟩
  · have hpiece : i + 1 < (handshake :: frames).length := by
      rw [List.length_cons]
      omega
    have hends := lt_wholeWithin_iff (n := n) hpiece
    rw [List.take_succ_cons, joined] at hends
    omega
  · have hnone : wholeWithin n (handshake :: frames) = 0 := by
      rw [wholeWithin, if_neg (by omega)]
    rw [hnone]

/-- The cut is in the second frame, and the chunks end in the length of the handshake and in the
first frame. -/
theorem applied_before_cut_second :
    let c : Credentials := ⟨"tokyo", "pass"⟩
    let first : Mutation := ⟨"orders", "k".toUTF8, "v".toUTF8⟩
    let second : Mutation := ⟨"users", "u".toUTF8, "w".toUTF8⟩
    ∃ handshake frames, (Packet.auth c).frame = .ok handshake ∧
      List.Forall₂ (fun m frame => (Packet.merge m).frame = .ok frame) [first, second] frames ∧
      let stream := handshake ++ joined frames
      let chunks := [stream.extract 0 3, stream.extract 3 20, stream.extract 20 50]
      joined chunks = stream.extract 0 50 ∧
      (ofChunks (some c) chunks).applied.toList = [⟨"tokyo", first⟩] := by
  intro c first second
  obtain ⟨handshake, hhandshake⟩ : ∃ handshake, (Packet.auth c).frame = .ok handshake := ⟨_, rfl⟩
  obtain ⟨frame₁, hframe₁⟩ : ∃ frame, (Packet.merge first).frame = .ok frame := ⟨_, rfl⟩
  obtain ⟨frame₂, hframe₂⟩ : ∃ frame, (Packet.merge second).frame = .ok frame := ⟨_, rfl⟩
  have hframes : List.Forall₂ (fun m frame => (Packet.merge m).frame = .ok frame)
      [first, second] [frame₁, frame₂] := .cons hframe₁ (.cons hframe₂ .nil)
  refine ⟨handshake, [frame₁, frame₂], hhandshake, hframes, ?_⟩
  intro stream chunks
  have hcut : joined chunks = stream.extract 0 50 := by
    cases hhandshake
    cases hframe₁
    cases hframe₂
    decide +kernel
  obtain ⟨k, hk, happlied, hends, -⟩ := applied_before_cut hhandshake hframes (Or.inr rfl) hcut
  have hfirst : 0 < k := (hends 0 (by decide)).mpr (by
    cases hhandshake
    cases hframe₁
    cases hframe₂
    decide +kernel)
  have hsecond : ¬ 1 < k := fun hlt => absurd ((hends 1 (by decide)).mp hlt) (by
    cases hhandshake
    cases hframe₁
    cases hframe₂
    decide +kernel)
  obtain rfl : k = 1 := by omega
  exact ⟨hcut, happlied⟩

end ClusterRelay.Ingest.Session
