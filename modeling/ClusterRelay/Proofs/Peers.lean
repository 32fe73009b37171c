import ClusterRelay.Proofs.Canonical
import ClusterRelay.Proofs.Sessions

/-!
# What a session applies of what a peer sends

A peer may send anything. `Says` reads its bytes without a framer and without a session: packets, one
behind another, and then the reason why there are no more. Every string of bytes says something
(`exists_said`), and a session that is told it goes along with it. `served` is the induction, on the
packets: one is taken from the front, and the rest is told to the session that took it. How a stream
without packets ends a session is `told_nothing`, and what it takes for that is in `of_says_nil`. A
session counts for itself what it applies (`Counted`), and no stream is so long that a packet for
each of its bytes could make the count wrap around unnoticed: `Says.length_le`.

The first packet decides whether there is anything to serve. Everything that is not an accepted
handshake there leaves a session that applies nothing and ends with a fault.
-/

namespace ClusterRelay.Wire

/-- Why there are no more packets in a stream. -/
inductive Halt where
  /-- Too few bytes are left to be a length. -/
  | exhausted
  /-- The length of a frame is there, and not all of its body. -/
  | cutShort
  /-- The next frame announces a body of this many bytes, too many. -/
  | oversize (size : Nat)
  /-- The next frame holds no packet. -/
  | defective (defect : Defect)
deriving DecidableEq

/-- What a stream says: some packets, one behind another, and why there are no more. -/
inductive Says : ByteArray → List Packet → Halt → Prop where
  | exhausted {tail : ByteArray} (hfew : tail.size < 4) : Says tail [] .exhausted
  | cutShort {length begun : ByteArray} (hlength : length.size = 4)
      (hsmall : number length ≤ maxBody) (hfew : begun.size < number length) :
      Says (length ++ begun) [] .cutShort
  | oversize {length rest : ByteArray} (hlength : length.size = 4)
      (hgreat : maxBody < number length) : Says (length ++ rest) [] (.oversize (number length))
  | defective {body rest : ByteArray} {defect : Defect} (hsmall : body.size ≤ maxBody)
      (hbody : Packet.ofBody body = .error defect) :
      Says (framed body ++ rest) [] (.defective defect)
  | packet {body rest : ByteArray} {p : Packet} {ps : List Packet} {halt : Halt}
      (hsmall : body.size ≤ maxBody) (hbody : Packet.ofBody body = .ok p)
      (hrest : Says rest ps halt) : Says (framed body ++ rest) (p :: ps) halt

def Packet.mutation? : Packet → Option Mutation
  | .merge m => some m
  | .auth _ => none

/-- The fault in which a stream that halts so ends, if it does. -/
def Halt.fault? : Halt → StreamEnd → Option Fault
  | .exhausted, .finished => none
  | .cutShort, .finished => some (.io "early eof")
  | .exhausted, .failed why | .cutShort, .failed why => some (.io why)
  | .oversize size, _ => some (.oversize size maxBody)
  | .defective defect, _ => some defect.fault

/-! ## Every stream says something -/

section Cut

variable {bytes : ByteArray}

theorem size_extract_four (h : 4 ≤ bytes.size) : (bytes.extract 0 4).size = 4 := by
  rw [ByteArray.size_extract]
  omega

theorem says_of_cut_short (h : cut bytes = .short) : ∃ halt, Says bytes [] halt := by
  rcases of_cut_short h with hfew | ⟨hlength, hsmall, hfew⟩
  · exact ⟨_, .exhausted hfew⟩
  · refine ⟨.cutShort, ?_⟩
    rw [eq_extract_append hlength]
    refine .cutShort (size_extract_four hlength) hsmall ?_
    rw [ByteArray.size_extract]
    omega

theorem says_of_cut_oversize {size : Nat} (h : cut bytes = .oversize size) :
    Says bytes [] (.oversize size) := by
  obtain ⟨hlength, rfl, hgreat⟩ := of_cut_oversize h
  have hsays : Says (bytes.extract 0 4 ++ bytes.extract 4 bytes.size) [] _ :=
    .oversize (size_extract_four hlength) hgreat
  rwa [← eq_extract_append hlength] at hsays

theorem eq_framed_of_cut {body rest : ByteArray} (h : cut bytes = .frame body rest) :
    body.size ≤ maxBody ∧ bytes = framed body ++ rest := by
  obtain ⟨hsmall, hfull, rfl, rfl⟩ := of_cut_frame h
  have hlength : 4 ≤ bytes.size := by omega
  have hsize : (bytes.extract 4 (4 + number (bytes.extract 0 4))).size =
      number (bytes.extract 0 4) := by
    rw [ByteArray.size_extract]
    omega
  refine ⟨by omega, ?_⟩
  rw [framed, hsize, (word32_number (size_extract_four hlength)).2, ByteArray.append_assoc,
    ByteArray.extract_append_extract, Nat.min_eq_left (by omega), Nat.max_eq_right (by omega)]
  exact eq_extract_append hlength

end Cut

theorem exists_said (bytes : ByteArray) : ∃ ps halt, Says bytes ps halt := by
  cases h : cut bytes with
  | short =>
      obtain ⟨halt, hsays⟩ := says_of_cut_short h
      exact ⟨[], halt, hsays⟩
  | oversize size => exact ⟨[], _, says_of_cut_oversize h⟩
  | frame body rest =>
      have hless := size_lt_of_cut h
      obtain ⟨hsmall, rfl⟩ := eq_framed_of_cut h
      cases hbody : Packet.ofBody body with
      | error defect => exact ⟨[], _, .defective hsmall hbody⟩
      | ok p =>
          obtain ⟨ps, halt, hsays⟩ := exists_said rest
          exact ⟨p :: ps, halt, .packet hsmall hbody hsays⟩
termination_by bytes.size

/-- A packet takes up a byte at least. -/
theorem Says.length_le {bytes : ByteArray} {ps : List Packet} {halt : Halt}
    (h : Says bytes ps halt) : ps.length ≤ bytes.size := by
  induction h with
  | exhausted | cutShort | oversize | defective => exact Nat.zero_le _
  | packet _ _ _ ih =>
      rw [List.length_cons, ByteArray.size_append, size_framed]
      omega

/-! ## What a framer makes of it -/

theorem cut_append_few {length begun : ByteArray} (hlength : length.size = 4)
    (hsmall : number length ≤ maxBody) (hfew : begun.size < number length) :
    cut (length ++ begun) = .short := by
  have hfour : (length ++ begun).extract 0 4 = length :=
    ByteArray.extract_append_eq_left hlength.symm
  rw [cut]
  simp only [hfour, ByteArray.size_append]
  rw [if_neg (by omega), if_neg (by omega), if_pos (by omega)]

theorem cut_append_great {length : ByteArray} (hlength : length.size = 4)
    (hgreat : maxBody < number length) (rest : ByteArray) :
    cut (length ++ rest) = .oversize (number length) := by
  have hfour : (length ++ rest).extract 0 4 = length :=
    ByteArray.extract_append_eq_left hlength.symm
  rw [cut]
  simp only [hfour, ByteArray.size_append]
  rw [if_neg (by omega), if_pos hgreat]

/-- A stream without packets is one without bodies, unless a frame is there that holds no packet. -/
theorem of_says_nil {bytes : ByteArray} {halt : Halt} (h : Says bytes [] halt) :
    (∃ left, bodies bytes = ([], left) ∧ ∀ ending, left.verdict ending = halt.fault? ending) ∨
      ∃ body rest defect, bytes = framed body ++ rest ∧ body.size ≤ maxBody ∧
        Packet.ofBody body = .error defect ∧ halt = .defective defect := by
  cases h with
  | exhausted hfew =>
      have hcut : cut bytes = .short := by rw [cut, if_pos hfew]
      refine Or.inl ⟨_, bodies_short hcut, fun ending => ?_⟩
      cases ending with
      | finished => exact if_pos hfew
      | failed why => rfl
  | @cutShort length begun hlength hsmall hfew =>
      refine Or.inl ⟨_, bodies_short (cut_append_few hlength hsmall hfew), fun ending => ?_⟩
      have hfour : ¬ (length ++ begun).size < 4 := by
        rw [ByteArray.size_append]
        omega
      cases ending with
      | finished => exact if_neg hfour
      | failed why => rfl
  | oversize hlength hgreat =>
      exact Or.inl ⟨_, bodies_oversize (cut_append_great hlength hgreat _), fun _ => rfl⟩
  | defective hsmall hbody => exact Or.inr ⟨_, _, _, rfl, hsmall, hbody, rfl⟩

end ClusterRelay.Wire

namespace ClusterRelay.Ingest.Session

open Wire

variable {s : Session} {bytes : ByteArray} {ps : List Packet} {halt : Halt}

theorem told_framed {body : ByteArray} (hsmall : body.size ≤ maxBody) (rest : ByteArray) :
    told s (framed body ++ rest) = told (s.receive body) rest := by
  rw [told, bodies_frame (cut_framed hsmall rest), List.foldl_cons, told]

theorem receive_refused {fault : Fault} (h : s.stage = .refused fault) (found : List ByteArray) :
    found.foldl receive s = s := by
  induction found with
  | nil => rfl
  | cons body found ih =>
      have hsame : receive s body = s := by rw [receive, h]
      rw [List.foldl_cons, hsame, ih]

/-- A session that is over applies nothing more, whatever it is told. -/
theorem told_refused {fault : Fault} (h : s.stage = .refused fault) (bytes : ByteArray) :
    (s.told bytes).applied = s.applied ∧ ∀ ending, (s.told bytes).result ending = .error fault := by
  rw [told, receive_refused h]
  refine ⟨rfl, fun ending => ?_⟩
  rw [result]
  simp only [h]

theorem receive_defective {body : ByteArray} {defect : Defect}
    (hopen : ∀ fault, s.stage ≠ .refused fault) (hbody : Packet.ofBody body = .error defect) :
    s.receive body = { s with stage := .refused defect.fault } := by
  unfold receive
  cases hstage : s.stage with
  | refused fault => exact absurd hstage (hopen fault)
  | greeting => rw [hbody]
  | serving group => rw [hbody]

theorem told_silent {left : Remainder} (h : bodies bytes = ([], left)) :
    s.told bytes = { s with framer := ⟨left⟩ } := by
  rw [told, h, List.foldl_nil]

/-- A session that is not over applies nothing of a stream without packets. It ends in the fault of
the stream, and where that has none, as if nothing had been said. -/
theorem told_nothing (hopen : ∀ fault, s.stage ≠ .refused fault) (h : Says bytes [] halt) :
    (s.told bytes).applied = s.applied ∧ ∀ ending, (s.told bytes).result ending =
      match halt.fault? ending with
      | some fault => .error fault
      | none => result { s with framer := {} } .finished := by
  rcases of_says_nil h with ⟨left, hbodies, hverdict⟩ | ⟨body, rest, defect, rfl, hsmall, hbody, rfl⟩
  · rw [told_silent hbodies]
    refine ⟨rfl, fun ending => ?_⟩
    rw [← hverdict]
    -- A result looks at the stage and at what the framer was left with, which decides if it is
    -- anything at all.
    unfold result
    cases hstage : s.stage with
    | refused fault => exact absurd hstage (hopen fault)
    | greeting => cases left.verdict ending <;> rfl
    | serving group => cases left.verdict ending <;> rfl
  · rw [told_framed hsmall, receive_defective hopen hbody]
    exact told_refused rfl _

/-- A session has counted what it applied. -/
def Counted (s : Session) : Prop := s.count = UInt64.ofNat s.applied.size

theorem Counted.serve (h : s.Counted) (group : String) (p : Packet) :
    (s.serve group p).Counted := by
  cases p with
  | merge m =>
      have hcount : s.count = UInt64.ofNat s.applied.size := h
      simp only [Counted, Session.serve, hcount, Array.size_push, UInt64.ofNat_add]
      rfl
  | auth c => exact h

/-- No handshake is applied, nor what comes in its place. -/
theorem greet_keeps (s : Session) (p : Packet) :
    (s.greet p).applied = s.applied ∧ (s.greet p).count = s.count := by
  cases p with
  | merge m => exact ⟨rfl, rfl⟩
  | auth c =>
      by_cases haccepts : accepts s.expected c = true
      · rw [greet, if_pos haccepts]
        exact ⟨rfl, rfl⟩
      · rw [greet, if_neg haccepts]
        exact ⟨rfl, rfl⟩

theorem Counted.receive (h : s.Counted) (body : ByteArray) : (s.receive body).Counted := by
  unfold Session.receive
  split
  · exact h
  · split
    · next packet _ =>
        obtain ⟨happlied, hcount⟩ := s.greet_keeps packet
        rw [Counted, happlied, hcount]
        exact h
    · exact h
  · split
    · exact h.serve _ _
    · exact h

theorem Counted.told (h : s.Counted) (bytes : ByteArray) : (s.told bytes).Counted := by
  have hfound (found : List ByteArray) : (found.foldl Session.receive s).Counted := by
    induction found generalizing s with
    | nil => exact h
    | cons body found ih => exact ih (h.receive body)
  exact hfound _

theorem served_nothing {group : String} (hstage : s.stage = .serving group) (hcounted : s.Counted)
    (h : Says bytes [] halt) :
    (s.told bytes).applied = s.applied ∧ ∀ ending, (s.told bytes).result ending =
      match halt.fault? ending with
      | some fault => .error fault
      | none => .ok (UInt64.ofNat s.applied.size) := by
  have hopen : ∀ fault, s.stage ≠ .refused fault := fun fault hover => by
    rw [hstage] at hover
    cases hover
  have hcount : s.count = UInt64.ofNat s.applied.size := hcounted
  have hover : result { s with framer := {} } .finished = .ok (UInt64.ofNat s.applied.size) := by
    unfold result
    simp only [hstage, hcount]
    rfl
  obtain ⟨happlied, hresult⟩ := told_nothing hopen h
  exact ⟨happlied, fun ending => by rw [hresult, hover]⟩

theorem receive_serving {group : String} (hstage : s.stage = .serving group) {body : ByteArray}
    {p : Packet} (hbody : Packet.ofBody body = .ok p) : s.receive body = s.serve group p := by
  unfold receive
  simp only [hstage, hbody]

theorem serve_stage {group : String} (hstage : s.stage = .serving group) (p : Packet) :
    (s.serve group p).stage = .serving group := by
  cases p <;> exact hstage

theorem serve_applied (group : String) (p : Packet) :
    (s.serve group p).applied.toList =
      s.applied.toList ++ p.mutation?.toList.map (Applied.mk group) := by
  cases p with
  | merge m => simp [serve, Packet.mutation?]
  | auth c => simp [serve, Packet.mutation?]

/-- A session whose peer belongs to a group applies, in the name of that group, the mutations that
are still to come in the stream. -/
theorem served {group : String} (h : Says bytes ps halt) (hstage : s.stage = .serving group)
    (hcounted : s.Counted) :
    (s.told bytes).applied.toList =
        s.applied.toList ++ (ps.filterMap Packet.mutation?).map (Applied.mk group) ∧
      ∀ ending, (s.told bytes).result ending =
        match halt.fault? ending with
        | some fault => .error fault
        | none => .ok (UInt64.ofNat (s.told bytes).applied.size) := by
  induction ps generalizing s bytes with
  | nil =>
      obtain ⟨happlied, hresult⟩ := served_nothing hstage hcounted h
      rw [happlied]
      exact ⟨by simp, hresult⟩
  | cons p ps ih =>
      cases h with
      | packet hsmall hbody hrest =>
          obtain ⟨happlied, hresult⟩ :=
            ih hrest (serve_stage hstage p) (hcounted.serve group p)
          rw [told_framed hsmall, receive_serving hstage hbody]
          refine ⟨?_, hresult⟩
          rw [happlied, serve_applied]
          cases hmutation : p.mutation? <;> simp [hmutation]

/-! ## The first packet -/

theorem accepts_eq_true_iff {expected : Option Credentials} {c : Credentials} :
    accepts expected c = true ↔ expected = none ∨ expected = some c := by
  refine ⟨fun h => ?_, accepts_self⟩
  cases expected with
  | none => exact Or.inl rfl
  | some e =>
      obtain ⟨group, password⟩ := e
      obtain ⟨group', password'⟩ := c
      simp only [accepts, Bool.and_eq_true, beq_iff_eq] at h
      obtain ⟨rfl, rfl⟩ := h
      exact Or.inr rfl

theorem receive_first {expected : Option Credentials} {body : ByteArray} {p : Packet}
    (hbody : Packet.ofBody body = .ok p) : receive { expected } body = greet { expected } p := by
  unfold receive
  simp only [hbody]

theorem greet_accepted {expected : Option Credentials} {c : Credentials}
    (h : expected = none ∨ expected = some c) :
    (greet { expected } (.auth c)).stage = .serving c.group ∧
      (greet { expected } (.auth c)).applied = #[] ∧
      (greet { expected } (.auth c)).Counted := by
  rw [greet, if_pos (accepts_self h)]
  exact ⟨rfl, rfl, rfl⟩

theorem greet_refused {expected : Option Credentials} {p : Packet}
    (h : ∀ c, p = .auth c → ¬ (expected = none ∨ expected = some c)) :
    (∃ fault, (greet { expected } p).stage = .refused fault) ∧
      (greet { expected } p).applied = #[] := by
  cases p with
  | merge m => exact ⟨⟨_, rfl⟩, rfl⟩
  | auth c =>
      have hrefused : ¬ accepts expected c = true := mt accepts_eq_true_iff.mp (h c rfl)
      rw [greet, if_neg hrefused]
      exact ⟨⟨_, rfl⟩, rfl⟩

theorem unheard {expected : Option Credentials} (h : Says bytes [] halt) :
    (told { expected } bytes).applied = #[] ∧
      ∀ ending, ∃ fault, (told { expected } bytes).result ending = .error fault := by
  obtain ⟨happlied, hresult⟩ := told_nothing (s := { expected }) (fun _ hover => by cases hover) h
  refine ⟨happlied, fun ending => ?_⟩
  rw [hresult]
  cases halt.fault? ending with
  | none => exact ⟨_, rfl⟩
  | some fault => exact ⟨fault, rfl⟩

theorem eq_count_of_result {ending : StreamEnd} {n : UInt64} (h : s.result ending = .ok n) :
    n = s.count := by
  unfold result at h
  cases hstage : s.stage with
  | refused fault =>
      simp only [hstage] at h
      cases h
  | greeting =>
      simp only [hstage] at h
      split at h <;> cases h
  | serving group =>
      simp only [hstage] at h
      split at h <;> cases h
      rfl

theorem receive_size_le (s : Session) (body : ByteArray) :
    (s.receive body).applied.size ≤ s.applied.size + 1 := by
  unfold receive
  split
  · exact Nat.le_succ _
  · split
    · next packet _ =>
        rw [(s.greet_keeps packet).1]
        exact Nat.le_succ _
    · exact Nat.le_succ _
  · split
    · next packet _ =>
        cases packet with
        | merge m => exact Nat.le_of_eq (Array.size_push _)
        | auth c => exact Nat.le_succ _
    · exact Nat.le_succ _

/-- No more is applied than the stream has packets. -/
theorem told_size_le (h : Says bytes ps halt) :
    (s.told bytes).applied.size ≤ s.applied.size + ps.length := by
  induction ps generalizing s bytes with
  | nil =>
      have hnothing : (s.told bytes).applied = s.applied := by
        cases hstage : s.stage with
        | refused fault => exact (told_refused hstage bytes).1
        | greeting => exact (told_nothing (by simp [hstage]) h).1
        | serving group => exact (told_nothing (by simp [hstage]) h).1
      rw [hnothing]
      exact Nat.le_add_right _ _
  | cons p ps ih =>
      cases h with
      | @packet body _ _ _ _ hsmall hbody hrest =>
          have hrest' := ih (s := s.receive body) hrest
          have hfirst := s.receive_size_le body
          rw [told_framed hsmall, List.length_cons]
          omega

/-- A peer may send any bytes, in any chunks: they are some packets and a reason why there are no
more. If the first packet is a handshake that is accepted, the mutations in the packets after it are
applied, all of them, in their order and in the name of the group of that first handshake, and the
session ends in the fault of the stream if it has one. If not, nothing is applied and the session
ends in a fault. A session that does not end in a fault ends with the number of mutations applied,
which a word of 64 bits holds for every stream that does not have more bytes than it can count. -/
theorem applied_of_authenticated (expected : Option Credentials) (chunks : List ByteArray) :
    (∃ ps halt, Says (joined chunks) ps halt) ∧
    ∀ ps halt, Says (joined chunks) ps halt →
      let s := ofChunks expected chunks
      (∀ c rest, ps = .auth c :: rest → (expected = none ∨ expected = some c) →
        s.applied.toList = (rest.filterMap Packet.mutation?).map (Applied.mk c.group) ∧
        ∀ ending, s.result ending =
          match halt.fault? ending with
          | some fault => .error fault
          | none => .ok (UInt64.ofNat s.applied.size)) ∧
      ((∀ c rest, ps = .auth c :: rest → ¬ (expected = none ∨ expected = some c)) →
        s.applied = #[] ∧ ∀ ending, ∃ fault, s.result ending = .error fault) ∧
      ∀ ending n, s.result ending = .ok n →
        n = UInt64.ofNat s.applied.size ∧
        ((joined chunks).size < UInt64.size → n.toNat = s.applied.size) := by
  refine ⟨exists_said _, fun ps halt hsays => ?_⟩
  rw [ofChunks_eq]
  refine ⟨fun c rest hps haccepted => ?_, fun hfirst => ?_, fun ending n hresult => ?_⟩
  · subst hps
    -- What the bytes say can be taken apart only where the bytes are a variable.
    generalize joined chunks = bytes at hsays
    cases hsays with
    | packet hsmall hbody hrest =>
        obtain ⟨hserving, hnone, hcounted⟩ := greet_accepted haccepted
        rw [told_framed hsmall, receive_first hbody]
        obtain ⟨happlied, hresult⟩ := served hrest hserving hcounted
        rw [hnone] at happlied
        exact ⟨happlied, hresult⟩
  · generalize joined chunks = bytes at hsays
    cases ps with
    | nil => exact unheard hsays
    | cons p ps =>
        cases hsays with
        | packet hsmall hbody hrest =>
            obtain ⟨⟨fault, hover⟩, hnone⟩ :=
              greet_refused (p := p) fun c hp => hfirst c ps (by rw [hp])
            rw [told_framed hsmall, receive_first hbody]
            obtain ⟨happlied, hresult⟩ := told_refused hover _
            exact ⟨happlied.trans hnone, fun ending => ⟨fault, hresult ending⟩⟩
  · have hstart : Counted { expected } := rfl
    have hcount : n = UInt64.ofNat (told { expected } (joined chunks)).applied.size :=
      (eq_count_of_result hresult).trans (hstart.told (joined chunks))
    refine ⟨hcount, fun hfew => ?_⟩
    have hle : (told { expected } (joined chunks)).applied.size ≤ 0 + ps.length :=
      told_size_le hsays
    have hbytes := hsays.length_le
    rw [hcount, UInt64.toNat_ofNat_of_lt' (by omega)]

/-- A peer of the group `tokyo` presents itself as another one later on, and then there is a frame
that holds no packet; the first chunk ends in the length of the handshake. -/
theorem applied_of_authenticated_hostile :
    let tokyo : Credentials := ⟨"tokyo", "pass"⟩
    let m : Mutation := ⟨"orders", "k".toUTF8, "v".toUTF8⟩
    let m' : Mutation := ⟨"users", "u".toUTF8, "w".toUTF8⟩
    ∃ handshake first other second, Packet.ofBody handshake = .ok (.auth tokyo) ∧
      Packet.ofBody first = .ok (.merge m) ∧
      Packet.ofBody other = .ok (.auth ⟨"osaka", "x"⟩) ∧
      Packet.ofBody second = .ok (.merge m') ∧
      let stream := framed handshake ++ (framed first ++ (framed other ++ (framed second ++
        (framed ByteArray.empty ++ framed first))))
      let s := ofChunks (some tokyo) [stream.extract 0 3, stream.extract 3 stream.size]
      s.applied.toList = [⟨"tokyo", m⟩, ⟨"tokyo", m'⟩] ∧
        ∀ ending, ∃ fault, s.result ending = .error fault := by
  intro tokyo m m'
  obtain ⟨handshake, hhandshake⟩ : ∃ body, (Packet.auth tokyo).body = .ok body := ⟨_, rfl⟩
  obtain ⟨first, hfirst⟩ : ∃ body, (Packet.merge m).body = .ok body := ⟨_, rfl⟩
  obtain ⟨other, hother⟩ : ∃ body, (Packet.auth ⟨"osaka", "x"⟩).body = .ok body := ⟨_, rfl⟩
  obtain ⟨second, hsecond⟩ : ∃ body, (Packet.merge m').body = .ok body := ⟨_, rfl⟩
  obtain ⟨defect, hdefect⟩ : ∃ defect, Packet.ofBody ByteArray.empty = .error defect := ⟨_, rfl⟩
  refine ⟨handshake, first, other, second, ofBody_body hhandshake, ofBody_body hfirst,
    ofBody_body hother, ofBody_body hsecond, ?_⟩
  intro stream s
  have hsmall : handshake.size ≤ maxBody ∧ first.size ≤ maxBody ∧ other.size ≤ maxBody ∧
      second.size ≤ maxBody := by
    cases hhandshake
    cases hfirst
    cases hother
    cases hsecond
    decide +kernel
  have hsays : Says stream [.auth tokyo, .merge m, .auth ⟨"osaka", "x"⟩, .merge m']
      (.defective defect) :=
    .packet hsmall.1 (ofBody_body hhandshake) <| .packet hsmall.2.1 (ofBody_body hfirst) <|
      .packet hsmall.2.2.1 (ofBody_body hother) <| .packet hsmall.2.2.2 (ofBody_body hsecond) <|
        .defective (Nat.zero_le _) hdefect
  have hchunks : joined [stream.extract 0 3, stream.extract 3 stream.size] = stream := by
    rw [joined, joined, joined, ByteArray.append_empty]
    refine (eq_extract_append ?_).symm
    simp only [stream, ByteArray.size_append, size_framed]
    omega
  rw [← hchunks] at hsays
  obtain ⟨happlied, hresult⟩ :=
    ((applied_of_authenticated (some tokyo) _).2 _ _ hsays).1 _ _ rfl (Or.inr rfl)
  exact ⟨happlied, fun ending => ⟨defect.fault, hresult ending⟩⟩

end ClusterRelay.Ingest.Session
