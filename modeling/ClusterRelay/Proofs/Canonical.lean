import ClusterRelay.Proofs.Codec

/-!
# Every body that is read was written that way

`Codec.lean` shows that what is written can be read back. The other direction is where a format
with nested lengths may fail: a reader that is too lenient accepts two spellings of one packet, and
one that trusts a length reads what does not belong to it. Neither happens here. A reader that
succeeds has split its bytes into exactly what would be written for its result and what it leaves
over, so a body that is read to its end is the body of the packet that was read.

A reader never looks past the end of its bytes either. That cannot be seen from a single string of
bytes, so `InBounds` says it of two: whatever comes after the bytes, the reader does the same with
them, unless they were too short to begin with. Readers in bounds compose, which leaves `take`
as the one reader that has to be looked at.
-/

namespace ClusterRelay.Wire

/-! ## Words -/

theorem eq_of_size_two {bytes : ByteArray} (h : bytes.size = 2) : ∃ x y, bytes = ⟨#[x, y]⟩ := by
  obtain ⟨⟨l⟩⟩ := bytes
  match l, h with
  | [x, y], _ => exact ⟨x, y, rfl⟩

theorem word16_number {bytes : ByteArray} (h : bytes.size = 2) :
    number bytes < 65536 ∧ word16 (number bytes) = bytes := by
  obtain ⟨x, y, rfl⟩ := eq_of_size_two h
  have hx := x.toNat_lt
  have hy := y.toNat_lt
  have hnumber : number ⟨#[x, y]⟩ = 256 * x.toNat + y.toNat := by simp [number]
  rw [hnumber]
  refine ⟨by omega, ?_⟩
  simp [word16, ← UInt8.toNat_inj]
  omega

theorem word32_number {bytes : ByteArray} (h : bytes.size = 4) :
    number bytes < 4294967296 ∧ word32 (number bytes) = bytes := by
  obtain ⟨⟨l⟩⟩ := bytes
  obtain ⟨x, y, z, t, rfl⟩ : ∃ x y z t, l = [x, y, z, t] := by
    match l, h with
    | [x, y, z, t], _ => exact ⟨x, y, z, t, rfl⟩
  have hx := x.toNat_lt
  have hy := y.toNat_lt
  have hz := z.toNat_lt
  have ht := t.toNat_lt
  have hnumber : number ⟨⟨[x, y, z, t]⟩⟩ =
      16777216 * x.toNat + 65536 * y.toNat + 256 * z.toNat + t.toNat := by
    simp [number]
    omega
  rw [hnumber]
  refine ⟨by omega, ?_⟩
  simp [word32, ← UInt8.toNat_inj]
  omega

/-! ## What a reader has read -/

section Read

variable {bytes rest : ByteArray}

theorem eq_extract_append {n : Nat} (h : n ≤ bytes.size) :
    bytes = bytes.extract 0 n ++ bytes.extract n bytes.size := by
  rw [ByteArray.extract_append_extract, Nat.min_eq_left (Nat.zero_le n), Nat.max_eq_right h,
    ByteArray.extract_zero_size]

theorem of_take {n : Nat} {part : Part} {a : ByteArray} (h : take n part bytes = .ok (a, rest)) :
    a.size = n ∧ bytes = a ++ rest := by
  unfold take at h
  split at h
  · next hle =>
      cases h
      refine ⟨?_, eq_extract_append hle⟩
      rw [ByteArray.size_extract]
      omega
  · cases h

theorem of_takeField {width : Nat} {lengthPart part : Part} {field : ByteArray}
    (h : takeField width lengthPart part bytes = .ok (field, rest)) :
    ∃ length, length.size = width ∧ number length = field.size ∧
      bytes = length ++ field ++ rest := by
  obtain ⟨⟨length, behind⟩, hlength, hfield⟩ := ok_of_bind h
  obtain ⟨hwidth, rfl⟩ := of_take hlength
  obtain ⟨hsize, rfl⟩ := of_take hfield
  exact ⟨length, hwidth, hsize.symm, by rw [ByteArray.append_assoc]⟩

theorem of_takeField16 {lengthPart part : Part} {field : ByteArray}
    (h : takeField 2 lengthPart part bytes = .ok (field, rest)) (what : String) :
    ∃ written, field16 what field = .ok written ∧ bytes = written ++ rest := by
  obtain ⟨length, hwidth, hnumber, rfl⟩ := of_takeField h
  obtain ⟨hsmall, hword⟩ := word16_number hwidth
  rw [hnumber] at hsmall hword
  exact ⟨length ++ field, by rw [field16, if_pos hsmall, hword], rfl⟩

theorem of_takeField32 {lengthPart part : Part} {field : ByteArray}
    (h : takeField 4 lengthPart part bytes = .ok (field, rest)) (what : String) :
    ∃ written, field32 what field = .ok written ∧ bytes = written ++ rest := by
  obtain ⟨length, hwidth, hnumber, rfl⟩ := of_takeField h
  obtain ⟨hsmall, hword⟩ := word32_number hwidth
  rw [hnumber] at hsmall hword
  exact ⟨length ++ field, by rw [field32, if_pos hsmall, hword], rfl⟩

theorem toUTF8_of_fromUTF8? {raw : ByteArray} {text : String}
    (h : String.fromUTF8? raw = some text) : raw = text.toUTF8 := by
  unfold String.fromUTF8? at h
  split at h
  · cases h
    rfl
  · cases h

theorem of_takeText {lengthPart part : Part} {text : String}
    (h : takeText lengthPart part bytes = .ok (text, rest)) (what : String) :
    ∃ written, field16 what text.toUTF8 = .ok written ∧ bytes = written ++ rest := by
  obtain ⟨⟨raw, behind⟩, hraw, htext⟩ := ok_of_bind h
  simp only at htext
  split at htext
  · next text' hutf8 =>
      cases htext
      rw [← toUTF8_of_fromUTF8? hutf8]
      exact of_takeField16 hraw what
  · cases htext

theorem of_ofByte {b : UInt8} {t : Tag} (h : Tag.ofByte b = .ok t) : b = t.toByte := by
  unfold Tag.ofByte at h
  split at h
  · next htag =>
      cases h
      exact Tag.ofByte?_eq_some htag
  · cases h

theorem of_takeHeader {t : Tag} (h : takeHeader bytes = .ok (t, rest)) :
    bytes = header t ++ rest := by
  obtain ⟨⟨head, behind⟩, hhead, htag⟩ := ok_of_bind h
  obtain ⟨hsize, rfl⟩ := of_take hhead
  obtain ⟨x, y, rfl⟩ := eq_of_size_two hsize
  dsimp only at htag
  split at htag
  · cases htag
  · next hversion =>
      obtain ⟨t', hbyte, htag'⟩ := ok_of_bind htag
      cases htag'
      have hx : x = version := Decidable.not_not.mp hversion
      have hy : y = t.toByte := of_ofByte hbyte
      rw [hx, hy]
      rfl

theorem of_takeMutation {m : Mutation} (h : takeMutation bytes = .ok (m, rest)) :
    ∃ container key value, field16 "container name" m.container.toUTF8 = .ok container ∧
      field32 "key" m.key = .ok key ∧ field32 "value envelope" m.value = .ok value ∧
      bytes = container ++ (key ++ (value ++ rest)) := by
  obtain ⟨⟨name, _⟩, hname, hkeyed⟩ := ok_of_bind h
  obtain ⟨⟨key, _⟩, hkey, hvalued⟩ := ok_of_bind hkeyed
  obtain ⟨⟨value, _⟩, hvalue, hmade⟩ := ok_of_bind hvalued
  cases hmade
  obtain ⟨container, hcontainer, rfl⟩ := of_takeText hname "container name"
  obtain ⟨key', hkey', rfl⟩ := of_takeField32 hkey "key"
  obtain ⟨value', hvalue', rfl⟩ := of_takeField32 hvalue "value envelope"
  exact ⟨container, key', value', hcontainer, hkey', hvalue', rfl⟩

theorem of_takeCredentials {c : Credentials} (h : takeCredentials bytes = .ok (c, rest)) :
    ∃ group password, field16 "group name" c.group.toUTF8 = .ok group ∧
      field16 "group password" c.password.toUTF8 = .ok password ∧
      bytes = group ++ (password ++ rest) := by
  obtain ⟨⟨name, _⟩, hname, hkept⟩ := ok_of_bind h
  obtain ⟨⟨secret, _⟩, hsecret, hmade⟩ := ok_of_bind hkept
  cases hmade
  obtain ⟨group, hgroup, rfl⟩ := of_takeText hname "group name"
  obtain ⟨password, hpassword, rfl⟩ := of_takeText hsecret "group password"
  exact ⟨group, password, hgroup, hpassword, rfl⟩

theorem of_takePacket {p : Packet} (h : takePacket bytes = .ok (p, rest)) :
    ∃ written, p.body = .ok written ∧ bytes = written ++ rest := by
  obtain ⟨⟨t, fields⟩, hheader, hfields⟩ := ok_of_bind h
  obtain rfl := of_takeHeader hheader
  cases t with
  | merge =>
      obtain ⟨⟨m, _⟩, hmutation, hmade⟩ := ok_of_bind hfields
      cases hmade
      obtain ⟨container, key, value, hcontainer, hkey, hvalue, rfl⟩ := of_takeMutation hmutation
      refine ⟨header .merge ++ (container ++ (key ++ value)), ?_, ?_⟩
      · simp only [Packet.body, hcontainer, hkey, hvalue, bind, Except.bind]
      · simp only [ByteArray.append_assoc]
  | auth =>
      obtain ⟨⟨c, _⟩, hcredentials, hmade⟩ := ok_of_bind hfields
      cases hmade
      obtain ⟨group, password, hgroup, hpassword, rfl⟩ := of_takeCredentials hcredentials
      refine ⟨header .auth ++ (group ++ password), ?_, ?_⟩
      · simp only [Packet.body, hgroup, hpassword, bind, Except.bind]
      · simp only [ByteArray.append_assoc]

/-- A body that holds a packet is the body of that packet. -/
theorem body_of_ofBody {p : Packet} (h : Packet.ofBody bytes = .ok p) : p.body = .ok bytes := by
  obtain ⟨⟨p', rest⟩, hpacket, hwhole⟩ := ok_of_bind h
  obtain ⟨written, hwritten, rfl⟩ := of_takePacket hpacket
  dsimp only at hwhole
  split at hwhole
  · next hempty =>
      cases hwhole
      rw [ByteArray.size_eq_zero_iff.mp hempty, ByteArray.append_empty]
      exact hwritten
  · cases hwhole

end Read

/-! ## Readers stay within their bytes -/

/-- Bytes behind those that it is given make no difference to a reader, unless it runs short. -/
structure InBounds {α : Type} (read : ByteArray → Except Defect (α × ByteArray)) : Prop where
  ok : ∀ {bytes rest : ByteArray} {a : α}, read bytes = .ok (a, rest) →
    ∀ more, read (bytes ++ more) = .ok (a, rest ++ more)
  error : ∀ {bytes : ByteArray} {d : Defect}, read bytes = .error d →
    (∀ part, d ≠ .truncated part) → ∀ more, read (bytes ++ more) = .error d

theorem error_of_bind {ε α β : Type} {x : Except ε α} {f : α → Except ε β} {e : ε}
    (h : (x >>= f) = .error e) : x = .error e ∨ ∃ a, x = .ok a ∧ f a = .error e := by
  cases x with
  | error e' =>
      cases h
      exact Or.inl rfl
  | ok a => exact Or.inr ⟨a, rfl, h⟩

section Bounds

variable {α β : Type}

theorem inBounds_ok (a : α) : InBounds fun bytes => .ok (a, bytes) := by
  refine ⟨fun h more => ?_, nofun⟩
  cases h
  rfl

theorem inBounds_error (d : Defect) :
    InBounds fun _ => (.error d : Except Defect (α × ByteArray)) :=
  ⟨nofun, fun h _ _ => h⟩

theorem InBounds.bind {read : ByteArray → Except Defect (α × ByteArray)}
    {k : α × ByteArray → Except Defect (β × ByteArray)} (hread : InBounds read)
    (hk : ∀ a, InBounds fun rest => k (a, rest)) : InBounds fun bytes => read bytes >>= k := by
  refine ⟨fun h more => ?_, fun h hlong more => ?_⟩
  · obtain ⟨⟨a, rest⟩, hfirst, hsecond⟩ := ok_of_bind h
    rw [hread.ok hfirst more]
    exact (hk a).ok hsecond more
  · rcases error_of_bind h with hfirst | ⟨⟨a, rest⟩, hfirst, hsecond⟩
    · rw [hread.error hfirst hlong more]
      rfl
    · rw [hread.ok hfirst more]
      exact (hk a).error hsecond hlong more

theorem inBounds_take (n : Nat) (part : Part) : InBounds (take n part) := by
  refine ⟨fun h more => ?_, fun h hlong more => ?_⟩
  · obtain ⟨rfl, rfl⟩ := of_take h
    rw [ByteArray.append_assoc, take_append]
  · unfold take at h
    split at h
    · cases h
    · cases h
      exact absurd rfl (hlong part)

theorem inBounds_takeField (width : Nat) (lengthPart part : Part) :
    InBounds (takeField width lengthPart part) :=
  (inBounds_take width lengthPart).bind fun length => inBounds_take (number length) part

theorem inBounds_takeText (lengthPart part : Part) : InBounds (takeText lengthPart part) := by
  refine (inBounds_takeField 2 lengthPart part).bind fun raw => ?_
  dsimp only
  cases String.fromUTF8? raw with
  | some text => exact inBounds_ok text
  | none => exact inBounds_error _

theorem inBounds_takeMutation : InBounds takeMutation := by
  refine (inBounds_takeText .containerNameLength .containerName).bind fun container => ?_
  refine (inBounds_takeField 4 .keyLength .key).bind fun key => ?_
  exact (inBounds_takeField 4 .valueLength .value).bind fun _ => inBounds_ok _

theorem inBounds_takeCredentials : InBounds takeCredentials := by
  refine (inBounds_takeText .groupNameLength .groupName).bind fun group => ?_
  exact (inBounds_takeText .passwordLength .password).bind fun _ => inBounds_ok _

theorem inBounds_takeHeader : InBounds takeHeader := by
  refine (inBounds_take 2 .header).bind fun head => ?_
  dsimp only
  split
  · exact inBounds_error _
  · cases Tag.ofByte (head.get! 1) with
    | ok t => exact inBounds_ok t
    | error d => exact inBounds_error d

theorem inBounds_takePacket : InBounds takePacket := by
  refine inBounds_takeHeader.bind fun t => ?_
  cases t with
  | merge => exact inBounds_takeMutation.bind fun _ => inBounds_ok _
  | auth => exact inBounds_takeCredentials.bind fun _ => inBounds_ok _

end Bounds

/-! ## Which packets can be written -/

namespace Packet

/-- The fields of a packet whose length is written in two bytes. -/
def texts : Packet → List String
  | merge m => [m.container]
  | auth c => [c.group, c.password]

/-- The fields of a packet whose length is written in four bytes. -/
def blobs : Packet → List ByteArray
  | merge m => [m.key, m.value]
  | auth _ => []

/-- The number of bytes that the body of a packet takes, if its fields can be written. -/
def bodySize (p : Packet) : Nat :=
  p.blobs.foldr (fun b size => 4 + b.size + size)
    (p.texts.foldr (fun t size => 2 + t.toUTF8.size + size) 2)

end Packet

theorem field16_eq_ok_iff {what : String} {bytes field : ByteArray} :
    field16 what bytes = .ok field ↔ bytes.size < 65536 ∧ field = word16 bytes.size ++ bytes := by
  unfold field16
  split
  · next hsmall => simp [hsmall, eq_comm]
  · next hlarge => simp [hlarge]

theorem field32_eq_ok_iff {what : String} {bytes field : ByteArray} :
    field32 what bytes = .ok field ↔
      bytes.size < 4294967296 ∧ field = word32 bytes.size ++ bytes := by
  unfold field32
  split
  · next hsmall => simp [hsmall, eq_comm]
  · next hlarge => simp [hlarge]

/-- A packet has a body if all its fields can be written. -/
theorem exists_body_iff {p : Packet} (hblobs : ∀ b ∈ p.blobs, b.size < 4294967296) :
    (∃ body, p.body = .ok body) ↔ ∀ t ∈ p.texts, t.toUTF8.size < 65536 := by
  constructor
  · rintro ⟨body, h⟩
    cases p with
    | merge m =>
        obtain ⟨container, hcontainer, -⟩ := ok_of_bind h
        have hname := (field16_eq_ok_iff.mp hcontainer).1
        exact fun t ht => List.mem_singleton.mp ht ▸ hname
    | auth c =>
        obtain ⟨group, hgroup, hkept⟩ := ok_of_bind h
        obtain ⟨password, hpassword, -⟩ := ok_of_bind hkept
        have hname := (field16_eq_ok_iff.mp hgroup).1
        have hsecret := (field16_eq_ok_iff.mp hpassword).1
        exact List.forall_mem_cons.mpr ⟨hname, fun t ht => List.mem_singleton.mp ht ▸ hsecret⟩
  · intro htexts
    cases p with
    | merge m =>
        have hname := htexts m.container List.mem_cons_self
        have hkey := hblobs m.key List.mem_cons_self
        have hvalue := hblobs m.value (List.mem_cons_of_mem _ List.mem_cons_self)
        simp only [Packet.body, field16, if_pos hname, field32, if_pos hkey, if_pos hvalue]
        exact ⟨_, rfl⟩
    | auth c =>
        have hname := htexts c.group List.mem_cons_self
        have hsecret := htexts c.password (List.mem_cons_of_mem _ List.mem_cons_self)
        simp only [Packet.body, field16, if_pos hname, if_pos hsecret]
        exact ⟨_, rfl⟩

theorem size_body {p : Packet} {body : ByteArray} (h : p.body = .ok body) :
    body.size = p.bodySize := by
  cases p with
  | merge m =>
      obtain ⟨container, hcontainer, hkeyed⟩ := ok_of_bind h
      obtain ⟨key, hkey, hvalued⟩ := ok_of_bind hkeyed
      obtain ⟨value, hvalue, hmade⟩ := ok_of_bind hvalued
      cases hmade
      obtain ⟨-, rfl⟩ := field16_eq_ok_iff.mp hcontainer
      obtain ⟨-, rfl⟩ := field32_eq_ok_iff.mp hkey
      obtain ⟨-, rfl⟩ := field32_eq_ok_iff.mp hvalue
      simp [Packet.bodySize, Packet.texts, Packet.blobs, ByteArray.size_append]
      omega
  | auth c =>
      obtain ⟨group, hgroup, hkept⟩ := ok_of_bind h
      obtain ⟨password, hpassword, hmade⟩ := ok_of_bind hkept
      cases hmade
      obtain ⟨-, rfl⟩ := field16_eq_ok_iff.mp hgroup
      obtain ⟨-, rfl⟩ := field16_eq_ok_iff.mp hpassword
      simp [Packet.bodySize, Packet.texts, Packet.blobs, ByteArray.size_append]
      omega

theorem frame_eq_ok_iff {p : Packet} {frame : ByteArray} :
    p.frame = .ok frame ↔ ∃ body, p.body = .ok body ∧ body.size ≤ maxBody ∧ frame = framed body := by
  refine ⟨body_of_frame, ?_⟩
  rintro ⟨body, hbody, hsize, rfl⟩
  rw [Packet.frame, hbody]
  exact if_pos hsize

/-- The frame of a packet holds that packet. -/
theorem ofFrame_framed {p : Packet} {body : ByteArray} (h : p.body = .ok body)
    (hsize : body.size ≤ maxBody) : Packet.ofFrame (framed body) = .ok p := by
  have hlength : number (word32 body.size) = body.size :=
    number_word32 (Nat.lt_of_le_of_lt hsize (by decide))
  have htake : take 4 .lengthPrefix (framed body) = .ok (word32 body.size, body) :=
    take_append (word32 body.size) body .lengthPrefix
  rw [Packet.ofFrame, htake]
  show (if number (word32 body.size) = body.size then Packet.ofBody body else _) = _
  rw [if_pos hlength, ofBody_body h]

/-- A packet can be written just if its texts and its body are short enough, and then its frame is
read as that packet. Any bytes are read as a packet or refused with a defect, without a look at what
comes after them, and bytes that are read as a packet and are no longer than a body may be are its
body: it is the one packet whose frame is these bytes behind their length. -/
theorem canonical_encoding {p : Packet} (hblobs : ∀ b ∈ p.blobs, b.size < 4294967296)
    (body : ByteArray) :
    (((∃ frame, p.frame = .ok frame) ↔
        (∀ t ∈ p.texts, t.toUTF8.size ≤ 65535) ∧ p.bodySize ≤ maxBody) ∧
      ∀ frame, p.frame = .ok frame →
        frame.size = 4 + p.bodySize ∧ Packet.ofFrame frame = .ok p) ∧
    ((∃ q, Packet.ofBody body = .ok q) ∨
      ∃ d why, Packet.ofBody body = .error d ∧ d.fault = .decoding why) ∧
    InBounds takePacket ∧
    ∀ q, Packet.ofBody body = .ok q → body.size ≤ maxBody →
      (word32 body.size).size = 4 ∧ number (word32 body.size) = body.size ∧
        ∀ q' : Packet, q'.frame = .ok (word32 body.size ++ body) ↔ q' = q := by
  refine ⟨⟨⟨?_, ?_⟩, ?_⟩, ?_, inBounds_takePacket, ?_⟩
  · rintro ⟨frame, hframe⟩
    obtain ⟨written, hwritten, hsize, -⟩ := frame_eq_ok_iff.mp hframe
    have htexts := (exists_body_iff hblobs).mp ⟨written, hwritten⟩
    exact ⟨fun t ht => Nat.le_of_lt_succ (htexts t ht), size_body hwritten ▸ hsize⟩
  · rintro ⟨htexts, hsize⟩
    obtain ⟨written, hwritten⟩ :=
      (exists_body_iff hblobs).mpr fun t ht => Nat.lt_succ_of_le (htexts t ht)
    exact ⟨framed written, frame_eq_ok_iff.mpr
      ⟨written, hwritten, (size_body hwritten).symm ▸ hsize, rfl⟩⟩
  · intro frame hframe
    obtain ⟨written, hwritten, hsize, rfl⟩ := frame_eq_ok_iff.mp hframe
    refine ⟨?_, ofFrame_framed hwritten hsize⟩
    rw [framed, ByteArray.size_append, size_word32, size_body hwritten]
  · cases Packet.ofBody body with
    | ok q => exact Or.inl ⟨q, rfl⟩
    | error d => exact Or.inr ⟨d, d.message, rfl, rfl⟩
  · intro q hq hsize
    refine ⟨size_word32 _, number_word32 (Nat.lt_of_le_of_lt hsize (by decide)), fun q' => ?_⟩
    constructor
    · intro hframe
      obtain ⟨written, hwritten, hsize', hsame⟩ := frame_eq_ok_iff.mp hframe
      -- Both frames are read, and reading one string of bytes has one outcome.
      have hread := ofFrame_framed hwritten hsize'
      rw [← hsame] at hread
      have hread' := ofFrame_framed (body_of_ofBody hq) hsize
      exact Except.ok.inj (hread.symm.trans hread')
    · rintro rfl
      exact frame_eq_ok_iff.mpr ⟨body, body_of_ofBody hq, hsize, rfl⟩

theorem canonical_encoding_layout :
    let p : Packet := .merge ⟨"m", ⟨#[0xaa]⟩, ⟨#[0xbb]⟩⟩
    let body : ByteArray := ⟨#[1, 1, 0, 1, 109, 0, 0, 0, 1, 0xaa, 0, 0, 0, 1, 0xbb]⟩
    (∀ b ∈ p.blobs, b.size < 4294967296) ∧ p.frame = .ok (word32 15 ++ body) ∧
      Packet.ofFrame (word32 15 ++ body) = .ok p := by
  intro p body
  have hblobs : ∀ b ∈ p.blobs, b.size < 4294967296 := by decide
  have h := canonical_encoding hblobs body
  have hread : Packet.ofBody body = .ok p := ofBody_body rfl
  obtain ⟨-, -, hframe⟩ := h.2.2.2 p hread (by decide)
  exact ⟨hblobs, (hframe p).mpr rfl, (h.1.2 _ ((hframe p).mpr rfl)).2⟩

end ClusterRelay.Wire
