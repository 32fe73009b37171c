import ClusterRelay.Proofs.Canonical
import ClusterRelay.Proofs.Streams

/-!
# A packet says where it ends

The body of a packet can be told from everything that is shorter and from everything that is longer.
What is longer is easy: the packet is read to its end, and then something is left over. What is
shorter ends somewhere in the middle, and it could end at any place: within the header, within one of
the lengths, within a field, within a character of a text. Every one of these places has to be
noticed for what it is, before anything else is found wrong with the bytes.

That is a property of readers that is kept when one reads on where the other has stopped.
`Delimits` says of a reader and of the bytes that were written for it that it takes just these, and
that of anything less it reports the part in which the bytes end. Only `take` has to be looked at;
a text cut within a character is short of its length, and is refused before it is looked at as
text. The parts and their sizes are listed as `Packet.layout`.

A frame has its length in front, so it does not get as far: cut short or followed by more, it has
another length than it announces.
-/

namespace ClusterRelay.Wire

/-! ## Parts one behind the other -/

/-- The part into which a position falls. -/
def partAt : List (Part × Nat) → Nat → Option Part
  | [], _ => none
  | (part, size) :: parts, n => if n < size then some part else partAt parts (n - size)

/-- The number of bytes that parts take together. -/
def extent : List (Part × Nat) → Nat
  | [] => 0
  | (_, size) :: parts => size + extent parts

theorem partAt_append_of_lt {parts : List (Part × Nat)} {n : Nat} (h : n < extent parts)
    (more : List (Part × Nat)) : partAt (parts ++ more) n = partAt parts n := by
  induction parts generalizing n with
  | nil => exact absurd h (Nat.not_lt_zero n)
  | cons first parts ih =>
      obtain ⟨part, size⟩ := first
      rw [extent] at h
      rw [List.cons_append, partAt, partAt]
      split
      · rfl
      · exact ih (by omega)

theorem partAt_append_of_ge {parts : List (Part × Nat)} {n : Nat} (h : extent parts ≤ n)
    (more : List (Part × Nat)) : partAt (parts ++ more) n = partAt more (n - extent parts) := by
  induction parts generalizing n with
  | nil => rfl
  | cons first parts ih =>
      obtain ⟨part, size⟩ := first
      rw [extent] at h
      have hbeyond : ¬ n < size := by omega
      rw [List.cons_append, partAt, if_neg hbeyond, ih (by omega), extent, Nat.sub_sub]

theorem extent_append (parts more : List (Part × Nat)) :
    extent (parts ++ more) = extent parts + extent more := by
  induction parts with
  | nil => exact (Nat.zero_add _).symm
  | cons first parts ih => rw [List.cons_append, extent, ih, extent, Nat.add_assoc]

/-! ## Readers that know where to stop -/

theorem extract_append_past {a : ByteArray} (b : ByteArray) {n : Nat} (h : a.size ≤ n) :
    (a ++ b).extract 0 n = a ++ b.extract 0 (n - a.size) := by
  rw [ByteArray.extract_append, Nat.zero_sub, extract_whole h]

/-- What comes before a cut is what it was cut from, up to its own size. -/
theorem extract_of_cut {bytes short rest : ByteArray} (h : bytes = short ++ rest) :
    bytes.extract 0 short.size = short := by
  rw [h]
  exact ByteArray.extract_append_eq_left rfl

section

variable {α β : Type}

/-- A reader takes certain bytes, whatever comes after them. Of fewer bytes it reports the part in
which they end, the parts being those of the layout. -/
structure Delimits (read : ByteArray → Except Defect (α × ByteArray)) (written : ByteArray) (a : α)
    (layout : List (Part × Nat)) : Prop where
  size : written.size = extent layout
  whole : ∀ rest, read (written ++ rest) = .ok (a, rest)
  cut : ∀ n < written.size, ∃ part, partAt layout n = some part ∧
    read (written.extract 0 n) = .error (.truncated part)

theorem delimits_nothing (a : α) :
    Delimits (fun bytes => .ok (a, bytes)) ByteArray.empty a [] := by
  refine ⟨rfl, ?_, ?_⟩
  · intro rest
    rw [ByteArray.empty_append]
  · intro n hn
    exact absurd hn (Nat.not_lt_zero n)

/-- One reader reads on where the other stops. -/
theorem Delimits.bind {read : ByteArray → Except Defect (α × ByteArray)}
    {k : α × ByteArray → Except Defect (β × ByteArray)} {first second : ByteArray} {a : α} {b : β}
    {parts more : List (Part × Nat)} (hfirst : Delimits read first a parts)
    (hsecond : Delimits (fun rest => k (a, rest)) second b more) :
    Delimits (fun bytes => read bytes >>= k) (first ++ second) b (parts ++ more) := by
  refine ⟨?_, ?_, ?_⟩
  · rw [ByteArray.size_append, hfirst.size, hsecond.size, extent_append]
  · intro rest
    rw [ByteArray.append_assoc, hfirst.whole]
    exact hsecond.whole rest
  · intro n hn
    -- The bytes end in what the first reader takes, or the second one runs short instead.
    by_cases hwithin : n < first.size
    · obtain ⟨part, hpart, hread⟩ := hfirst.cut n hwithin
      refine ⟨part, ?_, ?_⟩
      · rw [partAt_append_of_lt (hfirst.size ▸ hwithin), hpart]
      · rw [extract_append_within second (Nat.le_of_lt hwithin), hread]
        rfl
    · have hbeyond : first.size ≤ n := Nat.le_of_not_lt hwithin
      rw [ByteArray.size_append] at hn
      obtain ⟨part, hpart, hread⟩ := hsecond.cut (n - first.size) (by omega)
      refine ⟨part, ?_, ?_⟩
      · rw [partAt_append_of_ge (hfirst.size ▸ hbeyond), ← hfirst.size, hpart]
      · rw [extract_append_past second hbeyond, hfirst.whole]
        exact hread

end

theorem delimits_take (bytes : ByteArray) (part : Part) :
    Delimits (take bytes.size part) bytes bytes [(part, bytes.size)] := by
  refine ⟨rfl, fun rest => take_append bytes rest part, ?_⟩
  intro n hn
  have hfew : ¬ bytes.size ≤ (bytes.extract 0 n).size := by
    rw [ByteArray.size_extract]
    omega
  exact ⟨part, if_pos hn, if_neg hfew⟩

theorem delimits_takeField {width : Nat} {length bytes : ByteArray} (hwidth : length.size = width)
    (hlength : number length = bytes.size) (lengthPart part : Part) :
    Delimits (takeField width lengthPart part) (length ++ bytes) bytes
      [(lengthPart, width), (part, bytes.size)] := by
  subst hwidth
  have hfield : Delimits (fun rest => take (number length) part rest) bytes bytes
      [(part, bytes.size)] := by
    rw [hlength]
    exact delimits_take bytes part
  exact (delimits_take length lengthPart).bind hfield

theorem delimits_takeField16 {what : String} {bytes field : ByteArray}
    (h : field16 what bytes = .ok field) (lengthPart part : Part) :
    Delimits (takeField 2 lengthPart part) field bytes
      [(lengthPart, 2), (part, bytes.size)] := by
  obtain ⟨hsize, rfl⟩ := field16_eq_ok_iff.mp h
  exact delimits_takeField (size_word16 _) (number_word16 hsize) lengthPart part

theorem delimits_takeField32 {what : String} {bytes field : ByteArray}
    (h : field32 what bytes = .ok field) (lengthPart part : Part) :
    Delimits (takeField 4 lengthPart part) field bytes
      [(lengthPart, 4), (part, bytes.size)] := by
  obtain ⟨hsize, rfl⟩ := field32_eq_ok_iff.mp h
  exact delimits_takeField (size_word32 _) (number_word32 hsize) lengthPart part

theorem delimits_takeText {what text : String} {field : ByteArray}
    (h : field16 what text.toUTF8 = .ok field) (lengthPart part : Part) :
    Delimits (takeText lengthPart part) field text
      [(lengthPart, 2), (part, text.toUTF8.size)] := by
  have hboth : Delimits (takeText lengthPart part) (field ++ ByteArray.empty) text
      ([(lengthPart, 2), (part, text.toUTF8.size)] ++ []) := by
    refine (delimits_takeField16 h lengthPart part).bind ?_
    simp only [fromUTF8?_toUTF8]
    exact delimits_nothing text
  rw [ByteArray.append_empty] at hboth
  exact hboth

theorem delimits_header (t : Tag) : Delimits takeHeader (header t) t [(.header, 2)] := by
  refine ⟨rfl, takeHeader_header t, ?_⟩
  intro n hn
  obtain ⟨part, hpart, hread⟩ := (delimits_take (header t) .header).cut n hn
  refine ⟨part, hpart, ?_⟩
  rw [size_header] at hread
  rw [takeHeader, hread]
  rfl

/-! ## Packets -/

/-- The parts of the body of a packet in their order, and how many bytes each takes. -/
def Packet.layout : Packet → List (Part × Nat)
  | .merge m =>
    [(.header, 2), (.containerNameLength, 2), (.containerName, m.container.toUTF8.size),
      (.keyLength, 4), (.key, m.key.size), (.valueLength, 4), (.value, m.value.size)]
  | .auth c =>
    [(.header, 2), (.groupNameLength, 2), (.groupName, c.group.toUTF8.size),
      (.passwordLength, 2), (.password, c.password.toUTF8.size)]

theorem delimits_packet {p : Packet} {body : ByteArray} (h : p.body = .ok body) :
    Delimits takePacket body p p.layout := by
  cases p with
  | merge m =>
      obtain ⟨container, hcontainer, h⟩ := ok_of_bind h
      obtain ⟨key, hkey, h⟩ := ok_of_bind h
      obtain ⟨value, hvalue, h⟩ := ok_of_bind h
      cases h
      -- Each reader hands on its result in the end, which takes no bytes of its own.
      have hfields : Delimits takeMutation
          (container ++ (key ++ (value ++ ByteArray.empty))) m _ :=
        (delimits_takeText hcontainer .containerNameLength .containerName).bind <|
          (delimits_takeField32 hkey .keyLength .key).bind <|
            (delimits_takeField32 hvalue .valueLength .value).bind (delimits_nothing m)
      have hpacket : Delimits takePacket
          (header .merge ++ ((container ++ (key ++ (value ++ ByteArray.empty))) ++ ByteArray.empty))
          (.merge m) _ :=
        (delimits_header .merge).bind (hfields.bind (delimits_nothing (Packet.merge m)))
      rw [ByteArray.append_empty, ByteArray.append_empty] at hpacket
      exact hpacket
  | auth c =>
      obtain ⟨group, hgroup, h⟩ := ok_of_bind h
      obtain ⟨password, hpassword, h⟩ := ok_of_bind h
      cases h
      have hfields : Delimits takeCredentials (group ++ (password ++ ByteArray.empty)) c _ :=
        (delimits_takeText hgroup .groupNameLength .groupName).bind <|
          (delimits_takeText hpassword .passwordLength .password).bind (delimits_nothing c)
      have hpacket : Delimits takePacket
          (header .auth ++ ((group ++ (password ++ ByteArray.empty)) ++ ByteArray.empty))
          (.auth c) _ :=
        (delimits_header .auth).bind (hfields.bind (delimits_nothing (Packet.auth c)))
      rw [ByteArray.append_empty, ByteArray.append_empty] at hpacket
      exact hpacket

section Body

variable {p : Packet} {body : ByteArray}

theorem ofBody_short (h : p.body = .ok body) {short rest : ByteArray} (hcut : body = short ++ rest)
    (hrest : 1 ≤ rest.size) :
    ∃ part, partAt p.layout short.size = some part ∧
      Packet.ofBody short = .error (.truncated part) := by
  have hless : short.size < body.size := by
    rw [hcut, ByteArray.size_append]
    omega
  obtain ⟨part, hpart, hread⟩ := (delimits_packet h).cut short.size hless
  rw [extract_of_cut hcut] at hread
  refine ⟨part, hpart, ?_⟩
  rw [Packet.ofBody, hread]
  rfl

theorem ofBody_long (h : p.body = .ok body) {more : ByteArray} (hmore : 1 ≤ more.size) :
    Packet.ofBody (body ++ more) = .error (.trailing more.size) := by
  have hleft : ¬ more.size = 0 := by omega
  rw [Packet.ofBody, takePacket_body h more]
  exact if_neg hleft

end Body

theorem ofFrame_few {bytes : ByteArray} (h : bytes.size < 4) :
    Packet.ofFrame bytes = .error (.truncated .lengthPrefix) := by
  have hfew : ¬ 4 ≤ bytes.size := by omega
  have htake : take 4 .lengthPrefix bytes = .error (.truncated .lengthPrefix) := if_neg hfew
  rw [Packet.ofFrame, htake]
  rfl

/-- A frame is refused for the length that it announces if it has another one. -/
theorem ofFrame_wrong {size : Nat} (hword : size < 4294967296) {bytes : ByteArray}
    (h : size ≠ bytes.size) :
    Packet.ofFrame (word32 size ++ bytes) = .error (.wrongLength size bytes.size) := by
  have htake : take 4 .lengthPrefix (word32 size ++ bytes) = .ok (word32 size, bytes) :=
    take_append (word32 size) bytes .lengthPrefix
  rw [Packet.ofFrame, htake]
  show (if number (word32 size) = bytes.size then Packet.ofBody bytes else
    .error (.wrongLength (number (word32 size)) bytes.size)) = _
  rw [number_word32 hword, if_neg h]

theorem ofFrame_short {body short rest : ByteArray} (hword : body.size < 4294967296)
    (hcut : framed body = short ++ rest) (hrest : 1 ≤ rest.size) (hlength : 4 ≤ short.size) :
    Packet.ofFrame short = .error (.wrongLength body.size (short.size - 4)) := by
  have hsizes : 4 + body.size = short.size + rest.size := by
    rw [← size_framed, hcut, ByteArray.size_append]
  have hsplit : short = word32 body.size ++ body.extract 0 (short.size - 4) := by
    calc short = (word32 body.size ++ body).extract 0 short.size := (extract_of_cut hcut).symm
      _ = _ := extract_append_past body hlength
  have hpresent : (body.extract 0 (short.size - 4)).size = short.size - 4 := by
    rw [ByteArray.size_extract]
    omega
  have hread : Packet.ofFrame (word32 body.size ++ body.extract 0 (short.size - 4)) =
      .error (.wrongLength body.size (body.extract 0 (short.size - 4)).size) :=
    ofFrame_wrong hword (by omega)
  rw [← hsplit, hpresent] at hread
  exact hread

/-- Bytes are refused as no packet, and this is what the fault says. -/
def Refused (reading : Except Defect Packet) (why : String) : Prop :=
  reading.mapError Defect.fault = .error (.decoding why)

theorem refused_of_error {reading : Except Defect Packet} {d : Defect} (h : reading = .error d) :
    Refused reading d.message := by
  rw [h]
  rfl

/-- Of a packet that is written: whatever comes before the end of its body is refused because the
part in which it ends is missing, and a body with more behind it is refused with the number of bytes
that are too many. A frame that is cut off or has more behind it is refused for its length. -/
theorem self_delimiting {p : Packet} {frame : ByteArray} (h : p.frame = .ok frame) :
    ∃ body, p.body = .ok body ∧ frame = word32 body.size ++ body ∧
      (∀ short rest : ByteArray, body = short ++ rest → 1 ≤ rest.size →
        ∃ part, partAt p.layout short.size = some part ∧
          Refused (Packet.ofBody short) ("truncated packet: missing " ++ part.name)) ∧
      (∀ more : ByteArray, 1 ≤ more.size →
        Refused (Packet.ofBody (body ++ more))
          (Text.decimal more.size ++ " trailing bytes after packet")) ∧
      (∀ short rest : ByteArray, frame = short ++ rest → 1 ≤ rest.size →
        Refused (Packet.ofFrame short)
          (if short.size < 4 then "truncated packet: missing length prefix"
            else "length prefix says " ++ Text.decimal body.size ++ " bytes, frame has " ++
              Text.decimal (short.size - 4))) ∧
      ∀ more : ByteArray, 1 ≤ more.size →
        Refused (Packet.ofFrame (frame ++ more))
          ("length prefix says " ++ Text.decimal body.size ++ " bytes, frame has " ++
            Text.decimal (body.size + more.size)) := by
  obtain ⟨body, hbody, hsmall, rfl⟩ := body_of_frame h
  have hword : body.size < 4294967296 := Nat.lt_of_le_of_lt hsmall (by decide)
  refine ⟨body, hbody, rfl, ?_, ?_, ?_, ?_⟩
  · intro short rest hcut hrest
    obtain ⟨part, hpart, hread⟩ := ofBody_short hbody hcut hrest
    exact ⟨part, hpart, refused_of_error hread⟩
  · intro more hmore
    exact refused_of_error (ofBody_long hbody hmore)
  · intro short rest hcut hrest
    by_cases hfew : short.size < 4
    · rw [if_pos hfew]
      exact refused_of_error (ofFrame_few hfew)
    · rw [if_neg hfew]
      exact refused_of_error (ofFrame_short hword hcut hrest (Nat.le_of_not_lt hfew))
  · intro more hmore
    have hmissized : body.size ≠ (body ++ more).size := by
      rw [ByteArray.size_append]
      omega
    have hread := ofFrame_wrong hword hmissized
    rw [ByteArray.size_append] at hread
    rw [framed, ByteArray.append_assoc]
    exact refused_of_error hread

/-- A merge whose container name is cut within its only character, and with two bytes too many. -/
theorem self_delimiting_within_character :
    let p : Packet := .merge ⟨"ü", ⟨#[0xaa]⟩, ByteArray.empty⟩
    let body : ByteArray := ⟨#[1, 1, 0, 2, 0xc3, 0xbc, 0, 0, 0, 1, 0xaa, 0, 0, 0, 0]⟩
    p.frame = .ok (word32 15 ++ body) ∧
      Refused (Packet.ofBody ⟨#[1, 1, 0, 2, 0xc3]⟩)
        "truncated packet: missing container name" ∧
      Refused (Packet.ofBody (body ++ ⟨#[0, 0]⟩)) "2 trailing bytes after packet" ∧
      Refused (Packet.ofFrame ⟨#[0, 0, 0, 15, 1, 1]⟩)
        "length prefix says 15 bytes, frame has 2" := by
  intro p body
  have hframe : p.frame = .ok (word32 15 ++ body) := by decide +kernel
  obtain ⟨body', hbody', hframe', hshort, hlong, hcut, -⟩ := self_delimiting hframe
  have hbody : body' = body := by
    have hwritten : p.body = .ok body := by decide +kernel
    exact Except.ok.inj (hbody'.symm.trans hwritten)
  subst hbody
  obtain ⟨part, hpart, hrefused⟩ := hshort ⟨#[1, 1, 0, 2, 0xc3]⟩
    ⟨#[0xbc, 0, 0, 0, 1, 0xaa, 0, 0, 0, 0]⟩ (by decide) (by decide)
  have hname : partAt p.layout 5 = some .containerName := by decide +kernel
  cases hpart.symm.trans hname
  have htext : "length prefix says " ++ Text.decimal 15 ++ " bytes, frame has " ++
      Text.decimal 2 = "length prefix says 15 bytes, frame has 2" := by decide +kernel
  refine ⟨hframe, hrefused, hlong ⟨#[0, 0]⟩ (by decide), ?_⟩
  rw [← htext]
  exact hcut ⟨#[0, 0, 0, 15, 1, 1]⟩
    ⟨#[0, 2, 0xc3, 0xbc, 0, 0, 0, 1, 0xaa, 0, 0, 0, 0]⟩ (by decide) (by decide)

end ClusterRelay.Wire
