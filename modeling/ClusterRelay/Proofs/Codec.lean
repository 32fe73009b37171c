import ClusterRelay.Wire.Decode
import Mathlib.Data.List.Forall2

/-!
# What is written can be read back

A body is a header and a few fields, and so is what reads it. So there is one lemma for each
thing that is written: reading it from the head of a string of bytes gives it back together with
whatever came after it. They compose the way the fields do, and at the end of a body nothing is
left over.
-/

namespace ClusterRelay.Wire

theorem ok_of_bind {ε α β : Type} {x : Except ε α} {f : α → Except ε β} {b : β}
    (h : (x >>= f) = .ok b) : ∃ a, x = .ok a ∧ f a = .ok b := by
  cases x with
  | error e => cases h
  | ok a => exact ⟨a, rfl, h⟩

theorem take_append (a rest : ByteArray) (part : Part) :
    take a.size part (a ++ rest) = .ok (a, rest) := by
  have hle : a.size ≤ (a ++ rest).size := by
    rw [ByteArray.size_append]
    exact Nat.le_add_right _ _
  rw [take, if_pos hle, ByteArray.extract_append_eq_left rfl,
    ByteArray.extract_append_eq_right rfl ByteArray.size_append]

theorem takeField_append {width : Nat} {length bytes : ByteArray} (hwidth : length.size = width)
    (hlength : number length = bytes.size) (lengthPart part : Part) (rest : ByteArray) :
    takeField width lengthPart part (length ++ bytes ++ rest) = .ok (bytes, rest) := by
  subst hwidth
  rw [takeField, ByteArray.append_assoc, take_append]
  show take (number length) part (bytes ++ rest) = _
  rw [hlength, take_append]

theorem takeField_field16 {what : String} {bytes field : ByteArray}
    (h : field16 what bytes = .ok field) (lengthPart part : Part) (rest : ByteArray) :
    takeField 2 lengthPart part (field ++ rest) = .ok (bytes, rest) := by
  unfold field16 at h
  split at h
  · next hsize =>
      cases h
      exact takeField_append rfl (number_word16 hsize) lengthPart part rest
  · cases h

theorem takeField_field32 {what : String} {bytes field : ByteArray}
    (h : field32 what bytes = .ok field) (lengthPart part : Part) (rest : ByteArray) :
    takeField 4 lengthPart part (field ++ rest) = .ok (bytes, rest) := by
  unfold field32 at h
  split at h
  · next hsize =>
      cases h
      exact takeField_append rfl (number_word32 hsize) lengthPart part rest
  · cases h

theorem fromUTF8?_toUTF8 (text : String) : String.fromUTF8? text.toUTF8 = some text :=
  dif_pos text.isValidUTF8

theorem takeText_field16 {what text : String} {field : ByteArray}
    (h : field16 what text.toUTF8 = .ok field) (lengthPart part : Part) (rest : ByteArray) :
    takeText lengthPart part (field ++ rest) = .ok (text, rest) := by
  simp only [takeText, takeField_field16 h, bind, Except.bind, fromUTF8?_toUTF8]

theorem takeHeader_header (t : Tag) (rest : ByteArray) :
    takeHeader (header t ++ rest) = .ok (t, rest) := by
  have htake : take 2 .header (header t ++ rest) = .ok (header t, rest) :=
    take_append (header t) rest .header
  rw [takeHeader, htake]
  cases t <;> rfl

theorem takeMutation_merge {m : Mutation} {container key value : ByteArray}
    (hcontainer : field16 "container name" m.container.toUTF8 = .ok container)
    (hkey : field32 "key" m.key = .ok key) (hvalue : field32 "value envelope" m.value = .ok value)
    (rest : ByteArray) :
    takeMutation (container ++ (key ++ (value ++ rest))) = .ok (m, rest) := by
  simp only [takeMutation, takeText_field16 hcontainer, bind, Except.bind,
    takeField_field32 hkey, takeField_field32 hvalue]

theorem takeCredentials_auth {c : Credentials} {group password : ByteArray}
    (hgroup : field16 "group name" c.group.toUTF8 = .ok group)
    (hpassword : field16 "group password" c.password.toUTF8 = .ok password) (rest : ByteArray) :
    takeCredentials (group ++ (password ++ rest)) = .ok (c, rest) := by
  simp only [takeCredentials, takeText_field16 hgroup, bind, Except.bind,
    takeText_field16 hpassword]

theorem takePacket_body {p : Packet} {body : ByteArray} (h : p.body = .ok body)
    (rest : ByteArray) : takePacket (body ++ rest) = .ok (p, rest) := by
  cases p with
  | merge m =>
      obtain ⟨container, hcontainer, h⟩ := ok_of_bind h
      obtain ⟨key, hkey, h⟩ := ok_of_bind h
      obtain ⟨value, hvalue, h⟩ := ok_of_bind h
      cases h
      rw [takePacket, ByteArray.append_assoc, takeHeader_header, ByteArray.append_assoc,
        ByteArray.append_assoc]
      show (takeMutation (container ++ (key ++ (value ++ rest))) >>= fun r =>
        Except.ok (Packet.merge r.1, r.2)) = _
      rw [takeMutation_merge hcontainer hkey hvalue]
      rfl
  | auth c =>
      obtain ⟨group, hgroup, h⟩ := ok_of_bind h
      obtain ⟨password, hpassword, h⟩ := ok_of_bind h
      cases h
      rw [takePacket, ByteArray.append_assoc, takeHeader_header, ByteArray.append_assoc]
      show (takeCredentials (group ++ (password ++ rest)) >>= fun r =>
        Except.ok (Packet.auth r.1, r.2)) = _
      rw [takeCredentials_auth hgroup hpassword]
      rfl

/-- The body of a packet holds that packet. -/
theorem ofBody_body {p : Packet} {body : ByteArray} (h : p.body = .ok body) :
    Packet.ofBody body = .ok p := by
  have hpacket := takePacket_body h ByteArray.empty
  rw [ByteArray.append_empty] at hpacket
  rw [Packet.ofBody, hpacket]
  rfl

/-- A frame that was written is a body that is not too long, behind its length. -/
theorem body_of_frame {p : Packet} {frame : ByteArray} (h : p.frame = .ok frame) :
    ∃ body, p.body = .ok body ∧ body.size ≤ maxBody ∧ frame = framed body := by
  obtain ⟨body, hbody, h⟩ := ok_of_bind h
  split at h
  · next hsize =>
      cases h
      exact ⟨body, hbody, hsize, rfl⟩
  · cases h

/-- Frames that were written one after another, whatever it is that is written as a packet. -/
theorem bodies_of_frames {α : Type} {write : α → Packet} {as : List α} {frames : List ByteArray}
    (h : List.Forall₂ (fun a frame => (write a).frame = .ok frame) as frames) :
    ∃ bs : List ByteArray, List.Forall₂ (fun a body => (write a).body = .ok body) as bs ∧
      (∀ b ∈ bs, b.size ≤ maxBody) ∧ frames = bs.map framed := by
  induction h with
  | nil => exact ⟨[], .nil, nofun, rfl⟩
  | cons hframe _ ih =>
      obtain ⟨body, hbody, hsize, rfl⟩ := body_of_frame hframe
      obtain ⟨bs, hbodies, hsizes, rfl⟩ := ih
      exact ⟨body :: bs, .cons hbody hbodies, List.forall_mem_cons.mpr ⟨hsize, hsizes⟩, rfl⟩

end ClusterRelay.Wire
