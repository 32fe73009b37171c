import ClusterRelay.Wire.Framer

/-!
# Frames in a stream, however it arrives

`bodies` looks at a whole string of bytes, while a `Framer` sees it in chunks. Both find the same
frames, because what stands at the head of a stream is decided by the bytes that belong to it: a
complete frame stays the same frame, and a length that is too great stays too great, whatever
comes after (`cut_append`). So a framer that has been fed some chunks has found the bodies of their
concatenation and is left with the same remainder: `bodies_append`, `feedAll_eq_bodies`.

A stream of frames that is cut off somewhere holds the frames that lie wholly before the cut:
`bodies_cut`.
-/

namespace ClusterRelay.Wire

/-- The bytes of chunks that arrive one after another. -/
def joined : List ByteArray → ByteArray
  | [] => ByteArray.empty
  | chunk :: chunks => chunk ++ joined chunks

theorem joined_append (chunks more : List ByteArray) :
    joined (chunks ++ more) = joined chunks ++ joined more := by
  induction chunks with
  | nil => exact ByteArray.empty_append.symm
  | cons chunk chunks ih => rw [List.cons_append, joined, ih, joined, ByteArray.append_assoc]

/-! ## One frame -/

theorem size_framed (body : ByteArray) : (framed body).size = 4 + body.size := by
  rw [framed, ByteArray.size_append, size_word32]

theorem extract_whole {a : ByteArray} {n : Nat} (h : a.size ≤ n) : a.extract 0 n = a := by
  ext1
  rw [ByteArray.data_extract]
  exact Array.extract_eq_self_of_le h

theorem extract_append_rest (a : ByteArray) (n : Nat) : a.extract 0 n ++ a.extract n a.size = a := by
  rw [ByteArray.extract_append_extract, Nat.zero_min]
  exact extract_whole (Nat.le_max_right n a.size)

theorem extract_append_within {a : ByteArray} (b : ByteArray) {i j : Nat} (h : j ≤ a.size) :
    (a ++ b).extract i j = a.extract i j := by
  have hnone : b.extract (i - a.size) (j - a.size) = ByteArray.empty := by
    rw [ByteArray.extract_eq_empty_iff, Nat.sub_eq_zero_of_le h]
    omega
  rw [ByteArray.extract_append, hnone, ByteArray.append_empty]

theorem extract_append_from {a : ByteArray} (b : ByteArray) {i : Nat} (h : i ≤ a.size) :
    (a ++ b).extract i (a ++ b).size = a.extract i a.size ++ b := by
  have hleft : a.extract i (a.size + b.size) = a.extract i a.size := by
    ext1
    rw [ByteArray.data_extract, ByteArray.data_extract, Array.extract_eq_extract_right]
    rw [ByteArray.size_data]
    omega
  have hright : b.extract (i - a.size) (a.size + b.size - a.size) = b := by
    rw [Nat.sub_eq_zero_of_le h, Nat.add_sub_cancel_left, ByteArray.extract_zero_size]
  rw [ByteArray.size_append, ByteArray.extract_append, hleft, hright]

theorem cut_framed {body : ByteArray} (h : body.size ≤ maxBody) (rest : ByteArray) :
    cut (framed body ++ rest) = .frame body rest := by
  have hsize : (framed body ++ rest).size = 4 + body.size + rest.size := by
    rw [ByteArray.size_append, size_framed]
  have hlength : number ((framed body ++ rest).extract 0 4) = body.size := by
    rw [framed, ByteArray.append_assoc, ByteArray.extract_append_eq_left (size_word32 _).symm]
    exact number_word32 (Nat.lt_of_le_of_lt h (by decide))
  have hbody : (framed body ++ rest).extract 4 (4 + body.size) = body := by
    rw [extract_append_within rest (Nat.le_of_eq (size_framed body).symm), framed]
    exact ByteArray.extract_append_eq_right rfl rfl
  have hrest : (framed body ++ rest).extract (4 + body.size) (framed body ++ rest).size = rest := by
    rw [hsize]
    exact ByteArray.extract_append_eq_right (size_framed body).symm (by rw [size_framed])
  rw [cut, if_neg (by omega)]
  simp only [hlength]
  rw [if_neg (by omega), if_neg (by omega), hbody, hrest]

theorem of_cut_short {bytes : ByteArray} (h : cut bytes = .short) :
    bytes.size < 4 ∨ 4 ≤ bytes.size ∧ number (bytes.extract 0 4) ≤ maxBody ∧
      bytes.size < 4 + number (bytes.extract 0 4) := by
  unfold cut at h
  simp only at h
  split at h
  · next hfew => exact Or.inl hfew
  · split at h
    · cases h
    · split at h
      · exact Or.inr ⟨by omega, by omega, by omega⟩
      · cases h

theorem of_cut_oversize {bytes : ByteArray} {size : Nat} (h : cut bytes = .oversize size) :
    4 ≤ bytes.size ∧ size = number (bytes.extract 0 4) ∧ maxBody < size := by
  unfold cut at h
  simp only at h
  split at h
  · cases h
  · split at h
    · next hlong hgreat =>
        obtain rfl := Cut.oversize.inj h
        exact ⟨Nat.le_of_not_lt hlong, rfl, hgreat⟩
    · split at h <;> cases h

theorem of_cut_frame {bytes body rest : ByteArray} (h : cut bytes = .frame body rest) :
    number (bytes.extract 0 4) ≤ maxBody ∧ 4 + number (bytes.extract 0 4) ≤ bytes.size ∧
      body = bytes.extract 4 (4 + number (bytes.extract 0 4)) ∧
      rest = bytes.extract (4 + number (bytes.extract 0 4)) bytes.size := by
  unfold cut at h
  simp only at h
  split at h
  · cases h
  · split at h
    · cases h
    · split at h
      · cases h
      · obtain ⟨rfl, rfl⟩ := Cut.frame.inj h
        exact ⟨by omega, by omega, rfl, rfl⟩

/-- More bytes do not make a complete frame another one. -/
theorem cut_append_frame {bytes body rest : ByteArray} (h : cut bytes = .frame body rest)
    (more : ByteArray) : cut (bytes ++ more) = .frame body (rest ++ more) := by
  obtain ⟨hsmall, hfull, rfl, rfl⟩ := of_cut_frame h
  have hmore : bytes.size ≤ (bytes ++ more).size := by
    rw [ByteArray.size_append]
    omega
  have hlength : (bytes ++ more).extract 0 4 = bytes.extract 0 4 :=
    extract_append_within more (by omega)
  rw [cut, if_neg (by omega)]
  simp only [hlength]
  rw [if_neg (by omega), if_neg (by omega), extract_append_within more (by omega),
    extract_append_from more (by omega)]

theorem cut_append_oversize {bytes : ByteArray} {size : Nat} (h : cut bytes = .oversize size)
    (more : ByteArray) : cut (bytes ++ more) = .oversize size := by
  obtain ⟨hlong, rfl, hgreat⟩ := of_cut_oversize h
  have hmore : bytes.size ≤ (bytes ++ more).size := by
    rw [ByteArray.size_append]
    omega
  have hlength : (bytes ++ more).extract 0 4 = bytes.extract 0 4 :=
    extract_append_within more (by omega)
  rw [cut, if_neg (by omega)]
  simp only [hlength]
  rw [if_pos hgreat]

theorem cut_short {body : ByteArray} (h : body.size ≤ maxBody) {rest : ByteArray} {n : Nat}
    (hn : n < (framed body).size) : cut ((framed body ++ rest).extract 0 n) = .short := by
  have hsize : ((framed body ++ rest).extract 0 n).size = n := by
    rw [ByteArray.size_extract, ByteArray.size_append]
    omega
  unfold cut
  simp only [hsize]
  split
  · rfl
  · next hfour =>
      have hlength : number (((framed body ++ rest).extract 0 n).extract 0 4) = body.size := by
        rw [ByteArray.extract_extract, Nat.zero_add, Nat.zero_add, Nat.min_eq_left (by omega),
          framed, ByteArray.append_assoc, ByteArray.extract_append_eq_left (size_word32 _).symm]
        exact number_word32 (Nat.lt_of_le_of_lt h (by decide))
      rw [size_framed] at hn
      rw [hlength, if_neg (by omega), if_pos hn]

/-! ## Streams in chunks -/

theorem bodies_short {bytes : ByteArray} (h : cut bytes = .short) :
    bodies bytes = ([], .unfinished bytes) := by
  rw [bodies]
  split <;> simp_all

theorem bodies_oversize {bytes : ByteArray} {size : Nat} (h : cut bytes = .oversize size) :
    bodies bytes = ([], .oversize size) := by
  rw [bodies]
  split <;> simp_all

theorem bodies_frame {bytes body rest : ByteArray} (h : cut bytes = .frame body rest) :
    bodies bytes = (body :: (bodies rest).1, (bodies rest).2) := by
  rw [bodies]
  split <;> simp_all

/-- What a string of bytes holds is what its beginning holds, followed by what the remainder of
that and the rest hold. -/
theorem bodies_append (bytes more : ByteArray) :
    bodies (bytes ++ more) =
      ((bodies bytes).1 ++ ((Framer.mk (bodies bytes).2).feed more).1,
        ((Framer.mk (bodies bytes).2).feed more).2.left) := by
  cases h : cut bytes with
  | short => rw [bodies_short h, Framer.feed, List.nil_append]
  | oversize size => rw [bodies_oversize h, bodies_oversize (cut_append_oversize h more)]; rfl
  | frame body rest =>
      have hless := size_lt_of_cut h
      rw [bodies_frame h, bodies_frame (cut_append_frame h more), bodies_append rest more]
      rfl
termination_by bytes.size

theorem feedAll_eq_bodies (seen : ByteArray) (chunks : List ByteArray) :
    bodies (seen ++ joined chunks) =
      ((bodies seen).1 ++ ((Framer.mk (bodies seen).2).feedAll chunks).1,
        ((Framer.mk (bodies seen).2).feedAll chunks).2.left) := by
  induction chunks generalizing seen with
  | nil => simp [joined, Framer.feedAll]
  | cons chunk chunks ih =>
      have hchunk := bodies_append seen chunk
      have hall := ih (seen ++ chunk)
      rw [joined, ← ByteArray.append_assoc, hall, hchunk]
      simp only [Framer.feedAll, List.append_assoc]

theorem bodies_empty : bodies ByteArray.empty = ([], .unfinished ByteArray.empty) :=
  bodies_short rfl

/-- However a stream is cut into chunks, a framer finds the bodies that the stream holds. -/
theorem feedAll_fresh (chunks : List ByteArray) :
    Framer.feedAll {} chunks = ((bodies (joined chunks)).1, ⟨(bodies (joined chunks)).2⟩) := by
  have h := feedAll_eq_bodies ByteArray.empty chunks
  rw [bodies_empty, ByteArray.empty_append, List.nil_append] at h
  rw [h]

/-! ## Streams that are cut off -/

/-- How many of the pieces of a stream lie wholly within its first `n` bytes. -/
def wholeWithin (n : Nat) : List ByteArray → Nat
  | [] => 0
  | piece :: pieces => if piece.size ≤ n then wholeWithin (n - piece.size) pieces + 1 else 0

theorem wholeWithin_le (n : Nat) (pieces : List ByteArray) :
    wholeWithin n pieces ≤ pieces.length := by
  induction pieces generalizing n with
  | nil => exact Nat.le_refl 0
  | cons piece pieces ih =>
      rw [wholeWithin, List.length_cons]
      split
      · exact Nat.succ_le_succ (ih _)
      · exact Nat.zero_le _

/-- A piece lies wholly within the first `n` bytes if it ends there, offsets counted from the
beginning of the stream. -/
theorem lt_wholeWithin_iff {pieces : List ByteArray} {n i : Nat} (hi : i < pieces.length) :
    i < wholeWithin n pieces ↔ (joined (pieces.take (i + 1))).size ≤ n := by
  induction pieces generalizing n i with
  | nil => exact absurd hi (Nat.not_lt_zero i)
  | cons piece pieces ih =>
      rw [wholeWithin, List.take_succ_cons, joined, ByteArray.size_append]
      split
      · next hfits =>
          cases i with
          | zero =>
              rw [List.take_zero, joined, ByteArray.size_empty]
              omega
          | succ i =>
              have hrest := @ih (n - piece.size) i (Nat.lt_of_succ_lt_succ hi)
              omega
      · next hfits => omega

/-- A stream of frames that is cut off holds the frames that lie wholly before the cut. -/
theorem bodies_cut {bs : List ByteArray} (h : ∀ b ∈ bs, b.size ≤ maxBody) (n : Nat) :
    (bodies ((joined (bs.map framed)).extract 0 n)).1 =
      bs.take (wholeWithin n (bs.map framed)) := by
  induction bs generalizing n with
  | nil =>
      have hnone : (joined []).extract 0 n = ByteArray.empty := by
        rw [ByteArray.extract_eq_empty_iff]
        exact Nat.min_le_right _ _
      rw [List.map_nil, hnone, bodies_empty, List.take_nil]
  | cons b bs ih =>
      have hb := h b List.mem_cons_self
      rw [List.map_cons, joined, wholeWithin]
      split
      · next hfits =>
          rw [ByteArray.extract_append, extract_whole hfits, Nat.zero_sub,
            bodies_frame (cut_framed hb _), ih fun b' hb' => h b' (List.mem_cons_of_mem _ hb')]
          rfl
      · next hfits =>
          rw [bodies_short (cut_short hb (Nat.lt_of_not_le hfits)), List.take_zero]

end ClusterRelay.Wire
