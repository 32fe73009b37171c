import ClusterRelay.CommandLine.InputLine
import ClusterRelay.Proofs.Canonical
import ClusterRelay.Proofs.Streams
import ClusterRelay.Proofs.Tokens

/-!
# What a line of input amounts to

The input of the forwarding command comes in lines, and each of them is one of four things. Here
they are told apart without the reader: a line spells a mutation if it is the UTF-8 of a JSON text
whose value describes the mutation, a blank line is the UTF-8 of blank characters, and what is not
the UTF-8 of any text is garbled. A blank line never spells a mutation, though more characters are
blank than may stand between JSON tokens: a text of nothing but blanks has no token at all, or none
that could be its first.

`Comes` tells what the lines of an input come to, up to the first garbled one. The input itself
arrives in chunks, and `lines_of_chunks` says that it does not matter where they end, be it between a
carriage return and its line feed or within a character.
-/

namespace ClusterRelay

namespace Json

namespace Token

theorem first?_of_isBlank {c : Char} (hc : Text.isBlank c = true) (cs : List Char) :
    first? (c :: cs) = none := by
  have hne (d : Char) (hd : Text.isBlank d = false) : c ≠ d := by
    rintro rfl
    rw [hd] at hc
    cases hc
  have hdigit : c.isDigit = false := by
    by_contra hdigit
    rw [Text.isBlank_of_isDigit (Bool.of_not_eq_false hdigit)] at hc
    cases hc
  unfold first?
  split
  case h_11 =>
    have hwhole : whole? (c :: cs) = none := by
      rw [whole?, digitRun, List.takeWhile_cons_of_neg (by simp [hdigit])]
    unfold number?
    split
    · next heq => exact absurd (List.cons.inj heq).1 (hne '-' (by decide))
    · rw [unsignedNumber?, hwhole]
      rfl
  all_goals
    next heq => exact absurd (List.cons.inj heq).1 (hne _ (by decide))

/-- Blank characters are no tokens, whether or not they may stand between tokens. -/
theorem ofChars_of_isBlank {cs : List Char} (h : ∀ c ∈ cs, Text.isBlank c = true) :
    ofChars cs = some [] ∨ ofChars cs = none := by
  rw [ofChars_eq]
  split
  · exact .inl rfl
  · next c rest hrest =>
      have hc : Text.isBlank c = true := by
        apply h
        apply (List.dropWhile_sublist isSpace).subset
        rw [hrest]
        exact List.mem_cons_self
      rw [first?_of_isBlank hc]
      exact .inr rfl

end Token

theorem Value.ofText_of_allBlank {s : String} (h : Text.allBlank s = true) :
    Value.ofText s = none := by
  have hblank : ∀ c ∈ s.toList, Text.isBlank c = true := List.all_eq_true.mp h
  rw [Value.ofText, Value.ofChars]
  rcases Token.ofChars_of_isBlank hblank with hnothing | hnone
  · rw [hnothing]
    rfl
  · rw [hnone]
    rfl

end Json

namespace CommandLine

open Json (Value Members Decoder)
open Wire (joined)

/-- A JSON value describes a mutation: it is an object with one member of each of these names, which
are texts, or an array of three texts. Members with other names do not matter. -/
inductive Describes : Value → Mutation → Prop where
  | object {ms : Members} {container key value : String}
      (hcontainer : ms.values "container" = [.text container])
      (hkey : ms.values "key" = [.text key]) (hvalue : ms.values "value" = [.text value]) :
      Describes (.object ms) ⟨container, key.toUTF8, value.toUTF8⟩
  | array (container key value : String) :
      Describes (.array [.text container, .text key, .text value])
        ⟨container, key.toUTF8, value.toUTF8⟩

/-- A line is the UTF-8 of a JSON text that describes a mutation. -/
def Spells (line : ByteArray) (m : Mutation) : Prop :=
  ∃ s v, line = s.toUTF8 ∧ Value.ofText s = some v ∧ Describes v m

/-- A line that is not the UTF-8 of any text. -/
def Garbled (line : ByteArray) : Prop := ∀ s : String, line ≠ s.toUTF8

theorem text_eq_some_iff {v : Value} {s : String} : Decoder.text v = some s ↔ v = .text s := by
  cases v <;> simp [Decoder.text]

theorem required_text_iff {ms : Members} {name s : String} :
    ms.required name Decoder.text = some s ↔ ms.values name = [.text s] := by
  unfold Members.required
  split
  · next v hv => rw [hv, text_eq_some_iff, List.singleton_inj]
  · next hnone =>
      constructor
      · nofun
      · intro hone
        exact absurd hone (hnone _)

theorem nextItem_text_iff {vs rest : List Value} {s : String} :
    Json.nextItem Decoder.text vs = some (s, rest) ↔ vs = .text s :: rest := by
  cases vs with
  | nil => simp [Json.nextItem]
  | cons v vs => simp [Json.nextItem, text_eq_some_iff]

theorem mutationOfValue_eq_some_iff {v : Value} {m : Mutation} :
    mutationOfValue v = some m ↔ Describes v m := by
  constructor
  · intro h
    cases v with
    | object ms =>
        simp only [mutationOfValue, Option.bind_eq_bind, Option.bind_eq_some_iff,
          required_text_iff] at h
        obtain ⟨container, hcontainer, key, hkey, value, hvalue, hm⟩ := h
        cases hm
        exact .object hcontainer hkey hvalue
    | array items =>
        simp only [mutationOfValue, Option.bind_eq_bind, Option.bind_eq_some_iff, Prod.exists,
          nextItem_text_iff] at h
        obtain ⟨container, _, rfl, key, _, rfl, value, rest, rfl, hm⟩ := h
        cases rest with
        | nil => cases hm; exact .array container key value
        | cons => cases hm
    | _ => cases h
  · rintro (⟨hcontainer, hkey, hvalue⟩ | ⟨container, key, value⟩)
    · simp only [mutationOfValue, required_text_iff.mpr hcontainer, required_text_iff.mpr hkey,
        required_text_iff.mpr hvalue, Option.bind_eq_bind, Option.bind_some]
    · rfl

namespace InputLine

variable {line : ByteArray}

theorem ofBytes_toUTF8 (s : String) : ofBytes s.toUTF8 = ofText s := by
  rw [ofBytes, Wire.fromUTF8?_toUTF8]

theorem ofText_ne_garbled (s : String) : ofText s ≠ .garbled := by
  unfold ofText
  split
  · nofun
  · split <;> nofun

theorem ofBytes_eq_garbled_iff : ofBytes line = .garbled ↔ Garbled line := by
  constructor
  · rintro h s rfl
    rw [ofBytes_toUTF8] at h
    exact ofText_ne_garbled s h
  · intro h
    unfold ofBytes
    split
    · next s hs => exact absurd (Wire.toUTF8_of_fromUTF8? hs) (h s)
    · rfl

theorem exists_of_ne_garbled (h : ofBytes line ≠ .garbled) :
    ∃ s : String, line = s.toUTF8 ∧ ofBytes line = ofText s := by
  rw [Ne, ofBytes_eq_garbled_iff, Garbled] at h
  push Not at h
  obtain ⟨s, rfl⟩ := h
  exact ⟨s, rfl, ofBytes_toUTF8 s⟩

theorem ofText_eq_mutation_iff {s : String} {m : Mutation} :
    ofText s = .mutation m ↔ ∃ v, Value.ofText s = some v ∧ Describes v m := by
  simp only [← mutationOfValue_eq_some_iff, ← Option.bind_eq_some_iff]
  unfold ofText
  split
  · next hblank => simp [Json.Value.ofText_of_allBlank hblank]
  · split
    · next m' hm' => rw [hm', mutation.injEq, Option.some_inj]
    · next hnone => simp [hnone]

theorem ofBytes_eq_mutation_iff {m : Mutation} :
    ofBytes line = .mutation m ↔ Spells line m := by
  constructor
  · intro h
    have hne : ofBytes line ≠ .garbled := by rw [h]; nofun
    obtain ⟨s, rfl, hs⟩ := exists_of_ne_garbled hne
    obtain ⟨v, hv, hm⟩ := ofText_eq_mutation_iff.mp (hs.symm.trans h)
    exact ⟨s, v, rfl, hv, hm⟩
  · rintro ⟨s, v, rfl, hv, hm⟩
    rw [ofBytes_toUTF8]
    exact ofText_eq_mutation_iff.mpr ⟨v, hv, hm⟩

theorem ofBytes_eq_blank_iff :
    ofBytes line = .blank ↔ ∃ s : String, line = s.toUTF8 ∧ Text.allBlank s = true := by
  have htext (s : String) : ofText s = .blank ↔ Text.allBlank s = true := by
    unfold ofText
    split
    · next hblank => simp [hblank]
    · next hblank => split <;> simp [hblank]
  constructor
  · intro h
    have hne : ofBytes line ≠ .garbled := by rw [h]; nofun
    obtain ⟨s, rfl, hs⟩ := exists_of_ne_garbled hne
    exact ⟨s, rfl, (htext s).mp (hs.symm.trans h)⟩
  · rintro ⟨s, rfl, hblank⟩
    rw [ofBytes_toUTF8]
    exact (htext s).mpr hblank

/-- A malformed line is a text, but neither blank nor the spelling of a mutation. -/
theorem ofBytes_eq_malformed_iff : ofBytes line = .malformed ↔
    ∃ s : String, line = s.toUTF8 ∧ Text.allBlank s = false ∧ ∀ m, ¬ Spells line m := by
  have hspells : (∀ m, ¬ Spells line m) ↔ ∀ m, ofBytes line ≠ .mutation m := by
    simp only [Ne, ofBytes_eq_mutation_iff]
  rw [hspells]
  constructor
  · intro h
    have hne : ofBytes line ≠ .garbled := by rw [h]; nofun
    obtain ⟨s, rfl, -⟩ := exists_of_ne_garbled hne
    refine ⟨s, rfl, Bool.eq_false_iff.mpr fun hblank => ?_, by rw [h]; nofun⟩
    rw [ofBytes_eq_blank_iff.mpr ⟨s, rfl, hblank⟩] at h
    cases h
  · rintro ⟨s, rfl, hblank, hnone⟩
    rw [ofBytes_toUTF8] at hnone ⊢
    unfold ofText at hnone ⊢
    rw [if_neg (by simp [hblank])] at hnone ⊢
    split
    · next m hm =>
        rw [hm] at hnone
        exact absurd rfl (hnone m)
    · rfl

end InputLine

/-! ## Lines and what they come to -/

/-- These lines are texts; some are blank, so many are malformed, and the others spell these
mutations. -/
inductive Comes : List ByteArray → List Mutation → Nat → Prop where
  | nil : Comes [] [] 0
  | mutation {line : ByteArray} {m : Mutation} {lines : List ByteArray} {ms : List Mutation}
      {bad : Nat} (hspells : Spells line m) (h : Comes lines ms bad) :
      Comes (line :: lines) (m :: ms) bad
  | blank {s : String} {lines : List ByteArray} {ms : List Mutation} {bad : Nat}
      (hblank : Text.allBlank s = true) (h : Comes lines ms bad) :
      Comes (s.toUTF8 :: lines) ms bad
  | malformed {s : String} {lines : List ByteArray} {ms : List Mutation} {bad : Nat}
      (hblank : Text.allBlank s = false) (hnone : ∀ m, ¬ Spells s.toUTF8 m)
      (h : Comes lines ms bad) : Comes (s.toUTF8 :: lines) ms (bad + 1)

def InputLine.mutation? : InputLine → Option Mutation
  | .mutation m => some m
  | _ => none

/-- What lines come to can be computed. -/
theorem Comes.computed {lines : List ByteArray} {ms : List Mutation} {bad : Nat}
    (h : Comes lines ms bad) :
    ms = lines.filterMap (fun line => (InputLine.ofBytes line).mutation?) ∧
      bad = lines.countP (fun line => InputLine.ofBytes line = .malformed) := by
  induction h with
  | nil => exact ⟨rfl, rfl⟩
  | mutation hspells _ ih =>
      have hline := InputLine.ofBytes_eq_mutation_iff.mpr hspells
      rw [List.filterMap_cons, List.countP_cons, hline, ← ih.1, ← ih.2]
      exact ⟨rfl, rfl⟩
  | @blank s _ _ _ hblank _ ih =>
      have hline := InputLine.ofBytes_eq_blank_iff.mpr ⟨s, rfl, hblank⟩
      rw [List.filterMap_cons, List.countP_cons, hline, ← ih.1, ← ih.2]
      exact ⟨rfl, rfl⟩
  | @malformed s _ _ _ hblank hnone _ ih =>
      have hline := InputLine.ofBytes_eq_malformed_iff.mpr ⟨s, rfl, hblank, hnone⟩
      rw [List.filterMap_cons, List.countP_cons, hline, ← ih.1, ← ih.2]
      exact ⟨rfl, rfl⟩

/-- Up to the first garbled line every line comes to something. -/
theorem exists_comes (lines : List ByteArray) : ∃ read ms bad, Comes read ms bad ∧
    (lines = read ∨ ∃ line rest, lines = read ++ line :: rest ∧ Garbled line) := by
  induction lines with
  | nil => exact ⟨[], [], 0, .nil, .inl rfl⟩
  | cons line lines ih =>
      obtain ⟨read, ms, bad, hcomes, hrest⟩ := ih
      have hmore : line :: lines = line :: read ∨
          ∃ line' rest, line :: lines = (line :: read) ++ line' :: rest ∧ Garbled line' := by
        rcases hrest with hall | ⟨line', rest, hsplit, hgarbled⟩
        · exact .inl (by rw [hall])
        · exact .inr ⟨line', rest, by rw [hsplit, List.cons_append], hgarbled⟩
      cases hline : InputLine.ofBytes line with
      | mutation m =>
          exact ⟨_, _, _, .mutation (InputLine.ofBytes_eq_mutation_iff.mp hline) hcomes, hmore⟩
      | blank =>
          obtain ⟨s, rfl, hblank⟩ := InputLine.ofBytes_eq_blank_iff.mp hline
          exact ⟨_, _, _, .blank hblank hcomes, hmore⟩
      | malformed =>
          obtain ⟨s, rfl, hblank, hnone⟩ := InputLine.ofBytes_eq_malformed_iff.mp hline
          exact ⟨_, _, _, .malformed hblank hnone hcomes, hmore⟩
      | garbled =>
          exact ⟨[], [], 0, .nil,
            .inr ⟨line, lines, rfl, InputLine.ofBytes_eq_garbled_iff.mp hline⟩⟩

/-! ## Lines and chunks -/

theorem toList_loop (bytes : ByteArray) (i : Nat) (taken : List UInt8) :
    ByteArray.toList.loop bytes i taken = taken.reverse ++ bytes.data.toList.drop i := by
  fun_induction ByteArray.toList.loop bytes i taken with
  | case1 i taken hlt ih =>
      rw [ih, List.reverse_cons, List.append_assoc, List.singleton_append]
      have hget : bytes.data.toList.drop i = bytes.get! i :: bytes.data.toList.drop (i + 1) := by
        have hlength : i < bytes.data.toList.length := by simpa using hlt
        rw [List.drop_eq_getElem_cons hlength]
        congr 1
        show bytes.data.toList[i] = bytes.data[i]!
        rw [getElem!_pos bytes.data i hlt, Array.getElem_toList]
      rw [hget]
  | case2 i taken hge =>
      rw [List.drop_eq_nil_of_le, List.append_nil]
      simpa using hge

theorem toList_append (a b : ByteArray) : (a ++ b).toList = a.toList ++ b.toList := by
  have htoList (bytes : ByteArray) : bytes.toList = bytes.data.toList := toList_loop bytes 0 []
  rw [htoList, htoList, htoList, ByteArray.data_append, Array.toList_append]

theorem exists_last_part (x : UInt8) (xs : List UInt8) :
    ∃ init last, xs.splitOn x = init ++ [last] :=
  ⟨_, _, (List.dropLast_append_getLast (List.splitOn_ne_nil x xs)).symm⟩

theorem splitOn_append (x : UInt8) (xs ys : List UInt8) :
    (xs ++ ys).splitOn x =
      (xs.splitOn x).dropLast ++ ((xs.splitOn x).getLastD [] ++ ys).splitOn x := by
  induction xs with
  | nil => simp
  | cons c xs ih =>
      obtain ⟨init, last, hparts⟩ := exists_last_part x xs
      rw [hparts, List.dropLast_concat, List.getLastD_concat] at ih
      simp only [List.splitOn, List.cons_append, List.splitOnP_cons_eq_if_modifyHead] at ih hparts ⊢
      by_cases hc : (c == x) = true
      · rw [if_pos hc, if_pos hc, ih, hparts, ← List.cons_append, ← List.cons_append,
          List.dropLast_concat, List.getLastD_concat]
      · rw [if_neg hc, if_neg hc, ih, hparts]
        cases init with
        | nil =>
            show _ = ((c :: last) ++ ys).splitOnP (· == x)
            rw [List.cons_append, List.splitOnP_cons_eq_if_modifyHead, if_neg hc]
            rfl
        | cons part init =>
            show (c :: part) :: (init ++ _) = (((c :: part) :: init) ++ [last]).dropLast ++
              (((((c :: part) :: init) ++ [last]).getLastD []) ++ ys).splitOnP (· == x)
            rw [List.dropLast_concat, List.getLastD_concat]
            rfl

namespace LineReader

theorem feed_append (r : LineReader) (a b : ByteArray) :
    r.feed (a ++ b) = ((r.feed a).1 ++ ((r.feed a).2.feed b).1, ((r.feed a).2.feed b).2) := by
  obtain ⟨init, last, hparts⟩ := exists_last_part 10 (r.left ++ a.toList)
  have hboth : (r.left ++ (a ++ b).toList).splitOn 10 = init ++ (last ++ b.toList).splitOn 10 := by
    rw [toList_append, ← List.append_assoc, splitOn_append, hparts, List.dropLast_concat,
      List.getLastD_concat]
  obtain ⟨more, rest, hmore⟩ := exists_last_part 10 (last ++ b.toList)
  simp only [feed, hboth, hparts, hmore, ← List.append_assoc, List.dropLast_concat,
    List.getLastD_concat, List.map_append]

/-- After a chunk nothing is left that an empty chunk could bring out. -/
theorem feed_empty (r : LineReader) (chunk : ByteArray) :
    (r.feed chunk).2.feed ByteArray.empty = ([], (r.feed chunk).2) := by
  have happend := r.feed_append chunk ByteArray.empty
  rw [ByteArray.append_empty] at happend
  obtain ⟨hlines, hleft⟩ := Prod.ext_iff.mp happend
  exact Prod.ext (List.self_eq_append_right.mp hlines) hleft.symm

/-- The lines of an input that comes in chunks. -/
def linesOfChunks (r : LineReader) : List ByteArray → List ByteArray
  | [] => r.finish
  | chunk :: chunks => (r.feed chunk).1 ++ (r.feed chunk).2.linesOfChunks chunks

theorem linesOfChunks_eq {r : LineReader} (hr : r.feed ByteArray.empty = ([], r))
    (chunks : List ByteArray) :
    r.linesOfChunks chunks = (r.feed (joined chunks)).1 ++ (r.feed (joined chunks)).2.finish := by
  induction chunks generalizing r with
  | nil =>
      rw [joined, hr]
      rfl
  | cons chunk chunks ih =>
      rw [linesOfChunks, ih (r.feed_empty chunk), joined, feed_append, List.append_assoc]

end LineReader

/-- How the input is cut into chunks makes no difference to its lines. -/
theorem lines_of_chunks (chunks : List ByteArray) :
    ({} : LineReader).linesOfChunks chunks = linesOfInput (joined chunks) :=
  LineReader.linesOfChunks_eq (by decide +kernel) chunks

end CommandLine

end ClusterRelay
