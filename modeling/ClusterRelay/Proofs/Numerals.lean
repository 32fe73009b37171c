import ClusterRelay.Text.Numeral
import Mathlib.Data.List.Induction

/-!
# Decimal numerals, written and read

Numbers are written in one way and read in many. `decimal` puts no zero in front and no sign, and
that makes it a token of JSON. The reader of numerals outside of JSON takes zeros in front, as many
as there are, and one plus sign, and asks only that the number stay within a bound: `Numeral` is
what it takes, and `unsigned?_eq_some_iff` says that it takes nothing else.
-/

namespace ClusterRelay.Text

/-! ## Writing -/

theorem toList_decimal (n : Nat) : (decimal n).toList = Nat.toDigits 10 n := by
  show (Nat.repr n).toList = _
  rw [Nat.repr_eq_ofList_toDigits, String.toList_ofList]

theorem isDigit_of_mem_decimal {c : Char} {n : Nat} (h : c ∈ (decimal n).toList) :
    c.isDigit = true := by
  rw [toList_decimal] at h
  exact Nat.isDigit_of_mem_toDigits (by omega) (by omega) h

theorem ofDigits_decimal (n : Nat) : ofDigits (decimal n).toList = n := by
  rw [toList_decimal]
  exact Nat.ofDigitChars_toDigits (by omega) (by omega)

/-- A positive number is not written with a zero in front. -/
theorem head_toDigits {n : Nat} (hn : 0 < n) :
    ∃ d ds, Nat.toDigits 10 n = d :: ds ∧ d ≠ '0' := by
  induction n using Nat.strongRecOn with
  | ind n ih =>
      rw [Nat.toDigits_eq_if (by omega)]
      split
      · next hlt =>
          have hdigit : ∀ n < 10, 0 < n → n.digitChar ≠ '0' := by decide
          exact ⟨n.digitChar, [], rfl, hdigit n hlt hn⟩
      · next hge =>
          obtain ⟨d, ds, hd, hne⟩ := ih (n / 10) (by omega) (by omega)
          exact ⟨d, ds ++ [(n % 10).digitChar], by rw [hd, List.cons_append], hne⟩

theorem decimal_no_leading_zero (n : Nat) (d : Char) (ds : List Char) :
    (decimal n).toList ≠ '0' :: d :: ds := by
  intro h
  rw [toList_decimal] at h
  rcases Nat.eq_zero_or_pos n with rfl | hn
  · cases h
  · obtain ⟨d', ds', hd, hne⟩ := head_toDigits hn
    rw [hd] at h
    cases h
    exact hne rfl

theorem decimal_ne_nil (n : Nat) : (decimal n).toList ≠ [] := by
  rw [toList_decimal]
  exact Nat.toDigits_ne_nil

/-! ## Reading -/

/-- Decimal digits, with or without zeros in front, and the number that they write. -/
inductive Digits : List Char → Nat → Prop where
  | one {c : Char} (hc : c.isDigit = true) : Digits [c] (c.toNat - '0'.toNat)
  | snoc {cs : List Char} {n : Nat} {c : Char} (hcs : Digits cs n) (hc : c.isDigit = true) :
      Digits (cs ++ [c]) (10 * n + (c.toNat - '0'.toNat))

/-- Digits, with at most one plus sign in front. -/
inductive Numeral : List Char → Nat → Prop where
  | plain {cs : List Char} {n : Nat} (h : Digits cs n) : Numeral cs n
  | signed {cs : List Char} {n : Nat} (h : Digits cs n) : Numeral ('+' :: cs) n

theorem Digits.isDigit {cs : List Char} {n : Nat} (h : Digits cs n) :
    cs ≠ [] ∧ ∀ c ∈ cs, c.isDigit = true := by
  induction h with
  | one hc => simp [hc]
  | snoc hcs hc ih =>
      refine ⟨by simp, fun d hd => ?_⟩
      rcases List.mem_append.mp hd with hd | hd
      · exact ih.2 d hd
      · rw [List.mem_singleton.mp hd]
        exact hc

theorem ofDigits_concat (cs : List Char) (c : Char) :
    ofDigits (cs ++ [c]) = 10 * ofDigits cs + digitValue c := by
  rw [ofDigits, List.foldl_append]
  rfl

theorem Digits.ofDigits_eq {cs : List Char} {n : Nat} (h : Digits cs n) : ofDigits cs = n := by
  induction h with
  | @one c hc => exact Nat.zero_add _
  | snoc hcs hc ih => rw [ofDigits_concat, ih, digitValue]

theorem digits_ofDigits {cs : List Char} (hne : cs ≠ []) (h : ∀ c ∈ cs, c.isDigit = true) :
    Digits cs (ofDigits cs) := by
  induction cs using List.reverseRecOn with
  | nil => exact absurd rfl hne
  | append_singleton cs c ih =>
      have hc : c.isDigit = true := h c (by simp)
      rw [ofDigits_concat]
      by_cases hcs : cs = []
      · subst hcs
        have hone : 10 * ofDigits [] + digitValue c = c.toNat - '0'.toNat := Nat.zero_add _
        rw [hone]
        exact .one hc
      · exact .snoc (ih hcs fun d hd => h d (List.mem_append_left _ hd)) hc

theorem digits?_eq_some_iff {cs : List Char} {n : Nat} : digits? cs = some n ↔ Digits cs n := by
  constructor
  · intro h
    unfold digits? at h
    split at h
    · next hdigits =>
        cases h
        exact digits_ofDigits hdigits.1 (List.all_eq_true.mp hdigits.2)
    · cases h
  · intro h
    rw [digits?, if_pos ⟨h.isDigit.1, List.all_eq_true.mpr h.isDigit.2⟩, h.ofDigits_eq]

theorem unsigned?_signed (bound : Nat) (ds : List Char) :
    unsigned? bound ('+' :: ds) = (digits? ds).filter (· ≤ bound) := by
  simp only [unsigned?]
  cases digits? ds with
  | none => rfl
  | some n => simp [Option.filter_some]

theorem unsigned?_plain (bound : Nat) {cs : List Char} (h : ∀ ds, cs ≠ '+' :: ds) :
    unsigned? bound cs = (digits? cs).filter (· ≤ bound) := by
  simp only [unsigned?]
  cases digits? cs with
  | none => rfl
  | some n => simp [Option.filter_some]

/-- A sign is no digit, so a text has one of the two readings at most. -/
theorem unsigned?_eq_some_iff {bound n : Nat} {cs : List Char} :
    unsigned? bound cs = some n ↔ Numeral cs n ∧ n ≤ bound := by
  by_cases hsign : ∃ ds, cs = '+' :: ds
  · obtain ⟨ds, rfl⟩ := hsign
    have hnumeral : Numeral ('+' :: ds) n ↔ Digits ds n := by
      constructor
      · rintro (h | h)
        · have hplus : '+'.isDigit = true := h.isDigit.2 '+' List.mem_cons_self
          cases hplus
        · exact h
      · exact .signed
    rw [unsigned?_signed, hnumeral, ← digits?_eq_some_iff]
    simp
  · have hplain : ∀ ds, cs ≠ '+' :: ds := fun ds heq => hsign ⟨ds, heq⟩
    have hnumeral : Numeral cs n ↔ Digits cs n := by
      constructor
      · rintro (h | h)
        · exact h
        · exact absurd rfl (hplain _)
      · exact .plain
    rw [unsigned?_plain bound hplain, hnumeral, ← digits?_eq_some_iff]
    simp

theorem numeral_decimal (n : Nat) : Numeral (decimal n).toList n := by
  have h := digits_ofDigits (decimal_ne_nil n) fun c => isDigit_of_mem_decimal
  rw [ofDigits_decimal] at h
  exact .plain h

end ClusterRelay.Text
