import ClusterRelay.Pacing
import Mathlib.Algebra.Group.Nat.Defs

/-!
# How far delays double

The delay after a poll is a multiple of the base, cut off at the cap, and the multiples double from
poll to poll. They are numbers of thirty-two bits, though. After thirty-one doublings the next one
does not fit, and the factor stays for good at the greatest number that does. Where this factor is
enough to get from the base to the cap (`Spans`) nothing is lost: the delays double until the cap is
reached. Where it is not, the thirty-second doubling comes out short, and the delays stop below the
cap however long the visit lasts.

The arithmetic on delays is cut off at the longest delay there is. A cap is no longer than that, so
it hides the cut, and everything can be said in natural numbers.
-/

namespace ClusterRelay

namespace Schedule

/-- The greatest factor takes the base to the cap, if any does. -/
def Spans (base cap : Delay) : Prop :=
  base.nanos = 0 ∨ cap.nanos ≤ base.nanos * (2 ^ 32 - 1)

theorem growth_of_lt {n : Nat} (h : n < 32) : growth n = 2 ^ n := by
  rw [growth, if_pos h, Nat.one_shiftLeft]

theorem growth_of_ge {n : Nat} (h : 32 ≤ n) : growth n = 2 ^ 32 - 1 := by
  have hbeyond : ¬ n < 32 := by omega
  exact (if_neg hbeyond).trans (by decide)

theorem growth_mono {m n : Nat} (h : m ≤ n) : growth m ≤ growth n := by
  by_cases hn : n < 32
  · rw [growth_of_lt hn, growth_of_lt (by omega)]
    exact Nat.pow_le_pow_right (by omega) h
  · rw [growth_of_ge (n := n) (by omega)]
    by_cases hm : m < 32
    · rw [growth_of_lt hm]
      have hpow : 2 ^ m ≤ 2 ^ 31 := Nat.pow_le_pow_right (by omega) (by omega)
      omega
    · exact Nat.le_of_eq (growth_of_ge (by omega))

section

variable {base cap : Delay}

theorem nanos_pollDelay (attempts : Nat) (hcap : cap.nanos ≤ Delay.max.nanos) (n : Nat) :
    ((exponential attempts base cap).pollDelay n).nanos =
      min (base.nanos * growth n) cap.nanos := by
  simp only [pollDelay, Delay.shorter, Delay.times]
  omega

/-- The factor of thirty-two bits does for a power of two just if the power is in range or the cap
hides the difference. -/
theorem min_growth_iff (base cap : Delay) (n : Nat) :
    min (base.nanos * growth n) cap.nanos = min (base.nanos * 2 ^ n) cap.nanos ↔
      n < 32 ∨ Spans base cap := by
  by_cases hn : n < 32
  · rw [growth_of_lt hn]
    exact ⟨fun _ => .inl hn, fun _ => rfl⟩
  · rw [growth_of_ge (by omega), Spans]
    -- Beyond the range the power exceeds the factor, by one base at least.
    have hpow : 2 ^ 32 ≤ 2 ^ n := Nat.pow_le_pow_right (by omega) (by omega)
    have hmore : base.nanos * (2 ^ 32 - 1) + base.nanos ≤ base.nanos * 2 ^ n := by
      calc base.nanos * (2 ^ 32 - 1) + base.nanos = base.nanos * 2 ^ 32 := by omega
        _ ≤ base.nanos * 2 ^ n := Nat.mul_le_mul_left _ hpow
    by_cases hzero : base.nanos = 0
    · simp [hzero]
    · omega

theorem min_double_iff (base cap : Delay) (n : Nat) :
    min (base.nanos * growth (n + 1)) cap.nanos =
        min (2 * min (base.nanos * growth n) cap.nanos) cap.nanos ↔
      n + 1 < 32 ∨ Spans base cap := by
  by_cases hn : n + 1 < 32
  · have hdouble : base.nanos * growth (n + 1) = 2 * (base.nanos * growth n) := by
      rw [growth_of_lt hn, growth_of_lt (by omega), Nat.pow_succ, ← Nat.mul_assoc, Nat.mul_comm]
    rw [hdouble]
    omega
  · rw [growth_of_ge (n := n + 1) (by omega), Spans]
    by_cases hlast : n = 31
    · subst hlast
      rw [growth_of_lt (by omega)]
      omega
    · rw [growth_of_ge (by omega)]
      omega

end

/-- The delays never get shorter and never exceed the cap. As long as there are at most thirty-one
doublings, and for good if the factors span the way from the base to the cap, they are the base
times a power of two up to the cap, and each is twice the one before up to the cap. Otherwise the
thirty-second doubling falls short of that, and no delay is longer. -/
theorem delays_double (attempts : Nat) (base cap : Delay)
    (hcap : cap.nanos ≤ Delay.max.nanos) :
    let delay := fun n => ((exponential attempts base cap).pollDelay n).nanos
    (∀ n, delay n = min (base.nanos * 2 ^ n) cap.nanos ↔ n < 32 ∨ Spans base cap) ∧
    (∀ n, delay (n + 1) = min (2 * delay n) cap.nanos ↔ n + 1 < 32 ∨ Spans base cap) ∧
    (∀ n, 32 ≤ n → delay n = min (base.nanos * (2 ^ 32 - 1)) cap.nanos) ∧
    (∀ m n, m ≤ n → delay m ≤ delay n) ∧ ∀ n, delay n ≤ cap.nanos := by
  intro delay
  have hdelay (n : Nat) : delay n = min (base.nanos * growth n) cap.nanos :=
    nanos_pollDelay attempts hcap n
  simp only [hdelay]
  refine ⟨min_growth_iff base cap, min_double_iff base cap, ?_, ?_, ?_⟩
  · intro n hn
    rw [growth_of_ge hn]
  · intro m n h
    have hfactor := Nat.mul_le_mul_left base.nanos (growth_mono h)
    omega
  · intro n
    exact Nat.min_le_right _ _

/-- From one nanosecond the delays double thirty-one times, once more by one nanosecond less, and
never get to ten seconds. -/
theorem delays_double_from_nanosecond :
    let base : Delay := ⟨1⟩
    let cap := Delay.parts 10 0
    let delay := fun n => ((exponential 40 base cap).pollDelay n).nanos
    cap.nanos ≤ Delay.max.nanos ∧ delay 31 = 2147483648 ∧
      delay 32 ≠ min (2 * delay 31) cap.nanos ∧
      ∀ n, 32 ≤ n → delay n = 4294967295 := by
  intro base cap delay
  have hcap : cap.nanos ≤ Delay.max.nanos := by decide
  have hshort : ¬ Spans base cap := by
    rintro (hzero | hspans)
    · exact absurd hzero (by decide)
    · exact absurd hspans (by decide)
  obtain ⟨hexact, hdouble, hlate, -, -⟩ := delays_double 40 base cap hcap
  refine ⟨hcap, ?_, ?_, ?_⟩
  · exact ((hexact 31).mpr (.inl (by omega))).trans (by decide)
  · intro htwice
    rcases (hdouble 31).mp htwice with hlt | hspans
    · omega
    · exact hshort hspans
  · intro n hn
    exact (hlate n hn).trans (by decide)

/-- It is not so that the delays double until they reach the cap. -/
theorem cap_out_of_reach :
    ¬ ∀ (attempts : Nat) (base cap : Delay), cap.nanos ≤ Delay.max.nanos → ∀ n,
      ((exponential attempts base cap).pollDelay n).nanos =
        min (base.nanos * 2 ^ n) cap.nanos := by
  intro h
  have hsame := h 40 ⟨1⟩ (Delay.parts 10 0) (by decide) 34
  exact absurd hsame (by decide)

end Schedule

end ClusterRelay
