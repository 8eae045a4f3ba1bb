import FlowAtlas.Decimal.Binary64
import Mathlib.Algebra.Group.Nat.Defs
import Mathlib.Order.Basic

namespace FlowAtlas.Binary64

/-- Half a step behind the greatest finite number, `2 ^ 1024 - 2 ^ 970`. -/
def overflow : Nat := (2 ^ 54 - 1) * 2 ^ 970

theorem roundHalfEven_full {n step : Nat} (within : n < 2 ^ 54 * step) :
    roundHalfEven n (2 * step) = mantissaBound ↔ 2 ^ 54 * step ≤ n + step := by
  have positive : 0 < 2 * step := by omega
  let quotient := n / (2 * step)
  let rest := n % (2 * step)
  have split : 2 * step * quotient + rest = n := Nat.div_add_mod n (2 * step)
  have small : rest < 2 * step := Nat.mod_lt n positive
  have below : quotient < 2 ^ 53 := by
    apply Nat.div_lt_of_lt_mul
    omega
  have full : mantissaBound = 2 ^ 53 := rfl
  rw [roundHalfEven, full]
  change (if (decide (2 * rest > 2 * step) || (2 * rest == 2 * step && quotient % 2 == 1)) = true then quotient + 1
    else quotient) = 2 ^ 53 ↔ _
  by_cases last : quotient = 2 ^ 53 - 1
  · rw [last] at split ⊢
    have odd : (2 ^ 53 - 1) % 2 = 1 := by decide
    simp only [odd, Bool.or_eq_true, decide_eq_true_eq, Bool.and_eq_true, beq_iff_eq, and_true]
    split <;> omega
  · have early : quotient + 2 ≤ 2 ^ 53 := by omega
    have room : 2 * step * (quotient + 2) ≤ 2 * step * 2 ^ 53 := Nat.mul_le_mul_left _ early
    rw [Nat.mul_add] at room
    constructor
    · intro reached
      split at reached <;> omega
    · intro reached
      omega

theorem scaled_succ (n exponent : Nat) : scaled n 1 ((exponent : Int) + 1) = (n, 2 * 2 ^ exponent) := by
  have up : ((exponent : Int) + 1).toNat = exponent + 1 := by omega
  have down : (-((exponent : Int) + 1)).toNat = 0 := by omega
  rw [scaled, up, down, Nat.one_mul, ← Nat.pow_succ']
  exact Prod.ext (Nat.mul_one n) rfl

theorem scaled_log2 {n : Nat} (given : n ≠ 0) :
    mantissaBound ≤ (scaled n 1 ((n.log2 : Int) - 53)).1 / (scaled n 1 ((n.log2 : Int) - 53)).2 := by
  let up := ((n.log2 : Int) - 53).toNat
  let down := (-((n.log2 : Int) - 53)).toNat
  have least : 2 ^ n.log2 ≤ n := Nat.log2_self_le given
  have positive : 0 < 1 * 2 ^ up := by
    rw [Nat.one_mul]
    exact Nat.two_pow_pos _
  have balance : 53 + up = n.log2 + down := by omega
  apply (Nat.le_div_iff_mul_le positive).mpr
  calc 2 ^ 53 * (1 * 2 ^ up)
    _ = 2 ^ (53 + up) := by rw [Nat.one_mul, ← Nat.pow_add]
    _ = 2 ^ n.log2 * 2 ^ down := by rw [balance, Nat.pow_add]
    _ ≤ n * 2 ^ down := Nat.mul_le_mul_right _ least

theorem round_infinite {negative : Bool} {n : Nat} (given : n ≠ 0) :
    (∃ sign, round negative n 1 = infinite sign) ↔
      1024 ≤ n.log2 ∨ n.log2 = 1023 ∧
        roundHalfEven (scaled n 1 971).1 (scaled n 1 971).2 = mantissaBound := by
  have guess : max ((n.log2 : Int) - (1 : Nat).log2 - 53) (-1074) = (n.log2 : Int) - 53 := by
    have one : (1 : Nat).log2 = 0 := by decide
    rw [one]
    omega
  have next : (n.log2 : Int) - 53 + 1 = (n.log2 : Int) - 52 := by omega
  rw [round, if_neg given]
  simp only [guess, if_pos (scaled_log2 given), next]
  by_cases full : roundHalfEven (scaled n 1 ((n.log2 : Int) - 52)).1 (scaled n 1 ((n.log2 : Int) - 52)).2 =
      mantissaBound
  · rw [if_pos full]
    dsimp only
    by_cases past : 1023 ≤ n.log2
    · rw [if_pos (by omega)]
      refine ⟨fun _ => ?_, fun _ => ⟨negative, rfl⟩⟩
      rcases Nat.eq_or_lt_of_le past with large | more
      · rw [← large] at full
        exact Or.inr ⟨large.symm, full⟩
      · exact Or.inl more
    · rw [if_neg (by omega)]
      constructor
      · rintro ⟨_, other⟩
        cases other
      · omega
  · rw [if_neg full]
    dsimp only
    by_cases past : 1024 ≤ n.log2
    · rw [if_pos (by omega)]
      exact ⟨fun _ => Or.inl past, fun _ => ⟨negative, rfl⟩⟩
    · rw [if_neg (by omega)]
      constructor
      · rintro ⟨_, other⟩
        cases other
      · rintro (more | ⟨large, rounded⟩)
        · exact absurd more past
        · rw [large] at full
          exact absurd rounded full

theorem ofInt_infinite (i : Int) : (∃ sign, ofInt i = infinite sign) ↔ overflow ≤ i.natAbs := by
  by_cases zero : i.natAbs = 0
  · have finite : ofInt i = finite (i < 0) 0 (-1074) := by rw [ofInt, round, if_pos zero]
    have positive : 0 < overflow := by decide +kernel
    rw [finite, zero]
    constructor
    · rintro ⟨_, other⟩
      cases other
    · intro past
      exact absurd positive (Nat.not_lt.mpr past)
  · have least : 2 ^ i.natAbs.log2 ≤ i.natAbs := Nat.log2_self_le zero
    have most : i.natAbs < 2 ^ (i.natAbs.log2 + 1) := Nat.lt_log2_self
    have double : scaled i.natAbs 1 971 = (i.natAbs, 2 * 2 ^ 970) := scaled_succ _ 970
    have upTo : ∀ size first second : Nat, size ≤ first + second → 2 ^ size ≤ 2 ^ first * 2 ^ second :=
      fun _ first second small => (Nat.pow_le_pow_right Nat.two_pos small).trans_eq (Nat.pow_add 2 first second)
    have behind : ∀ size first second : Nat, first + second ≤ size → 2 ^ first * 2 ^ second ≤ 2 ^ size :=
      fun _ first second large => (Nat.pow_add 2 first second).symm.trans_le (Nat.pow_le_pow_right Nat.two_pos large)
    have small := upTo (i.natAbs.log2 + 1) 53 970
    have large := upTo (i.natAbs.log2 + 1) 54 970
    have huge := behind i.natAbs.log2 54 970
    rw [ofInt, round_infinite zero, double, overflow]
    generalize 2 ^ 970 = step at small large huge
    rcases Nat.lt_trichotomy i.natAbs.log2 1023 with below | last | past
    · constructor <;> omega
    · rw [roundHalfEven_full (by omega)]
      omega
    · constructor <;> omega

/-- Integers are numbers up to half a step behind the greatest one. -/
theorem ofInt?_eq (i : Int) : ofInt? i = if i.natAbs < overflow then some (ofInt i) else none := by
  by_cases past : overflow ≤ i.natAbs
  · obtain ⟨sign, infinite⟩ := (ofInt_infinite i).mpr past
    rw [ofInt?, infinite, if_neg (Nat.not_lt.mpr past)]
  · rw [if_pos (Nat.not_le.mp past), ofInt?]
    split
    · rename_i sign infinite
      exact absurd ((ofInt_infinite i).mp ⟨sign, infinite⟩) past
    · rfl

end FlowAtlas.Binary64
