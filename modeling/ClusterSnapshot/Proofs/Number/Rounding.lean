import ClusterSnapshot.Number.Literal
import Mathlib.Algebra.Order.Field.Power
import Mathlib.Algebra.Order.Ring.Rat
import Mathlib.Tactic.FieldSimp
import Mathlib.Tactic.Linarith
import Mathlib.Tactic.NormNum
import Mathlib.Tactic.Positivity
import Mathlib.Tactic.Ring

/-!
# How far rounding moves a number

Every operation on binary64 values rounds one quotient. This module compares the size of the result
with that quotient, in exact rational arithmetic.

## Main results

* `Binary64.normal_of_ofQuotient?`: every result is in normal form.
* `Binary64.isSome_ofQuotient?`: there is a result for **every quotient below half a step above the
  greatest value**.
* `Binary64.size_ofQuotient?`: from `2 ^ -1022` on, the result is off by a factor of at most
  `1 ± 2 ^ -53`.
-/

namespace ClusterSnapshot

namespace Binary64

/-- The size of a value, its sign left out. -/
def size (x : Binary64) : ℚ := x.mantissa * 2 ^ x.exponent

/-- The mantissa and the exponent are in the range of the format. -/
structure Normal (x : Binary64) : Prop where
  mantissa : x.mantissa < 2 ^ 53
  least : minExponent ≤ x.exponent
  greatest : x.exponent ≤ maxExponent

/-- Zeros are values of the format. -/
theorem normal_zero (negative : Bool) : (zero negative).Normal :=
  ⟨by simp [zero], by simp [zero], by simp [zero, minExponent, maxExponent]⟩

/-- The format is closed under negation. -/
theorem Normal.neg {x : Binary64} (h : x.Normal) : x.neg.Normal := ⟨h.1, h.2, h.3⟩

/-- Sizes are not negative. -/
theorem size_nonneg (x : Binary64) : 0 ≤ x.size := by
  rw [size]
  positivity

/-! ### The parts of rounding -/

/-- A quotient that was scaled has a positive denominator. -/
theorem scaleByTwo_den_pos (num : Nat) {den : Nat} (e : Int) (hden : 0 < den) :
    0 < (scaleByTwo num den e).2 := by
  rw [scaleByTwo]
  split
  · exact hden
  · exact Nat.mul_pos hden (Nat.pow_pos (by decide))

/-- Scaling by a power of two, as a quotient. -/
theorem scaleByTwo_quotient (num den : Nat) (e : Int) :
    ((scaleByTwo num den e).1 : ℚ) / (scaleByTwo num den e).2 = num / den * 2 ^ e := by
  rw [scaleByTwo]
  split
  · rename_i h
    obtain ⟨n, rfl⟩ := Int.eq_ofNat_of_zero_le h
    push_cast
    rw [Int.toNat_natCast, Nat.pow_eq, zpow_natCast]
    push_cast
    ring
  · rename_i h
    obtain ⟨n, hn⟩ := Int.eq_ofNat_of_zero_le (by omega : 0 ≤ -e)
    obtain rfl : e = -n := by omega
    simp only [neg_neg, Int.toNat_natCast, zpow_neg, zpow_natCast, Nat.pow_eq]
    push_cast
    rw [div_mul_eq_div_div, div_eq_mul_inv (num / den : ℚ)]

/-- A quotient is at least one if its numerator is not less than its denominator. -/
theorem le_quotient_iff {n d : Nat} (hd : 0 < d) : d ≤ n ↔ (1 : ℚ) ≤ n / d := by
  rw [le_div_iff₀ (by exact_mod_cast hd), one_mul]
  exact_mod_cast Iff.rfl

/-- The logarithm of a natural, as bounds. -/
theorem log2_bounds {n : Nat} (hn : 0 < n) :
    (2 : ℚ) ^ (Nat.log2 n : Int) ≤ n ∧ (n : ℚ) < 2 ^ ((Nat.log2 n : Int) + 1) := by
  constructor
  · rw [zpow_natCast]
    exact_mod_cast Nat.log2_self_le (by omega)
  · have h : n < 2 ^ (Nat.log2 n + 1) := Nat.lt_log2_self
    rw [← Nat.cast_succ, zpow_natCast]
    exact_mod_cast h

/-- The logarithm of a quotient, as bounds. -/
theorem floorLog2_bounds {num den : Nat} (hnum : 0 < num) (hden : 0 < den) :
    (2 : ℚ) ^ floorLog2 num den ≤ num / den ∧
      (num / den : ℚ) < 2 ^ (floorLog2 num den + 1) := by
  obtain ⟨hn₁, hn₂⟩ := log2_bounds hnum
  obtain ⟨hd₁, hd₂⟩ := log2_bounds hden
  have hdpos : (0 : ℚ) < den := by exact_mod_cast hden
  -- The guess is right or one too large, since each logarithm is off by less than one.
  have hupper : (num / den : ℚ) < 2 ^ ((Nat.log2 num : Int) - Nat.log2 den + 1) := by
    rw [div_lt_iff₀ hdpos]
    calc (num : ℚ) < 2 ^ ((Nat.log2 num : Int) + 1) := hn₂
      _ = 2 ^ ((Nat.log2 num : Int) - Nat.log2 den + 1) * 2 ^ (Nat.log2 den : Int) := by
        rw [← zpow_add₀ two_ne_zero]
        congr 1
        ring
      _ ≤ 2 ^ ((Nat.log2 num : Int) - Nat.log2 den + 1) * den := by gcongr
  have hlower : (2 : ℚ) ^ ((Nat.log2 num : Int) - Nat.log2 den - 1) ≤ num / den := by
    rw [le_div_iff₀ hdpos]
    calc (2 : ℚ) ^ ((Nat.log2 num : Int) - Nat.log2 den - 1) * den
        ≤ 2 ^ ((Nat.log2 num : Int) - Nat.log2 den - 1) * 2 ^ ((Nat.log2 den : Int) + 1) := by
          gcongr
      _ = 2 ^ (Nat.log2 num : Int) := by
        rw [← zpow_add₀ two_ne_zero]
        congr 1
        ring
      _ ≤ num := hn₁
  have hscaled := scaleByTwo_quotient num den (-((Nat.log2 num : Int) - Nat.log2 den))
  have hpos := scaleByTwo_den_pos num (-((Nat.log2 num : Int) - Nat.log2 den)) hden
  have htest := le_quotient_iff
    (n := (scaleByTwo num den (-((Nat.log2 num : Int) - Nat.log2 den))).1) hpos
  rw [hscaled, zpow_neg, ← div_eq_mul_inv, le_div_iff₀ (by positivity), one_mul] at htest
  unfold floorLog2
  simp only
  split
  · rename_i h
    exact ⟨htest.mp h, hupper⟩
  · rename_i h
    refine ⟨hlower, ?_⟩
    rw [sub_add_cancel]
    exact lt_of_not_ge fun hle => h (htest.mpr hle)

/-- The nearest natural is off by at most a half. -/
theorem roundHalfEven_bounds (num : Nat) {den : Nat} (hden : 0 < den) :
    (num / den : ℚ) - 1 / 2 ≤ roundHalfEven num den ∧
      (roundHalfEven num den : ℚ) ≤ num / den + 1 / 2 := by
  have hdpos : (0 : ℚ) < den := by exact_mod_cast hden
  have hsplit : (num : ℚ) = den * (num / den : Nat) + (num % den : Nat) := by
    exact_mod_cast (Nat.div_add_mod num den).symm
  have hquot : (num / den : ℚ) = (num / den : Nat) + (num % den : Nat) / den := by
    rw [hsplit]
    field_simp
  have hmod : ((num % den : Nat) : ℚ) < den := by exact_mod_cast Nat.mod_lt num hden
  rw [hquot]
  unfold roundHalfEven
  simp only
  split
  · rename_i h
    have h₁ : 2 * ((num % den : Nat) : ℚ) < den := by exact_mod_cast h
    have h₂ : ((num % den : Nat) / den : ℚ) ≤ 1 / 2 := by
      rw [div_le_iff₀ hdpos]
      linarith
    have h₃ : (0 : ℚ) ≤ (num % den : Nat) / den := by positivity
    constructor <;> linarith
  · rename_i hlow
    have h₁ : (den : ℚ) ≤ 2 * (num % den : Nat) := by
      exact_mod_cast Nat.le_of_not_lt hlow
    have h₂ : (1 / 2 : ℚ) ≤ (num % den : Nat) / den := by
      rw [le_div_iff₀ hdpos]
      linarith
    have h₃ : ((num % den : Nat) / den : ℚ) < 1 := by
      rw [div_lt_one hdpos]
      exact hmod
    split
    · push_cast
      constructor <;> linarith
    · rename_i hhigh
      have h₄ : 2 * ((num % den : Nat) : ℚ) ≤ den := by
        exact_mod_cast Nat.le_of_not_lt hhigh
      have h₅ : ((num % den : Nat) / den : ℚ) ≤ 1 / 2 := by
        rw [div_le_iff₀ hdpos]
        linarith
      split
      · constructor <;> linarith
      · push_cast
        constructor <;> linarith

/-! ### Rounding a quotient -/

/-- The exponent that a quotient is rounded with. -/
def roundingExponent (num den : Nat) : Int := max (floorLog2 num den - 52) minExponent

/-- What a positive quotient is rounded to before the range is looked at. -/
def rounded (negative : Bool) (num den : Nat) : Binary64 :=
  let e := roundingExponent num den
  let m := roundHalfEven (scaleByTwo num den (-e)).1 (scaleByTwo num den (-e)).2
  if m = 0x20000000000000 then ⟨negative, 0x10000000000000, e + 1⟩ else ⟨negative, m, e⟩

/-- A positive quotient is rounded, unless it is out of range. -/
theorem ofQuotient?_of_ne_zero (negative : Bool) {num : Nat} (den : Nat) (hnum : num ≠ 0) :
    ofQuotient? negative num den =
      if maxExponent < (rounded negative num den).exponent then none
      else some (rounded negative num den) := by
  rw [ofQuotient?, rounded, roundingExponent]
  simp only [hnum, ↓reduceIte]
  split <;> rfl

variable {num den : Nat} (negative : Bool)

/-- The mantissa is the scaled quotient rounded, and that is at most `2 ^ 53`. -/
theorem rounded_spec (hnum : 0 < num) (hden : 0 < den) :
    let e := roundingExponent num den
    ∃ m : Nat, m ≤ 2 ^ 53 ∧
      (num / den : ℚ) * 2 ^ (-e) - 1 / 2 ≤ m ∧ (m : ℚ) ≤ num / den * 2 ^ (-e) + 1 / 2 ∧
      rounded negative num den =
        if m = 2 ^ 53 then ⟨negative, 2 ^ 52, e + 1⟩ else ⟨negative, m, e⟩ := by
  intro e
  have hbounds := roundHalfEven_bounds (scaleByTwo num den (-e)).1
    (scaleByTwo_den_pos num (-e) hden)
  rw [scaleByTwo_quotient] at hbounds
  refine ⟨_, ?_, hbounds.1, hbounds.2, rfl⟩
  have hlt : (num / den : ℚ) * 2 ^ (-e) < 2 ^ 53 := by
    calc (num / den : ℚ) * 2 ^ (-e)
        < 2 ^ (floorLog2 num den + 1) * 2 ^ (-e) := by
          gcongr
          exact (floorLog2_bounds hnum hden).2
      _ = 2 ^ (floorLog2 num den + 1 - e) := by
          rw [← zpow_add₀ two_ne_zero]
          congr 1
      _ ≤ 2 ^ (53 : Int) := by
          gcongr
          · norm_num
          · have : floorLog2 num den - 52 ≤ e := le_max_left _ _
            omega
      _ = 2 ^ 53 := by norm_cast
  have hcast : (roundHalfEven (scaleByTwo num den (-e)).1 (scaleByTwo num den (-e)).2 : ℚ) <
      ((2 ^ 53 + 1 : Nat) : ℚ) := by
    push_cast
    linarith [hbounds.2]
  have hnat := Nat.cast_lt.mp hcast
  omega

/-- The mantissa is in the range of the format. -/
theorem mantissa_rounded (hnum : 0 < num) (hden : 0 < den) :
    (rounded negative num den).mantissa < 2 ^ 53 := by
  obtain ⟨m, hm, -, -, hrounded⟩ := rounded_spec negative hnum hden
  rw [hrounded]
  split
  · norm_num
  · simp only
    omega

/-- The exponent is not below the one that the quotient is rounded with. -/
theorem exponent_rounded (hnum : 0 < num) (hden : 0 < den) :
    roundingExponent num den ≤ (rounded negative num den).exponent := by
  obtain ⟨m, -, -, -, hrounded⟩ := rounded_spec negative hnum hden
  rw [hrounded]
  split
  · simp only
    omega
  · exact le_refl _

/-- Rounding is off by at most half a step. -/
theorem size_rounded (hnum : 0 < num) (hden : 0 < den) :
    (num / den : ℚ) - 2 ^ (roundingExponent num den - 1) ≤ (rounded negative num den).size ∧
      (rounded negative num den).size ≤ num / den + 2 ^ (roundingExponent num den - 1) := by
  obtain ⟨m, -, hlow, hhigh, hrounded⟩ := rounded_spec negative hnum hden
  have hsize : (rounded negative num den).size = m * 2 ^ roundingExponent num den := by
    rw [hrounded]
    split
    · rename_i h
      simp only [size, h]
      rw [zpow_add_one₀ two_ne_zero]
      push_cast
      ring
    · rfl
  have hpos : (0 : ℚ) < 2 ^ roundingExponent num den := by positivity
  have hcancel : (num / den : ℚ) * 2 ^ (-roundingExponent num den) *
      2 ^ roundingExponent num den = num / den := by
    rw [mul_assoc, ← zpow_add₀ two_ne_zero, neg_add_cancel, zpow_zero, mul_one]
  have hhalf : (2 : ℚ) ^ (roundingExponent num den - 1) =
      1 / 2 * 2 ^ roundingExponent num den := by
    rw [zpow_sub_one₀ two_ne_zero]
    ring
  have h₁ := mul_le_mul_of_nonneg_right hlow hpos.le
  have h₂ := mul_le_mul_of_nonneg_right hhigh hpos.le
  rw [sub_mul, hcancel] at h₁
  rw [add_mul, hcancel] at h₂
  rw [hsize, hhalf]
  exact ⟨h₁, h₂⟩

/-- **Every result is in normal form.** -/
theorem normal_of_ofQuotient? {x : Binary64} (hden : 0 < den)
    (h : ofQuotient? negative num den = some x) : x.Normal := by
  by_cases hnum : num = 0
  · rw [ofQuotient?, if_pos hnum] at h
    obtain rfl := Option.some.inj h
    exact normal_zero negative
  · rw [ofQuotient?_of_ne_zero negative den hnum] at h
    split at h
    · simp at h
    · rename_i hmax
      obtain rfl := Option.some.inj h
      have hpos := Nat.pos_of_ne_zero hnum
      refine ⟨mantissa_rounded negative hpos hden, ?_, Int.not_lt.mp hmax⟩
      exact (le_max_right _ _).trans (exponent_rounded negative hpos hden)

/-- The quotients that round to a value of the format: those below half a step above the greatest
value. -/
def overflow : ℚ := (2 ^ 54 - 1) * 2 ^ 970

/-- Overflow begins below the next power of two. -/
theorem overflow_lt : overflow < 2 ^ 1024 := by
  rw [overflow, show (1024 : Nat) = 54 + 970 by norm_num, pow_add]
  gcongr
  norm_num

/-- **A quotient that is not too large has a result.** -/
theorem isSome_ofQuotient? (hden : 0 < den) (h : (num / den : ℚ) < overflow) :
    ∃ x, ofQuotient? negative num den = some x := by
  by_cases hnum : num = 0
  · exact ⟨zero negative, by rw [ofQuotient?, if_pos hnum]⟩
  rw [ofQuotient?_of_ne_zero negative den hnum]
  have hpos := Nat.pos_of_ne_zero hnum
  have hlog := (floorLog2_bounds hpos hden).1.trans_lt h
  have hfloor : floorLog2 num den < 1024 := by
    have hlt := hlog.trans overflow_lt
    rw [← zpow_natCast] at hlt
    exact (zpow_lt_zpow_iff_right₀ (by norm_num)).mp hlt
  have hexp : roundingExponent num den ≤ 971 := by
    have hmin : minExponent = -1074 := rfl
    rw [roundingExponent]
    omega
  obtain ⟨m, -, -, hhigh, hrounded⟩ := rounded_spec negative hpos hden
  refine ⟨_, if_neg ?_⟩
  rw [hrounded, Int.not_lt]
  split
  · rename_i hm
    -- A carry would need a quotient half a step above the greatest value.
    by_cases he : roundingExponent num den = 971
    · exfalso
      have hlt : (num / den : ℚ) * 2 ^ (-roundingExponent num den) < 2 ^ 53 - 1 / 2 := by
        rw [he, zpow_neg, ← div_eq_mul_inv, div_lt_iff₀ (by positivity)]
        refine h.trans_eq ?_
        rw [overflow, show (971 : Int) = (970 : Nat) + 1 by norm_num, zpow_add_one₀ two_ne_zero,
          zpow_natCast]
        ring
      rw [hm] at hhigh
      push_cast at hhigh
      linarith
    · have hmax : maxExponent = 971 := rfl
      simp only
      omega
  · exact hexp

/-- **From `2 ^ -1022` on, a result is off by a factor close to one.** -/
theorem size_ofQuotient? {x : Binary64} (hden : 0 < den)
    (hleast : (2 : ℚ) ^ (-1022 : Int) ≤ num / den) (h : ofQuotient? negative num den = some x) :
    (num / den : ℚ) * (1 - 2 ^ (-53 : Int)) ≤ x.size ∧
      x.size ≤ num / den * (1 + 2 ^ (-53 : Int)) := by
  have hpos : 0 < num := by
    refine Nat.pos_of_ne_zero ?_
    rintro rfl
    have : (0 : ℚ) < 2 ^ (-1022 : Int) := by positivity
    simp only [Nat.cast_zero, zero_div] at hleast
    linarith
  have hbounds := floorLog2_bounds hpos hden
  have hfloor : -1022 ≤ floorLog2 num den := by
    have : (2 : ℚ) ^ (-1022 : Int) < 2 ^ (floorLog2 num den + 1) := hleast.trans_lt hbounds.2
    have := (zpow_lt_zpow_iff_right₀ (by norm_num : (1 : ℚ) < 2)).mp this
    omega
  have hexp : roundingExponent num den = floorLog2 num den - 52 := by
    have hmin : minExponent = -1074 := rfl
    rw [roundingExponent]
    omega
  have hhalf : (2 : ℚ) ^ (roundingExponent num den - 1) ≤ num / den * 2 ^ (-53 : Int) := by
    calc (2 : ℚ) ^ (roundingExponent num den - 1)
        = 2 ^ floorLog2 num den * 2 ^ (-53 : Int) := by
          rw [← zpow_add₀ two_ne_zero, hexp]
          congr 1
          ring
      _ ≤ num / den * 2 ^ (-53 : Int) := by
          gcongr
          exact hbounds.1
  obtain ⟨hlow, hhigh⟩ := size_rounded negative hpos hden
  rw [ofQuotient?_of_ne_zero negative den hpos.ne'] at h
  split at h
  · simp at h
  · obtain rfl := Option.some.inj h
    constructor <;> linarith

/-- A coarse bound on results of every size. -/
theorem size_ofQuotient?_le {x : Binary64} (hden : 0 < den)
    (h : ofQuotient? negative num den = some x) : x.size ≤ 2 * (num / den) + 1 := by
  by_cases hnum : num = 0
  · rw [ofQuotient?, if_pos hnum] at h
    obtain rfl := Option.some.inj h
    simp [hnum, size, zero]
  have hpos := Nat.pos_of_ne_zero hnum
  have hhalf : (2 : ℚ) ^ (roundingExponent num den - 1) ≤ num / den + 1 := by
    rcases le_total (floorLog2 num den - 52) minExponent with hle | hle
    · rw [roundingExponent, max_eq_right hle]
      have : (2 : ℚ) ^ (minExponent - 1) ≤ 1 := zpow_le_one_of_nonpos₀ (by norm_num) (by decide)
      have : (0 : ℚ) ≤ num / den := by positivity
      linarith
    · rw [roundingExponent, max_eq_left hle]
      calc (2 : ℚ) ^ (floorLog2 num den - 52 - 1)
          ≤ 2 ^ floorLog2 num den := by
            gcongr
            · norm_num
            · omega
        _ ≤ num / den := (floorLog2_bounds hpos hden).1
        _ ≤ num / den + 1 := by linarith
  have hsize := (size_rounded negative hpos hden).2
  rw [ofQuotient?_of_ne_zero negative den hnum] at h
  split at h
  · simp at h
  · obtain rfl := Option.some.inj h
    linarith

/-! ### Products and quotients of values -/

/-- The magnitude has a positive denominator. -/
theorem magnitude_den_pos (x : Binary64) : 0 < x.magnitude.2 :=
  scaleByTwo_den_pos x.mantissa x.exponent Nat.one_pos

/-- The quotient of the magnitude is the size. -/
theorem magnitude_quotient (x : Binary64) : (x.magnitude.1 : ℚ) / x.magnitude.2 = x.size := by
  rw [magnitude, scaleByTwo_quotient]
  simp [size]

/-- A product is a quotient rounded. -/
theorem mul?_eq (x y : Binary64) :
    ∃ num den : Nat, 0 < den ∧ (num / den : ℚ) = x.size * y.size ∧
      x.mul? y = ofQuotient? (x.negative != y.negative) num den := by
  refine ⟨x.magnitude.1 * y.magnitude.1, x.magnitude.2 * y.magnitude.2,
    Nat.mul_pos x.magnitude_den_pos y.magnitude_den_pos, ?_, rfl⟩
  rw [← magnitude_quotient, ← magnitude_quotient]
  push_cast
  ring

/-- A quotient by a value other than zero is a quotient rounded. -/
theorem div?_eq (x : Binary64) {y : Binary64} (hy : 0 < y.size) :
    ∃ num den : Nat, 0 < den ∧ (num / den : ℚ) = x.size / y.size ∧
      x.div? y = ofQuotient? (x.negative != y.negative) num den := by
  have hpos : 0 < y.magnitude.1 := by
    refine Nat.pos_of_ne_zero fun h => ?_
    rw [← magnitude_quotient, h] at hy
    simp at hy
  refine ⟨x.magnitude.1 * y.magnitude.2, x.magnitude.2 * y.magnitude.1,
    Nat.mul_pos x.magnitude_den_pos hpos, ?_, rfl⟩
  rw [← magnitude_quotient, ← magnitude_quotient]
  push_cast
  rw [div_div_div_eq]

/-- A natural rounded, if it is not too large. -/
theorem ofNat?_spec {n : Nat} (hn : 1 ≤ n) (hlt : (n : ℚ) < overflow) :
    ∃ x, ofNat? n = some x ∧ (n : ℚ) * (1 - 2 ^ (-53 : Int)) ≤ x.size ∧
      x.size ≤ n * (1 + 2 ^ (-53 : Int)) := by
  obtain ⟨x, hx⟩ : ∃ x, ofQuotient? false n 1 = some x :=
    isSome_ofQuotient? false Nat.one_pos (by simpa using hlt)
  have hleast : (2 : ℚ) ^ (-1022 : Int) ≤ (n : ℚ) / (1 : Nat) := by
    have h₁ : (2 : ℚ) ^ (-1022 : Int) ≤ 1 := zpow_le_one_of_nonpos₀ (by norm_num) (by norm_num)
    have h₂ : (1 : ℚ) ≤ n := by exact_mod_cast hn
    simpa using h₁.trans h₂
  have hsize := size_ofQuotient? false Nat.one_pos hleast hx
  simp only [Nat.cast_one, div_one] at hsize
  exact ⟨x, hx, hsize⟩

end Binary64

end ClusterSnapshot
