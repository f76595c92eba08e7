import ClusterSnapshot.Proofs.Number.Rounding
import ClusterSnapshot.Proofs.Number.Text

/-!
# Numbers that can be read again

A number that was read is in range: a whole number of the 64-bit ranges or a binary64 value. The
text of such a number can be read again. A whole number comes back as it was. A binary64 value comes
back as a binary64 value, not always the same one, since its digits are rounded more than once.

## Main results

* `NumberLiteral.inRange_of_number?`: what a literal denotes is in range.
* `NumberLiteral.isSome_scale?`: scaling finds a value **up to three and a half steps below the
  greatest one**, the room that two roundings need.
* `Number.scanned?_eq`: **the text of a number in range denotes a number in range**, and a whole
  number itself.
-/

namespace ClusterSnapshot

open Binary64 (overflow)

/-- A whole number that a text can denote: one of the signed or of the unsigned 64-bit range. -/
def Number.IsWhole64 : Number → Prop
  | .whole i => -0x8000000000000000 ≤ i ∧ i ≤ 0xFFFFFFFFFFFFFFFF
  | .real _ => False

instance : DecidablePred Number.IsWhole64
  | .whole _ => inferInstanceAs (Decidable (_ ∧ _))
  | .real _ => .isFalse id

/-- A number that a text can denote. -/
def Number.InRange : Number → Prop
  | .whole i => -0x8000000000000000 ≤ i ∧ i ≤ 0xFFFFFFFFFFFFFFFF
  | .real x => x.Normal

/-- Whole numbers of 64 bits are in range. -/
theorem Number.IsWhole64.inRange {n : Number} (h : n.IsWhole64) : n.InRange := by
  cases n with
  | whole i => exact h
  | real x => exact h.elim

namespace NumberLiteral

/-- The natural that digits go on to from a word. -/
def follow (word : Nat) (digits : List Nat) : Nat := digits.foldl (fun n d => n * 10 + d) word

/-- Digits go on to at least the word, moved to the left. -/
theorem le_follow (word : Nat) (digits : List Nat) :
    word * 10 ^ digits.length ≤ follow word digits := by
  induction digits generalizing word with
  | nil => simp [follow]
  | cons d ds ih =>
      calc word * 10 ^ (ds.length + 1) = word * 10 * 10 ^ ds.length := by ring
        _ ≤ (word * 10 + d) * 10 ^ ds.length := Nat.mul_le_mul_right _ (Nat.le_add_right _ _)
        _ ≤ follow (word * 10 + d) ds := ih _

/-- The word that is gathered has no more than 64 bits. -/
theorem gather_le {word : Nat} (digits : List Nat) (hword : word ≤ 0xFFFFFFFFFFFFFFFF) :
    (gather word digits).1 ≤ 0xFFFFFFFFFFFFFFFF := by
  induction digits generalizing word with
  | nil => exact hword
  | cons d ds ih =>
      rw [gather]
      split
      · rename_i h
        exact ih h
      · exact hword

/-- Digits that fit are all gathered. -/
theorem gather_eq {word : Nat} {digits : List Nat}
    (h : follow word digits ≤ 0xFFFFFFFFFFFFFFFF) :
    gather word digits = (follow word digits, []) := by
  induction digits generalizing word with
  | nil => rfl
  | cons d ds ih =>
      have hd : word * 10 + d ≤ 0xFFFFFFFFFFFFFFFF := by
        calc word * 10 + d ≤ (word * 10 + d) * 10 ^ ds.length :=
              Nat.le_mul_of_pos_right _ (Nat.pow_pos (by decide))
          _ ≤ follow (word * 10 + d) ds := le_follow _ _
          _ ≤ _ := h
      rw [gather, if_pos hd]
      exact ih h

/-- Digits that are left over count as zeros at most. -/
theorem gather_mul_le (word : Nat) (digits : List Nat) :
    (gather word digits).1 * 10 ^ (gather word digits).2.length ≤ follow word digits ∧
      (gather word digits).2.length ≤ digits.length := by
  induction digits generalizing word with
  | nil => simp [gather, follow]
  | cons d ds ih =>
      rw [gather]
      split
      · obtain ⟨h₁, h₂⟩ := ih (word * 10 + d)
        exact ⟨h₁, h₂.trans (Nat.le_succ _)⟩
      · exact ⟨le_follow word (d :: ds), le_refl _⟩

/-! ### Scaling -/

/-- Up to here two roundings and a product stay in the range of the format. -/
def margin : ℚ := (2 ^ 54 - 7) * 2 ^ 970

/-- Powers of ten are in the range of the format up to the greatest of them. -/
theorem ten_pow_lt_overflow {k : Nat} (hk : k ≤ 308) : ((10 ^ k : Nat) : ℚ) < overflow := by
  have hcast : overflow = ((18014398509481983 * 2 ^ 970 : Nat) : ℚ) := by
    rw [overflow, Nat.cast_mul, Nat.cast_pow]
    congr 1
    norm_num
  have hlt : 10 ^ 308 < 18014398509481983 * 2 ^ 970 := by decide +kernel
  rw [hcast, Nat.cast_lt]
  calc 10 ^ k ≤ 10 ^ 308 := Nat.pow_le_pow_right (by decide) hk
    _ < 18014398509481983 * 2 ^ 970 := hlt

/-- The next power of ten is beyond the margin. -/
theorem margin_lt_ten_pow : margin < 10 ^ 309 := by
  have hlt : 2 ^ 1024 < 10 ^ 309 := by decide +kernel
  calc margin < overflow := by
        rw [margin, overflow]
        gcongr
        norm_num
    _ < 2 ^ 1024 := Binary64.overflow_lt
    _ < 10 ^ 309 := by exact_mod_cast hlt

/-- Two roundings of factors do not lead from the margin out of the range. -/
theorem margin_mul_lt :
    margin * ((1 + 2 ^ (-53 : Int)) * (1 + 2 ^ (-53 : Int))) < overflow := by
  have hfactor : ((2 : ℚ) ^ 54 - 7) * ((1 + 2 ^ (-53 : Int)) * (1 + 2 ^ (-53 : Int))) <
      2 ^ 54 - 1 := by norm_num
  calc margin * ((1 + 2 ^ (-53 : Int)) * (1 + 2 ^ (-53 : Int)))
      = (2 ^ 54 - 7) * ((1 + 2 ^ (-53 : Int)) * (1 + 2 ^ (-53 : Int))) * 2 ^ 970 := by
        rw [margin]
        ring
    _ < (2 ^ 54 - 1) * 2 ^ 970 := by gcongr
    _ = overflow := rfl

/-- Naturals of 64 bits are well in the range of the format. -/
theorem lt_overflow : (2 : ℚ) ^ 69 < overflow := by
  have hlt : (2 : ℚ) ^ 69 < 2 ^ 970 := pow_lt_pow_right₀ one_lt_two (by decide)
  have hone : (1 : ℚ) ≤ 2 ^ 54 - 1 := by norm_num
  calc (2 : ℚ) ^ 69 < 2 ^ 970 := hlt
    _ ≤ (2 ^ 54 - 1) * 2 ^ 970 := le_mul_of_one_le_left (by positivity) hone

/-- A power of ten, rounded. -/
theorem powerOfTen?_spec {k : Nat} (hk : k ≤ 308) :
    ∃ x, powerOfTen? k = some x ∧ (10 : ℚ) ^ k * (1 - 2 ^ (-53 : Int)) ≤ x.size ∧
      x.size ≤ 10 ^ k * (1 + 2 ^ (-53 : Int)) := by
  obtain ⟨x, hx, hlow, hhigh⟩ := Binary64.ofNat?_spec (Nat.pow_pos (n := k) (by decide : 0 < 10))
    (ten_pow_lt_overflow hk)
  push_cast at hlow hhigh
  exact ⟨x, hx, hlow, hhigh⟩

/-- Every rounded power of ten is at least a half. -/
theorem half_le_powerOfTen {k : Nat} (hk : k ≤ 308) :
    ∃ x, powerOfTen? k = some x ∧ 1 / 2 ≤ x.size := by
  obtain ⟨x, hx, hlow, -⟩ := powerOfTen?_spec hk
  refine ⟨x, hx, le_trans ?_ hlow⟩
  have h : (1 : ℚ) ≤ 10 ^ k := one_le_pow₀ (by norm_num)
  calc (1 / 2 : ℚ) ≤ 1 * (1 - 2 ^ (-53 : Int)) := by norm_num
    _ ≤ 10 ^ k * (1 - 2 ^ (-53 : Int)) := by gcongr

/-- Dividing by a power of ten finds a value that is not much larger. -/
theorem div_powerOfTen {x y : Binary64} (hx : x.size ≤ 2 ^ 68) (hy : 1 / 2 ≤ y.size) :
    ∃ z, x.div? y = some z ∧ z.size ≤ 4 * x.size + 1 := by
  obtain ⟨num, den, hden, hquot, heq⟩ := Binary64.div?_eq x (y := y) (by linarith)
  have hle : x.size / y.size ≤ 2 * x.size := by
    rw [div_le_iff₀ (by linarith)]
    nlinarith [x.size_nonneg]
  obtain ⟨z, hz⟩ := Binary64.isSome_ofQuotient? (x.negative != y.negative) hden (by
    rw [hquot]
    calc x.size / y.size ≤ 2 * 2 ^ 68 := by linarith
      _ = 2 ^ 69 := by norm_num
      _ < overflow := lt_overflow)
  have hsize := Binary64.size_ofQuotient?_le _ hden hz
  rw [hquot] at hsize
  exact ⟨z, heq.trans hz, by linarith⟩

/-- Within the margin the power of ten is not large. -/
theorem power_le_of_le_margin {word : Nat} {power : Int} (hpos : 1 ≤ word)
    (hsize : (word : ℚ) * 10 ^ power ≤ margin) : power ≤ 308 := by
  by_contra hlarge
  have h₁ : (10 : ℚ) ^ 309 ≤ 10 ^ power := by
    rw [← zpow_natCast]
    exact zpow_le_zpow_right₀ (by norm_num) (by omega)
  have h₂ : (1 : ℚ) ≤ word := by exact_mod_cast hpos
  have h₃ : (10 : ℚ) ^ power ≤ word * 10 ^ power := le_mul_of_one_le_left (by positivity) h₂
  exact absurd margin_lt_ten_pow (not_lt_of_ge (h₁.trans (h₃.trans hsize)))

/-- Within the margin the product with a power of ten is a value. -/
theorem isSome_mul_powerOfTen {x : Binary64} {word k : Nat} (hk : k ≤ 308)
    (hx : x.size ≤ word * (1 + 2 ^ (-53 : Int))) (hsize : (word : ℚ) * 10 ^ k ≤ margin) :
    ∃ y z, powerOfTen? k = some y ∧ x.mul? y = some z := by
  obtain ⟨y, hy, -, hyhigh⟩ := powerOfTen?_spec hk
  obtain ⟨num, den, hden, hquot, heq⟩ := Binary64.mul?_eq x y
  obtain ⟨z, hz⟩ := Binary64.isSome_ofQuotient? (x.negative != y.negative) hden (by
    calc (num / den : ℚ) = x.size * y.size := hquot
      _ ≤ word * (1 + 2 ^ (-53 : Int)) * (10 ^ k * (1 + 2 ^ (-53 : Int))) := by
        gcongr
        exact y.size_nonneg
      _ = word * 10 ^ k * ((1 + 2 ^ (-53 : Int)) * (1 + 2 ^ (-53 : Int))) := by ring
      _ ≤ margin * ((1 + 2 ^ (-53 : Int)) * (1 + 2 ^ (-53 : Int))) := by gcongr
      _ < overflow := margin_mul_lt)
  exact ⟨y, z, hy, heq.trans hz⟩

/-- **Scaling finds a value up to the margin.** -/
theorem isSome_scale? {word : Nat} {power : Int} (hword : word ≤ 0xFFFFFFFFFFFFFFFF)
    (hsize : (word : ℚ) * 10 ^ power ≤ margin) : ∃ x, scale? word power = some x := by
  by_cases hzero : word = 0
  · exact ⟨_, by rw [hzero]; rfl⟩
  have hpos : 1 ≤ word := Nat.pos_of_ne_zero hzero
  have hwordq : (word : ℚ) ≤ 2 ^ 64 := by exact_mod_cast hword.trans (by decide)
  obtain ⟨x, hx, -, hxhigh⟩ := Binary64.ofNat?_spec hpos
    (hwordq.trans_lt (lt_of_le_of_lt (by norm_num) lt_overflow))
  have hxsize : x.size ≤ 2 ^ 65 := by
    refine hxhigh.trans ?_
    calc (word : ℚ) * (1 + 2 ^ (-53 : Int)) ≤ 2 ^ 64 * (1 + 2 ^ (-53 : Int)) := by gcongr
      _ ≤ 2 ^ 65 := by norm_num
  have hpower : ¬ 308 < power := Int.not_lt.mpr (power_le_of_le_margin hpos hsize)
  simp only [scale?, hx, hzero, hpower, Option.bind_eq_bind, Option.bind_some, ↓reduceIte]
  split
  · rename_i hnonneg
    obtain ⟨k, rfl⟩ := Int.eq_ofNat_of_zero_le hnonneg
    rw [zpow_natCast] at hsize
    obtain ⟨y, z, hy, hz⟩ := isSome_mul_powerOfTen (k := k) (by omega) hxhigh hsize
    exact ⟨z, by rw [Int.toNat_natCast, hy, Option.bind_some, hz]⟩
  · split
    · obtain ⟨y, hy, hyhalf⟩ := half_le_powerOfTen (k := (-power).toNat) (by omega)
      obtain ⟨z, hz, -⟩ := div_powerOfTen (hxsize.trans (by norm_num)) hyhalf
      exact ⟨z, by rw [hy, Option.bind_some, hz]⟩
    · split
      · obtain ⟨y, hy, hyhalf⟩ := half_le_powerOfTen (k := 308) (le_refl _)
        obtain ⟨z, hz, hzsize⟩ := div_powerOfTen (hxsize.trans (by norm_num)) hyhalf
        obtain ⟨y', hy', hyhalf'⟩ := half_le_powerOfTen (k := (-power - 308).toNat) (by omega)
        obtain ⟨z', hz', -⟩ := div_powerOfTen (x := z) (by linarith) hyhalf'
        exact ⟨z', by rw [hy, Option.bind_some, hz, Option.bind_some, hy', Option.bind_some, hz']⟩
      · exact ⟨_, rfl⟩

/-- Scaling gives values in normal form. -/
theorem normal_scale? {word : Nat} {power : Int} {x : Binary64} (h : scale? word power = some x) :
    x.Normal := by
  have hmul : ∀ {a b z : Binary64}, a.mul? b = some z → z.Normal := by
    intro a b z hz
    obtain ⟨num, den, hden, -, heq⟩ := Binary64.mul?_eq a b
    exact Binary64.normal_of_ofQuotient? _ hden (heq.symm.trans hz)
  have hdiv : ∀ {a b z : Binary64} {k : Nat}, k ≤ 308 →
      powerOfTen? k = some b → a.div? b = some z → z.Normal := by
    intro a b z k hk hb hz
    obtain ⟨b', hb', hbhalf⟩ := half_le_powerOfTen hk
    obtain rfl : b' = b := Option.some.inj (hb'.symm.trans hb)
    obtain ⟨num, den, hden, -, heq⟩ := Binary64.div?_eq a (y := b') (by linarith)
    exact Binary64.normal_of_ofQuotient? _ hden (heq.symm.trans hz)
  rw [scale?, Option.bind_eq_bind, Option.bind_eq_some_iff] at h
  obtain ⟨y, hy, h⟩ := h
  split at h
  · obtain rfl := Option.some.inj h
    exact Binary64.normal_of_ofQuotient? _ Nat.one_pos hy
  · split at h
    · simp at h
    · split at h
      · rw [Option.bind_eq_some_iff] at h
        obtain ⟨b, -, h⟩ := h
        exact hmul h
      · split at h
        · rw [Option.bind_eq_some_iff] at h
          obtain ⟨b, hb, h⟩ := h
          exact hdiv (by omega) hb h
        · split at h
          · simp only [Option.bind_eq_some_iff] at h
            obtain ⟨_, _, _, _, b, hb, h⟩ := h
            exact hdiv (by omega) hb h
          · cases h
            exact Binary64.normal_zero false

/-- **What a literal denotes is in range.** -/
theorem inRange_of_number? {l : NumberLiteral} {n : Number} (h : l.number? = some n) :
    n.InRange := by
  have hsigned : ∀ {word : Nat} {power : Int},
      (scale? word power).map (fun x => Number.real (if l.negative then x.neg else x)) = some n →
        n.InRange := by
    intro word power h
    obtain ⟨x, hx, rfl⟩ := Option.map_eq_some_iff.mp h
    have hnormal := normal_scale? hx
    split
    · exact hnormal.neg
    · exact hnormal
  have hword : (gather 0 l.digits).1 ≤ 0xFFFFFFFFFFFFFFFF := gather_le l.digits (by decide)
  rw [number?] at h
  simp only at h
  split at h
  · split at h
    · obtain rfl := Option.some.inj h
      simp only [Number.InRange]
      omega
    · split at h
      · obtain rfl := Option.some.inj h
        simp only [Number.InRange]
        omega
      · exact hsigned h
  · exact hsigned h

end NumberLiteral

/-! ### The size of a text -/

/-- The size of a decimal. -/
def Decimal.size (d : Decimal) : ℚ := d.digits * 10 ^ d.exponent

namespace NumberText

open NumberLiteral

/-- The size of the decimal that a text shows. -/
def size (t : NumberText) : ℚ :=
  natOfChars (t.whole ++ t.fraction) * 10 ^ (t.power?.getD 0 - t.fraction.length)

/-- It is not written like a whole number. -/
def IsReal (t : NumberText) : Prop := t.fraction ≠ [] ∨ t.power?.isSome

/-- The values of digits go on to the natural that the digits show. -/
theorem follow_values (word : Nat) (cs : List Char) :
    follow word (values cs) = Nat.ofDigitChars 10 cs word := foldl_values cs word

/-- Every digit has a value. -/
theorem length_values (cs : List Char) : (values cs).length = cs.length := List.length_map _

/-- Further digits go on from the natural of the first ones. -/
theorem natOfChars_append (cs ds : List Char) :
    natOfChars (cs ++ ds) = Nat.ofDigitChars 10 ds (natOfChars cs) :=
  Nat.ofDigitChars_append _

/-- Digits show a natural below the power of ten of their number. -/
theorem natOfChars_lt {cs : List Char} (h : ∀ c ∈ cs, c.isDigit = true) :
    natOfChars cs < 10 ^ cs.length := by
  induction cs using List.reverseRecOn with
  | nil => decide
  | append_singleton cs c ih =>
      have hcs := ih fun c hc => h c (by simp [hc])
      have hc := h c (by simp)
      rw [natOfChars_append, Nat.ofDigitChars_cons, Nat.ofDigitChars_nil, List.length_append,
        List.length_singleton, Nat.pow_succ]
      simp only [Char.isDigit_iff_toNat, Char.reduceToNat] at hc
      have hdigit : c.toNat - '0'.toNat ≤ 9 := by
        simp only [Char.reduceToNat]
        omega
      omega

/-- Digits that were dropped make a number no greater. -/
theorem gathered_size_le {word value dropped length : Nat} (power : Int)
    (hvalue : word * 10 ^ dropped ≤ value) (hdropped : dropped ≤ length) :
    (word : ℚ) * 10 ^ (((0 : Nat) : Int) - ((length - dropped : Nat) : Int) + power) ≤
      value * 10 ^ (power - length) := by
  have hcast : ((word * 10 ^ dropped : Nat) : ℚ) ≤ value := by exact_mod_cast hvalue
  calc (word : ℚ) * 10 ^ (((0 : Nat) : Int) - ((length - dropped : Nat) : Int) + power)
      = word * 10 ^ dropped * 10 ^ (power - length) := by
        rw [mul_assoc, ← zpow_natCast, ← zpow_add₀ (by norm_num)]
        congr 2
        omega
    _ ≤ value * 10 ^ (power - length) := by
        push_cast at hcast
        gcongr

/-- The text of a real with few whole digits and a size within the margin denotes a real. -/
theorem number?_literal {t : NumberText} (ht : t.Plain) (hreal : t.IsReal)
    (hlength : t.whole.length ≤ 16) (hsize : t.size ≤ margin) :
    ∃ x, t.literal.number? = some (.real x) ∧ x.Normal := by
  have hwhole : gather 0 (values t.whole) = (natOfChars t.whole, []) := by
    have hlt := natOfChars_lt ht.whole
    have hpow : 10 ^ t.whole.length ≤ 10 ^ 16 := Nat.pow_le_pow_right (by decide) hlength
    have hfollow : follow 0 (values t.whole) = natOfChars t.whole := follow_values 0 t.whole
    rw [gather_eq (by omega), hfollow]
  have hfraction : t.literal.fraction?.getD [] = values t.fraction := by
    simp only [literal]
    split
    · rename_i h
      simp [h, values]
    · rfl
  obtain ⟨hvalue, hdropped⟩ := gather_mul_le (natOfChars t.whole) (values t.fraction)
  have hstart : (gather 0 (values t.whole)).1 ≤ 0xFFFFFFFFFFFFFFFF :=
    gather_le (values t.whole) (by decide)
  rw [hwhole] at hstart
  have hword := gather_le (values t.fraction) hstart
  rw [follow_values, ← natOfChars_append] at hvalue
  rw [length_values] at hdropped
  generalize hgather : gather (natOfChars t.whole) (values t.fraction) = g at hvalue hdropped hword
  obtain ⟨word, dropped⟩ := g
  simp only at hvalue hdropped hword
  obtain ⟨x, hx⟩ : ∃ x, scale? word (((0 : Nat) : Int) -
      ((t.fraction.length - dropped.length : Nat) : Int) + t.power?.getD 0) = some x := by
    refine isSome_scale? hword (le_trans ?_ hsize)
    exact gathered_size_le _ hvalue hdropped
  have hnumber : t.literal.number? =
      some (.real (if t.negative then x.neg else x)) := by
    rw [NumberLiteral.number?]
    simp only [show t.literal.digits = values t.whole from rfl, hwhole]
    split
    · rename_i h₁ h₂ h₃
      exfalso
      simp only [literal] at h₁ h₂
      rcases hreal with h | h
      · simp [h] at h₁
      · simp [h₂] at h
    · rw [hfraction, hgather, length_values]
      exact congrArg (Option.map _) hx
  refine ⟨_, hnumber, ?_⟩
  have hnormal := normal_scale? hx
  split
  · exact hnormal.neg
  · exact hnormal

/-! ### The size of a decimal -/

/-- The digits of a natural show it. -/
theorem natOfChars_toDigits (n : Nat) : natOfChars (Nat.toDigits 10 n) = n :=
  Nat.ofDigitChars_ten_toDigits

/-- Zeros at the end multiply by a power of ten. -/
theorem natOfChars_append_zeros (cs : List Char) (n : Nat) :
    natOfChars (cs ++ List.replicate n '0') = natOfChars cs * 10 ^ n := by
  rw [natOfChars_append, Nat.ofDigitChars_replicate_zero, Nat.mul_comm]

/-- Zeros at the front do not matter. -/
theorem natOfChars_zeros_append (n : Nat) (cs : List Char) :
    natOfChars (List.replicate n '0' ++ cs) = natOfChars cs := by
  rw [natOfChars_append, natOfChars, Nat.ofDigitChars_replicate_zero, Nat.mul_zero, natOfChars]

/-- Trimming does not make a decimal larger. -/
theorem size_trim_le (d : Decimal) : d.trim.size ≤ d.size := by
  unfold Decimal.trim
  simp only
  split
  · exact le_refl _
  · generalize (List.takeWhile (fun x => decide (x = '0'))
      (Nat.toDigits 10 d.digits).reverse).length = z
    have hdiv : ((d.digits / 10 ^ z * 10 ^ z : Nat) : ℚ) ≤ d.digits := by
      exact_mod_cast Nat.div_mul_le_self _ _
    simp only [Decimal.size, Nat.pow_eq]
    calc ((d.digits / 10 ^ z : Nat) : ℚ) * 10 ^ (d.exponent + z)
        = ((d.digits / 10 ^ z * 10 ^ z : Nat) : ℚ) * 10 ^ d.exponent := by
          rw [zpow_add₀ (by norm_num), zpow_natCast]
          push_cast
          ring
      _ ≤ d.digits * 10 ^ d.exponent := by gcongr

/-- A text of the layout shows the trimmed decimal, with at most sixteen whole digits. -/
theorem ofDecimal_spec (d : Decimal) :
    (ofDecimal .json d).size = d.trim.size ∧ (ofDecimal .json d).IsReal ∧
      (ofDecimal .json d).whole.length ≤ 16 := by
  have hne := Nat.toDigits_ne_nil (n := d.trim.digits) (b := 10)
  have hshown := natOfChars_toDigits d.trim.digits
  have hlength := List.length_pos_iff.mpr hne
  rw [ofDecimal]
  generalize Nat.toDigits 10 d.trim.digits = shown at *
  simp only [DecimalLayout.json, Decimal.size, ← hshown]
  generalize hlead : d.trim.exponent + (shown.length : Int) - 1 = lead
  have hexponent : d.trim.exponent = lead + 1 - shown.length := by omega
  rw [hexponent]
  by_cases hrange : -5 ≤ lead ∧ lead ≤ 15
  · by_cases hnonneg : 0 ≤ lead
    · obtain ⟨n, rfl⟩ := Int.eq_ofNat_of_zero_le hnonneg
      simp only [hrange, hnonneg, and_self, ↓reduceIte, Int.toNat_natCast, size, IsReal]
      by_cases hlong : n + 1 < shown.length
      · -- The point stands among the digits.
        have hmin : min (n + 1) shown.length = n + 1 := by omega
        have hdrop : (shown.drop (n + 1)).isEmpty = false := by
          rw [List.isEmpty_eq_false_iff, ← List.length_pos_iff, List.length_drop]
          omega
        simp only [List.length_take, hmin, Nat.sub_self, List.replicate_zero, List.append_nil,
          hdrop, Bool.false_eq_true, ↓reduceIte, List.take_append_drop, List.length_drop,
          Option.getD_none]
        refine ⟨?_, .inl (by simpa using hdrop), by omega⟩
        congr 2
        omega
      · -- The digits end before the point, and zeros follow.
        have hmin : min (n + 1) shown.length = shown.length := by omega
        have htake : shown.take (n + 1) = shown := List.take_of_length_le (by omega)
        have hdrop : shown.drop (n + 1) = [] := List.drop_of_length_le (by omega)
        simp only [htake, hdrop, List.isEmpty_nil, ↓reduceIte, Option.getD_none,
          List.append_assoc, List.length_append, List.length_replicate,
          show ['0'] = List.replicate 1 '0' from rfl, List.replicate_append_replicate,
          natOfChars_append_zeros]
        refine ⟨?_, .inl (by simp), by omega⟩
        push_cast
        rw [mul_assoc, ← zpow_natCast, ← zpow_add₀ (by norm_num)]
        congr 2
        omega
    · obtain ⟨n, hn⟩ : ∃ n : Nat, -lead = n + 1 := ⟨(-lead).toNat - 1, by omega⟩
      have hzeros : ['0'] ++ (List.replicate n '0' ++ shown) =
          List.replicate (n + 1) '0' ++ shown := rfl
      simp only [hrange, hnonneg, and_self, ↓reduceIte, hn, size, IsReal,
        show ((n : Int) + 1).toNat - 1 = n by omega, hzeros, natOfChars_zeros_append,
        Option.getD_none, List.length_append, List.length_replicate]
      refine ⟨?_, .inl (by simp [hne]), by simp⟩
      congr 2
      omega
  · simp only [hrange, ↓reduceIte, size, IsReal, List.take_append_drop, Option.getD_some,
      Option.isSome_some, or_true, true_and, List.length_drop, List.length_take]
    refine ⟨?_, by omega⟩
    congr 2
    omega

end NumberText

/-! ### The shortest text of a value -/

namespace Binary64

open NumberLiteral (margin)

/-- To scale a quotient is to multiply it by a power of ten. -/
theorem scaleByTen_quotient (num den : Nat) (k : Int) :
    ((scaleByTen num den k).1 : ℚ) / (scaleByTen num den k).2 = num / den * 10 ^ k := by
  rw [scaleByTen]
  split
  · rename_i h
    obtain ⟨n, rfl⟩ := Int.eq_ofNat_of_zero_le h
    rw [Int.toNat_natCast, Nat.pow_eq, zpow_natCast]
    push_cast
    ring
  · rename_i h
    obtain ⟨n, hn⟩ := Int.eq_ofNat_of_zero_le (by omega : 0 ≤ -k)
    obtain rfl : k = -n := by omega
    simp only [neg_neg, Int.toNat_natCast, zpow_neg, zpow_natCast, Nat.pow_eq]
    push_cast
    rw [div_mul_eq_div_div, div_eq_mul_inv (num / den : ℚ)]

/-- A quotient that was scaled has a positive denominator. -/
theorem scaleByTen_den_pos (num : Nat) {den : Nat} (k : Int) (hden : 0 < den) :
    0 < (scaleByTen num den k).2 := by
  rw [scaleByTen]
  split
  · exact hden
  · exact Nat.mul_pos hden (Nat.pow_pos (by decide))

/-- A decimal that rounds to a value is at most half a step above it. -/
theorem size_le_of_holds {x : Binary64} {d : Decimal}
    (h : (rounding x).holds d.digits d.exponent = true) :
    d.size ≤ (x.mantissa + 1 / 2) * 2 ^ x.exponent := by
  have hden : (rounding x).den = (scaleByTwo (4 * x.mantissa + 2) 4 x.exponent).2 := by
    simp only [rounding, scaleByTwo]
    split <;> rfl
  have hdenpos : (0 : ℚ) < (rounding x).den := by
    rw [hden]
    exact_mod_cast scaleByTwo_den_pos _ _ (by decide)
  have hhi : ((rounding x).hi : ℚ) / (rounding x).den =
      (x.mantissa + 1 / 2) * 2 ^ x.exponent := by
    rw [hden]
    refine (scaleByTwo_quotient _ _ _).trans ?_
    push_cast
    ring
  have hscaled := scaleByTen_quotient d.digits 1 d.exponent
  have hscalepos : (0 : ℚ) < (scaleByTen d.digits 1 d.exponent).2 := by
    exact_mod_cast scaleByTen_den_pos _ _ (by decide)
  have hle : (scaleByTen d.digits 1 d.exponent).1 * (rounding x).den ≤
      (rounding x).hi * (scaleByTen d.digits 1 d.exponent).2 := by
    simp only [Interval.holds] at h
    split at h
    · simp only [Bool.and_eq_true, decide_eq_true_eq] at h
      exact h.2
    · simp only [Bool.and_eq_true, decide_eq_true_eq] at h
      exact h.2.le
  have hleq : ((scaleByTen d.digits 1 d.exponent).1 : ℚ) * (rounding x).den ≤
      (rounding x).hi * (scaleByTen d.digits 1 d.exponent).2 := by exact_mod_cast hle
  rw [Nat.cast_one, div_one] at hscaled
  rw [Decimal.size, ← hscaled, ← hhi, div_le_div_iff₀ hscalepos hdenpos]
  exact hleq

/-- All but the three greatest values are half a step below the margin. -/
theorem le_margin {x : Binary64} (hx : x.Normal)
    (hlow : x.exponent < 971 ∨ x.mantissa ≤ 2 ^ 53 - 4) :
    (x.mantissa + 1 / 2 : ℚ) * 2 ^ x.exponent ≤ margin := by
  have hpos : (0 : ℚ) < 2 ^ 970 := by positivity
  rcases hlow with he | hm
  · have hm : (x.mantissa : ℚ) + 1 / 2 ≤ 2 ^ 53 := by
      have : (x.mantissa : ℚ) + 1 ≤ 2 ^ 53 := by exact_mod_cast hx.mantissa
      linarith
    have hp : (2 : ℚ) ^ x.exponent ≤ 2 ^ 970 := by
      rw [← zpow_natCast]
      exact zpow_le_zpow_right₀ one_le_two (by omega)
    calc (x.mantissa + 1 / 2 : ℚ) * 2 ^ x.exponent ≤ 2 ^ 53 * 2 ^ 970 := by gcongr
      _ ≤ (2 ^ 54 - 7) * 2 ^ 970 := by
        refine mul_le_mul_of_nonneg_right ?_ hpos.le
        norm_num
  · have hm : (x.mantissa : ℚ) + 1 / 2 ≤ 2 ^ 53 - 7 / 2 := by
      have : ((x.mantissa + 4 : Nat) : ℚ) ≤ (2 ^ 53 : Nat) := by
        rw [Nat.cast_le]
        omega
      push_cast at this
      linarith
    have hp : (2 : ℚ) ^ x.exponent ≤ 2 * 2 ^ 970 := by
      calc (2 : ℚ) ^ x.exponent ≤ 2 ^ (((970 : Nat) : Int) + 1) :=
            zpow_le_zpow_right₀ one_le_two hx.greatest
        _ = 2 * 2 ^ 970 := by
          rw [zpow_add_one₀ two_ne_zero, zpow_natCast, mul_comm]
    calc (x.mantissa + 1 / 2 : ℚ) * 2 ^ x.exponent ≤ (2 ^ 53 - 7 / 2) * (2 * 2 ^ 970) :=
          mul_le_mul hm hp (by positivity) (by norm_num)
      _ = margin := by
        have hdouble : ∀ y : ℚ, (2 ^ 53 - 7 / 2) * (2 * y) = (2 ^ 54 - 7) * y := by
          intro y
          ring
        exact hdouble _

end Binary64

/-! ### Reading a number again -/

/-- The value of a number that is not a whole one. -/
def Number.real? : Number → Option Binary64
  | .whole _ => none
  | .real x => some x

/-- The value that the text of a value denotes. -/
def Binary64.reread (x : Binary64) : Binary64 :=
  ((Number.real x).scanned?.bind Number.real?).getD x

/-- The number that the text of a number in range denotes. -/
def Number.reread : Number → Number
  | .whole i => .whole i
  | .real x => .real x.reread

/-- Whether the text of a number denotes the number itself. Not every real number is so, because
numbers are not read exactly. -/
def Number.Steady (n : Number) : Prop := n.reread = n

namespace Number

/-- A whole number in range is scanned as itself. -/
theorem scanned?_whole {i : Int} (h : (Number.whole i).InRange) :
    (Number.whole i).scanned? = some (.whole i) := by
  simp only [InRange] at h
  have hvalue : NumberLiteral.follow 0 (NumberText.values (Nat.toDigits 10 i.natAbs)) =
      i.natAbs := by
    rw [NumberText.follow_values, Nat.ofDigitChars_ten_toDigits]
  have hgather : NumberLiteral.gather 0 (NumberText.values (Nat.toDigits 10 i.natAbs)) =
      (i.natAbs, []) := by
    rw [NumberLiteral.gather_eq (by omega), hvalue]
  simp only [scanned?, NumberText.ofNumber, NumberText.literal, NumberLiteral.number?, hgather,
    ↓reduceIte]
  by_cases hi : i < 0
  · have hword : i.natAbs ≠ 0 ∧ i.natAbs ≤ 0x8000000000000000 := by omega
    simp only [hi, decide_true, Bool.not_true, Bool.false_eq_true, ↓reduceIte, hword, ne_eq,
      not_false_eq_true, and_self, Option.some.injEq, Number.whole.injEq]
    omega
  · simp only [hi, decide_false, Bool.not_false, ↓reduceIte, Option.some.injEq,
      Number.whole.injEq]
    omega

/-- The three greatest values can be read again. -/
theorem scanned?_greatest : ∀ m ∈ [2 ^ 53 - 3, 2 ^ 53 - 2, 2 ^ 53 - 1], ∀ negative : Bool,
    ((Number.real ⟨negative, m, 971⟩).scanned?.bind real?).isSome = true := by
  decide +kernel

/-- The text of a value below them is within the margin. -/
theorem scanned?_below {x : Binary64} (hx : x.Normal)
    (hlow : x.exponent < 971 ∨ x.mantissa ≤ 2 ^ 53 - 4) :
    ∃ y, (Number.real x).scanned? = some (.real y) ∧ y.Normal := by
  have hplain := NumberText.plain_ofNumber (.real x)
  by_cases hzero : x.mantissa = 0 ∨ x.shortest.digits = 0
  · refine NumberText.number?_literal hplain ?_ ?_ ?_
    · exact .inl (by simp [NumberText.ofNumber, NumberText.ofBinary64, hzero])
    · simp [NumberText.ofNumber, NumberText.ofBinary64, hzero]
    · have hzeros : natOfChars ['0', '0'] = 0 := by decide
      simp only [NumberText.ofNumber, NumberText.ofBinary64, hzero, ↓reduceIte, NumberText.size,
        List.cons_append, List.nil_append, hzeros, Nat.cast_zero, zero_mul]
      rw [NumberLiteral.margin]
      have hpos : (0 : ℚ) ≤ 2 ^ 54 - 7 := by norm_num
      positivity
  · have hholds : (Binary64.rounding x).holds x.shortest.digits x.shortest.exponent = true := by
      rcases NumberText.shortest_cases x with h | h
      · exact absurd (.inr (by rw [h])) hzero
      · exact h
    obtain ⟨hsize, hreal, hlength⟩ := NumberText.ofDecimal_spec x.shortest
    refine NumberText.number?_literal hplain ?_ ?_ ?_
    · simp only [NumberText.ofNumber, NumberText.ofBinary64, hzero, ↓reduceIte]
      exact hreal
    · simpa only [NumberText.ofNumber, NumberText.ofBinary64, hzero, ↓reduceIte] using hlength
    · have hle : (NumberText.ofDecimal .json x.shortest).size ≤ NumberLiteral.margin := by
        calc (NumberText.ofDecimal .json x.shortest).size = x.shortest.trim.size := hsize
          _ ≤ x.shortest.size := NumberText.size_trim_le _
          _ ≤ (x.mantissa + 1 / 2) * 2 ^ x.exponent := Binary64.size_le_of_holds hholds
          _ ≤ NumberLiteral.margin := Binary64.le_margin hx hlow
      simp only [NumberText.ofNumber, NumberText.ofBinary64, hzero, ↓reduceIte]
      exact hle

/-- **The text of a number in range denotes a number in range**, a whole number itself. -/
theorem scanned?_eq {n : Number} (h : n.InRange) :
    n.scanned? = some n.reread ∧ n.reread.InRange := by
  cases n with
  | whole i => exact ⟨scanned?_whole h, h⟩
  | real x =>
      obtain ⟨y, hy⟩ : ∃ y, (Number.real x).scanned? = some (.real y) := by
        by_cases hlow : x.exponent < 971 ∨ x.mantissa ≤ 2 ^ 53 - 4
        · obtain ⟨y, hy, -⟩ := scanned?_below h hlow
          exact ⟨y, hy⟩
        · obtain ⟨negative, m, e⟩ := x
          have hm := h.mantissa
          have he := h.greatest
          simp only [Binary64.maxExponent] at hlow hm he
          obtain rfl : e = 971 := by omega
          have hmem : m ∈ [2 ^ 53 - 3, 2 ^ 53 - 2, 2 ^ 53 - 1] := by
            simp only [List.mem_cons, List.not_mem_nil, or_false]
            omega
          have hsome := scanned?_greatest m hmem negative
          obtain ⟨z, hz⟩ := Option.isSome_iff_exists.mp hsome
          obtain ⟨n, hn, hreal⟩ := Option.bind_eq_some_iff.mp hz
          cases n with
          | whole i => simp [real?] at hreal
          | real y => exact ⟨y, hn⟩
      have hreread : (Number.real x).reread = .real y := by
        simp [reread, Binary64.reread, hy, real?]
      rw [hreread]
      exact ⟨hy, NumberLiteral.inRange_of_number? hy⟩

/-- Whole numbers are read again as themselves. -/
theorem IsWhole64.steady {n : Number} (h : n.IsWhole64) : n.Steady := by
  cases n with
  | whole i => rfl
  | real x => exact h.elim

end Number

/-- A property of numbers that survives being written: all whole numbers of the 64-bit ranges have
it, only numbers in range have it, and a number that has it keeps it when it is read again. -/
class NumberRange (P : Number → Prop) : Prop where
  covers : ∀ n : Number, n.IsWhole64 → P n
  inRange : ∀ n, P n → n.InRange
  reread : ∀ n, P n → P n.reread

instance : NumberRange Number.IsWhole64 where
  covers _ h := h
  inRange _ h := h.inRange
  reread _ h := h.steady.symm ▸ h

instance : NumberRange Number.InRange where
  covers _ h := h.inRange
  inRange _ h := h
  reread _ h := (Number.scanned?_eq h).2

end ClusterSnapshot
