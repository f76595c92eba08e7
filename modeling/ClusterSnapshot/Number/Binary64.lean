/-!
# Finite binary64 values

A finite value of the binary64 format is a sign, a whole mantissa and a power of two. This module
rounds a quotient of naturals to the nearest such value, ties going to the even mantissa, and
derives the product and the quotient of two values from that one rule. A result too large for the
format is `none`: infinities and not-a-number are not values here.
-/

namespace ClusterSnapshot

/-- The finite value `± mantissa · 2 ^ exponent`. In normal form, which every function here
returns, the mantissa is below `2 ^ 53`, the exponent at least `-1074`, and a mantissa below
`2 ^ 52` occurs only with the least exponent. -/
structure Binary64 where
  /-- Whether the sign is minus. Zero has both signs. -/
  negative : Bool
  mantissa : Nat
  exponent : Int
  deriving DecidableEq, Repr

namespace Binary64

/-- The least exponent of the format. -/
def minExponent : Int := -1074

/-- The greatest exponent of the format. -/
def maxExponent : Int := 971

/-- The zero of a sign. -/
def zero (negative : Bool) : Binary64 := ⟨negative, 0, minExponent⟩

/-- `x · 2 ^ e` as a quotient of naturals. -/
def scaleByTwo (num den : Nat) (e : Int) : Nat × Nat :=
  if 0 ≤ e then (num * Nat.pow 2 e.toNat, den) else (num, den * Nat.pow 2 (-e).toNat)

/-- The greatest `k` with `2 ^ k ≤ num / den`, for positive `num` and `den`. -/
def floorLog2 (num den : Nat) : Int :=
  let guess : Int := (Nat.log2 num : Int) - (Nat.log2 den : Int)
  let (n, d) := scaleByTwo num den (-guess)
  if d ≤ n then guess else guess - 1

/-- The natural nearest to `num / den`; of two equally near, the even one. -/
def roundHalfEven (num den : Nat) : Nat :=
  let q := num / den
  let r := num % den
  if 2 * r < den then q
  else if den < 2 * r then q + 1
  else if q % 2 = 0 then q else q + 1

/-- The value nearest to `± num / den`, for positive `den`; `none` beyond the greatest value. -/
def ofQuotient? (negative : Bool) (num den : Nat) : Option Binary64 :=
  if num = 0 then some (zero negative)
  else
    let e := max (floorLog2 num den - 52) minExponent
    let (n, d) := scaleByTwo num den (-e)
    let m := roundHalfEven n d
    let (m, e) := if m = 0x20000000000000 then (0x10000000000000, e + 1) else (m, e)
    if maxExponent < e then none else some ⟨negative, m, e⟩

/-- The magnitude as a quotient of naturals. -/
def magnitude (x : Binary64) : Nat × Nat := scaleByTwo x.mantissa 1 x.exponent

/-- The value nearest to a natural. -/
def ofNat? (n : Nat) : Option Binary64 := ofQuotient? false n 1

/-- The product, rounded. -/
def mul? (x y : Binary64) : Option Binary64 :=
  let (a, b) := x.magnitude
  let (c, d) := y.magnitude
  ofQuotient? (x.negative != y.negative) (a * c) (b * d)

/-- The quotient by a value that is not zero, rounded. -/
def div? (x y : Binary64) : Option Binary64 :=
  let (a, b) := x.magnitude
  let (c, d) := y.magnitude
  ofQuotient? (x.negative != y.negative) (a * d) (b * c)

/-- The value of the other sign. -/
def neg (x : Binary64) : Binary64 := { x with negative := !x.negative }

end Binary64

end ClusterSnapshot
