import ClusterSnapshot.Number.Binary64

/-!
# Shortest decimal text of a binary64 value

A value is written with the fewest decimal digits that read back as it. Among the texts of that
length the one nearest to the value is taken, and of two equally near ones the even one.

The reals that round to a value form an interval around it, whose ends belong to it exactly when
the mantissa is even. For each number of digits the two neighbours of the value on that decimal
grid are tried; if any point of the grid lies in the interval, one of these two does.
-/

namespace ClusterSnapshot

/-- A decimal `digits · 10 ^ exponent`. -/
structure Decimal where
  digits : Nat
  exponent : Int
  deriving DecidableEq, Repr

/-- How a decimal is laid out: from which to which decimal exponent the point is placed among the
digits, the rest being written with an exponent. -/
structure DecimalLayout where
  /-- The least exponent of the leading digit written without exponent. -/
  leastPositional : Int
  /-- The greatest exponent of the leading digit written without exponent. -/
  greatestPositional : Int

namespace Binary64

/-- The number of decimal digits of a natural, none for zero. -/
def decimalLength (n : Nat) : Nat := if n = 0 then 0 else (Nat.toDigits 10 n).length

/-- `num / den · 10 ^ k` as a quotient of naturals. -/
def scaleByTen (num den : Nat) (k : Int) : Nat × Nat :=
  if 0 ≤ k then (num * Nat.pow 10 k.toNat, den) else (num, den * Nat.pow 10 (-k).toNat)

/-- The greatest `k` with `10 ^ k ≤ num / den`, for positive `num` and `den`. -/
def floorLog10 (num den : Nat) : Int :=
  if den ≤ num then (decimalLength (num / den) : Int) - 1
  else -(decimalLength ((den + num - 1) / num - 1) : Int)

/-- The interval of reals that round to a positive value, as bounds `lo ≤ hi` over one common
denominator, with whether the bounds themselves belong to it. -/
structure Interval where
  lo : Nat
  hi : Nat
  den : Nat
  closed : Bool

/-- The reals that round to a positive value. Below a power of two the grid is twice as fine, so
there the lower bound is nearer. -/
def rounding (x : Binary64) : Interval :=
  let finer := x.mantissa = 0x10000000000000 ∧ minExponent < x.exponent
  let lo := 4 * x.mantissa - (if finer then 1 else 2)
  let hi := 4 * x.mantissa + 2
  let (lo', den) := scaleByTwo lo 4 x.exponent
  let (hi', _) := scaleByTwo hi 4 x.exponent
  ⟨lo', hi', den, x.mantissa % 2 = 0⟩

/-- Whether the decimal `d · 10 ^ p` lies in an interval. -/
def Interval.holds (i : Interval) (d : Nat) (p : Int) : Bool :=
  let (n, e) := scaleByTen d 1 p
  let below := i.lo * e
  let mid := n * i.den
  let above := i.hi * e
  if i.closed then below ≤ mid && mid ≤ above else below < mid && mid < above

/-- The decimal of at most `count` digits that reads back as a positive value, if there is one:
the nearest of the value's two neighbours on that grid. -/
def neighbour? (x : Binary64) (count : Nat) : Option Decimal :=
  let (num, den) := x.magnitude
  let p := floorLog10 num den - (count : Int) + 1
  let (n, d) := scaleByTen num den (-p)
  let q := n / d
  let r := n % d
  let below := (rounding x).holds q p
  let above := (rounding x).holds (q + 1) p
  match below, above with
  | false, false => none
  | true, false => some ⟨q, p⟩
  | false, true => some ⟨q + 1, p⟩
  | true, true =>
    if 2 * r < d || (2 * r = d && q % 2 = 0) then some ⟨q, p⟩ else some ⟨q + 1, p⟩

/-- The shortest decimal that reads back as a positive value. Seventeen digits always do. -/
def shortest (x : Binary64) : Decimal :=
  ((List.range 17).findSome? (fun i => neighbour? x (i + 1))).getD ⟨0, 0⟩

end Binary64

/-- Drops the zeros at the end of the digits. -/
def Decimal.trim (d : Decimal) : Decimal :=
  let shown := (Nat.toDigits 10 d.digits).reverse
  let zeros := (shown.takeWhile (· = '0')).length
  if d.digits = 0 then d else ⟨d.digits / Nat.pow 10 zeros, d.exponent + zeros⟩

/-- The text of a positive decimal in a layout. Without exponent there is always a digit on both
sides of the point; with exponent its sign is always written. -/
def Decimal.layOut (layout : DecimalLayout) (d : Decimal) : List Char :=
  let d := d.trim
  let shown := Nat.toDigits 10 d.digits
  let lead : Int := d.exponent + shown.length - 1
  if layout.leastPositional ≤ lead ∧ lead ≤ layout.greatestPositional then
    if 0 ≤ lead then
      let whole := shown.take (lead.toNat + 1)
      let padded := whole ++ List.replicate (lead.toNat + 1 - whole.length) '0'
      let rest := shown.drop (lead.toNat + 1)
      padded ++ '.' :: (if rest.isEmpty then ['0'] else rest)
    else
      '0' :: '.' :: List.replicate ((-lead).toNat - 1) '0' ++ shown
  else
    let mantissa := match shown with
      | [] => []
      | [c] => [c]
      | c :: rest => c :: '.' :: rest
    let power := (if lead < 0 then '-' else '+') :: Nat.toDigits 10 lead.natAbs
    mantissa ++ 'e' :: power

/-- The layout of numbers in written JSON: no exponent from `1e-5` up to below `1e16`. -/
def DecimalLayout.json : DecimalLayout := ⟨-5, 15⟩

/-- The shortest text of a value in a layout. -/
def Binary64.text (layout : DecimalLayout) (x : Binary64) : List Char :=
  let shown := if x.mantissa = 0 then ['0', '.', '0'] else x.shortest.layOut layout
  if x.negative then '-' :: shown else shown

end ClusterSnapshot
