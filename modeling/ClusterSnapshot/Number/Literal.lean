import ClusterSnapshot.Number.Binary64

/-!
# Number literals and what they denote

A literal is a number as it is written: sign, whole digits, an optional fraction and an optional
power of ten. It denotes a whole number when it is written as one that fits the signed or the
unsigned 64-bit range, and a binary64 value otherwise.

A binary64 value is not the nearest one to the literal. Its digits are gathered into a 64-bit
word for as long as they fit; whole digits beyond that only count as places, fraction digits
beyond that are dropped. The word is then rounded to a binary64 value and multiplied or divided
once by a power of ten, itself rounded. Powers beyond `10 ^ 308` are divided out in two steps.
-/

namespace ClusterSnapshot

/-- A number read from text: a whole number of the 64-bit ranges, or a binary64 value. -/
inductive Number where
  | whole (value : Int)
  | real (value : Binary64)
  deriving DecidableEq, Repr

/-- A number as written. Digits are their values, the most significant first. -/
structure NumberLiteral where
  negative : Bool
  digits : List Nat
  /-- The digits after the point, if there is a point. -/
  fraction? : Option (List Nat)
  /-- The power of ten, if one is written. -/
  power? : Option Int
  deriving DecidableEq, Repr

namespace NumberLiteral

/-- The word gathered from leading digits and the number of digits left over: a digit is taken
while the word stays below `2 ^ 64`. -/
def gather (word : Nat) : List Nat → Nat × List Nat
  | [] => (word, [])
  | d :: rest =>
    if word * 10 + d ≤ 0xFFFFFFFFFFFFFFFF then gather (word * 10 + d) rest else (word, d :: rest)

/-- The binary64 value nearest to `10 ^ k`, for `k` up to 308. -/
def powerOfTen? (k : Nat) : Option Binary64 := Binary64.ofNat? (Nat.pow 10 k)

/-- `word · 10 ^ power`, by one rounded product or quotient; `none` if that is beyond every
value. -/
def scale? (word : Nat) (power : Int) : Option Binary64 := do
  let x ← Binary64.ofNat? word
  if word = 0 then some x
  else if 308 < power then none
  else if 0 ≤ power then x.mul? (← powerOfTen? power.toNat)
  else if -308 ≤ power then x.div? (← powerOfTen? (-power).toNat)
  else if -616 ≤ power then do
    let y ← x.div? (← powerOfTen? 308)
    y.div? (← powerOfTen? (-power - 308).toNat)
  else some (Binary64.zero false)

/-- The number that a literal denotes; `none` if it is beyond every binary64 value. -/
def number? (l : NumberLiteral) : Option Number :=
  let (word, extra) := gather 0 l.digits
  let sign (x : Binary64) : Number := .real (if l.negative then x.neg else x)
  match l.fraction?, l.power?, extra with
  | none, none, [] =>
    if !l.negative then some (.whole word)
    else if word ≠ 0 ∧ word ≤ 0x8000000000000000 then some (.whole (-word))
    else (scale? word 0).map sign
  | fraction?, power?, extra =>
    let fraction := fraction?.getD []
    let (word, dropped) := gather word fraction
    let places : Int := extra.length - (fraction.length - dropped.length : Nat)
    (scale? word (places + power?.getD 0)).map sign

end NumberLiteral

end ClusterSnapshot
