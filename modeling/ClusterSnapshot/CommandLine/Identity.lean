import ClusterSnapshot.Store.Basic

/-!
# Identities from a seed

Identities are written as random UUIDs: hexadecimal digits in five groups, one of which tells the
version and one, by half of it, the variant. Those of one source are numbered on from its seed.
-/

namespace ClusterSnapshot.CommandLine

/-- The last `count` hexadecimal digits of a natural, the most significant first. -/
def hexDigits : Nat → Nat → List Nat
  | 0, _ => []
  | count + 1, n => hexDigits count (n / 16) ++ [n % 16]

/-- Digits as written. -/
def hexText (digits : List Nat) : String := String.ofList (digits.map Nat.digitChar)

/-- The identity made of a natural. -/
def uuid (n : Nat) : String :=
  let digits := hexDigits 31 n
  let variant := ((digits.drop 15).take 1).map fun d => 8 + d % 4
  "-".intercalate [
    hexText (digits.take 8),
    hexText ((digits.drop 8).take 4),
    hexText (4 :: (digits.drop 12).take 3),
    hexText (variant ++ (digits.drop 16).take 3),
    hexText (digits.drop 19)]

/-- The identities numbered on from a seed. -/
def uidsFrom (seed : Nat) : UidSource := ⟨fun n => uuid (seed + n), 0⟩

end ClusterSnapshot.CommandLine
