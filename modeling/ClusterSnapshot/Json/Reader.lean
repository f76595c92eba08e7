import ClusterSnapshot.Json.Document

/-!
# Reading JSON text

`Document.ofText?` reads a text as one JSON document with nothing but blanks around it. The
scanners take the characters that are left and return what they read with what is left after it.

A text in quotes is scanned in two passes: `scanUnits` undoes the escapes one by one, and
`joinUnits` puts pairs of surrogates together. So an escape is well written by itself, and only
the whole text can fail to denote one.
-/

namespace ClusterSnapshot

namespace JsonText

/-- The four blanks. -/
def isBlank (c : Char) : Bool := c = ' ' || c = '\n' || c = '\t' || c = '\r'

/-- What is left after leading blanks. -/
def skipBlanks (cs : List Char) : List Char := cs.dropWhile isBlank

/-! ### Texts -/

/-- One unit of a text in quotes: a character, or an escaped code that is half of a character. -/
inductive TextUnit where
  | char (c : Char)
  | surrogate (code : Nat)
  deriving DecidableEq, Repr

/-- The value of a hexadecimal digit. -/
def hexDigit? (c : Char) : Option Nat :=
  if '0' ≤ c ∧ c ≤ '9' then some (c.toNat - '0'.toNat)
  else if 'a' ≤ c ∧ c ≤ 'f' then some (c.toNat - 'a'.toNat + 10)
  else if 'A' ≤ c ∧ c ≤ 'F' then some (c.toNat - 'A'.toNat + 10)
  else none

/-- The value of four hexadecimal digits. -/
def hexCode? (a b c d : Char) : Option Nat := do
  let a ← hexDigit? a
  let b ← hexDigit? b
  let c ← hexDigit? c
  let d ← hexDigit? d
  return ((a * 16 + b) * 16 + c) * 16 + d

/-- The unit of an escaped code. -/
def TextUnit.ofCode (code : Nat) : TextUnit :=
  if 0xD800 ≤ code ∧ code ≤ 0xDFFF then .surrogate code else .char (Char.ofNat code)

/-- The character that a one-letter escape stands for. -/
def shortEscape? : Char → Option Char
  | '"' => some '"'
  | '\\' => some '\\'
  | '/' => some '/'
  | 'b' => some '\x08'
  | 'f' => some '\x0c'
  | 'n' => some '\n'
  | 'r' => some '\r'
  | 't' => some '\t'
  | _ => none

/-- The units up to the closing quote, after those already `seen`, the latest first. -/
def scanUnits (seen : List TextUnit) : List Char → Option (List TextUnit × List Char)
  | [] => none
  | '"' :: rest => some (seen.reverse, rest)
  | '\\' :: 'u' :: a :: b :: c :: d :: rest =>
    match hexCode? a b c d with
    | some code => scanUnits (.ofCode code :: seen) rest
    | none => none
  | '\\' :: e :: rest =>
    match shortEscape? e with
    | some c => scanUnits (.char c :: seen) rest
    | none => none
  | c :: rest =>
    if c = '\\' ∨ c.toNat < 0x20 then none else scanUnits (.char c :: seen) rest

/-- The characters of a list of units, a high surrogate joined with the low one after it; `none`
if a surrogate stands alone. -/
def joinUnits : List TextUnit → Option (List Char)
  | [] => some []
  | .char c :: rest => (joinUnits rest).map (c :: ·)
  | .surrogate high :: .surrogate low :: rest =>
    if high < 0xDC00 ∧ 0xDC00 ≤ low then
      let c := Char.ofNat (0x10000 + (high - 0xD800) * 0x400 + (low - 0xDC00))
      (joinUnits rest).map (c :: ·)
    else none
  | .surrogate _ :: _ => none

/-- The text after an opening quote: `none` inside if it is well written and denotes no text. -/
def scanString (cs : List Char) : Option (Option String × List Char) := do
  let (units, rest) ← scanUnits [] cs
  return ((joinUnits units).map String.ofList, rest)

/-! ### Numbers -/

/-- The digits at the front, as their values. -/
def scanDigits (cs : List Char) : List Nat × List Char :=
  ((cs.takeWhile Char.isDigit).map (fun c => c.toNat - '0'.toNat), cs.dropWhile Char.isDigit)

/-- A fraction, if a point follows; then at least one digit must. -/
def scanFraction : List Char → Option (Option (List Nat) × List Char)
  | '.' :: rest =>
    match scanDigits rest with
    | ([], _) => none
    | (digits, rest) => some (some digits, rest)
  | cs => some (none, cs)

/-- The natural written by decimal digits. -/
def natOfDigits (digits : List Nat) : Nat := digits.foldl (fun n d => n * 10 + d) 0

/-- A power of ten, if `e` or `E` follows; then at least one digit must. -/
def scanPower : List Char → Option (Option Int × List Char)
  | c :: rest =>
    if c = 'e' ∨ c = 'E' then
      let (negative, rest) := match rest with
        | '+' :: rest => (false, rest)
        | '-' :: rest => (true, rest)
        | rest => (false, rest)
      match scanDigits rest with
      | ([], _) => none
      | (digits, rest) =>
        let n : Int := natOfDigits digits
        some (some (if negative then -n else n), rest)
    else some (none, c :: rest)
  | [] => some (none, [])

/-- Whether a minus stands at the front, and what is left after it. -/
def scanMinus : List Char → Bool × List Char
  | '-' :: rest => (true, rest)
  | cs => (false, cs)

/-- A number literal. No zero stands before another whole digit. -/
def scanNumber (cs : List Char) : Option (NumberLiteral × List Char) := do
  let (negative, cs) := scanMinus cs
  let (digits, cs) := scanDigits cs
  match digits with
  | [] => none
  | 0 :: _ :: _ => none
  | digits =>
    let (fraction?, cs) ← scanFraction cs
    let (power?, cs) ← scanPower cs
    return (⟨negative, digits, fraction?, power?⟩, cs)

/-! ### Values -/

mutual

/-- One value, after blanks. Every value takes at least one character, so as many steps as there
are characters are enough. -/
def scanValue : Nat → List Char → Option (Document × List Char)
  | 0, _ => none
  | fuel + 1, cs =>
    match skipBlanks cs with
    | 'n' :: 'u' :: 'l' :: 'l' :: rest => some (.null, rest)
    | 't' :: 'r' :: 'u' :: 'e' :: rest => some (.bool true, rest)
    | 'f' :: 'a' :: 'l' :: 's' :: 'e' :: rest => some (.bool false, rest)
    | '"' :: rest => (scanString rest).map fun (s?, rest) => (.string s?, rest)
    | '[' :: rest =>
      match skipBlanks rest with
      | ']' :: rest => some (.array [], rest)
      | rest => (scanItems fuel [] rest).map fun (items, rest) => (.array items, rest)
    | '{' :: rest =>
      match skipBlanks rest with
      | '}' :: rest => some (.object [], rest)
      | rest => (scanMembers fuel [] rest).map fun (members, rest) => (.object members, rest)
    | cs => (scanNumber cs).map fun (l, rest) => (.number l.number?, rest)

/-- The items of an array up to its closing bracket, after those already `seen`, the latest
first. -/
def scanItems : Nat → List Document → List Char → Option (List Document × List Char)
  | 0, _, _ => none
  | fuel + 1, seen, cs =>
    match scanValue fuel cs with
    | none => none
    | some (d, rest) =>
      match skipBlanks rest with
      | ',' :: rest => scanItems fuel (d :: seen) rest
      | ']' :: rest => some ((d :: seen).reverse, rest)
      | _ => none

/-- The members of an object up to its closing brace, after those already `seen`, the latest
first. -/
def scanMembers : Nat → List (Option String × Document) → List Char →
    Option (List (Option String × Document) × List Char)
  | 0, _, _ => none
  | fuel + 1, seen, cs =>
    match skipBlanks cs with
    | '"' :: rest =>
      match scanString rest with
      | none => none
      | some (k?, rest) =>
        match skipBlanks rest with
        | ':' :: rest =>
          match scanValue fuel rest with
          | none => none
          | some (d, rest) =>
            match skipBlanks rest with
            | ',' :: rest => scanMembers fuel ((k?, d) :: seen) rest
            | '}' :: rest => some (((k?, d) :: seen).reverse, rest)
            | _ => none
        | _ => none
    | _ => none

end

end JsonText

/-- The document that a text writes, if it is a JSON text. -/
def Document.ofChars? (cs : List Char) : Option Document :=
  match JsonText.scanValue (cs.length + 1) cs with
  | some (d, rest) => if (JsonText.skipBlanks rest).isEmpty then some d else none
  | none => none

/-- The document that a text writes, if it is a JSON text. -/
def Document.ofText? (text : String) : Option Document := ofChars? text.toList

/-- The free value that a text writes. -/
def Json.ofText? (text : String) : Option Json :=
  (Document.ofText? text).bind (·.value? nestingLimit)

end ClusterSnapshot
