import ClusterSnapshot.Toml.Value
import ClusterSnapshot.Number.Literal

/-!
# TOML texts, numbers and dates

Scanners for the parts of a TOML document that hold no other values. Each takes the characters that
are left and returns what it read with what is left after it.

A text stands in one of four kinds of quotes: with escapes or without, on one line or on several.
In a text on several lines a line break right after the opening quotes does not count, and the
breaks inside are `\n` however they are written. One or two quotes in a row may stand inside, and
up to two more right before the closing ones.
-/

namespace ClusterSnapshot.Toml

/-! ### Blanks -/

/-- A blank inside a line. -/
def isBlank (c : Char) : Bool := c = ' ' || c = '\t'

/-- What is left after leading blanks. -/
def skipBlanks (cs : List Char) : List Char := cs.dropWhile isBlank

/-- What is left after a line break, if there is one in front. -/
def newline? : List Char → Option (List Char)
  | '\n' :: rest => some rest
  | '\r' :: '\n' :: rest => some rest
  | _ => none

/-- A character of a comment or a text: a tab, or any that is not a control character. -/
def isPlain (c : Char) : Bool := c = '\t' || (0x20 ≤ c.toNat && c.toNat ≠ 0x7F)

/-- What is left after a comment, if one is in front. -/
def skipComment : List Char → List Char
  | '#' :: rest => rest.dropWhile isPlain
  | cs => cs

/-- What is left after the end of a line: blanks and perhaps a comment, then a line break or the
end of the document. -/
def endOfLine? (cs : List Char) : Option (List Char) :=
  match skipComment (skipBlanks cs) with
  | [] => some []
  | rest => newline? rest

/-! ### Texts -/

/-- The value of a hexadecimal digit. -/
def hexDigit? (c : Char) : Option Nat :=
  if '0' ≤ c ∧ c ≤ '9' then some (c.toNat - '0'.toNat)
  else if 'a' ≤ c ∧ c ≤ 'f' then some (c.toNat - 'a'.toNat + 10)
  else if 'A' ≤ c ∧ c ≤ 'F' then some (c.toNat - 'A'.toNat + 10)
  else none

/-- The character with the code written by `count` hexadecimal digits. -/
def scanCode (count : Nat) (cs : List Char) : Option (Char × List Char) := do
  let digits ← (cs.take count).mapM hexDigit?
  let code := digits.foldl (fun n d => n * 16 + d) 0
  if digits.length = count ∧ code.isValidChar then some (Char.ofNat code, cs.drop count) else none

/-- The character of an escape, after the backslash. -/
def scanEscape : List Char → Option (Char × List Char)
  | 'b' :: rest => some ('\x08', rest)
  | 't' :: rest => some ('\t', rest)
  | 'n' :: rest => some ('\n', rest)
  | 'f' :: rest => some ('\x0c', rest)
  | 'r' :: rest => some ('\r', rest)
  | '"' :: rest => some ('"', rest)
  | '\\' :: rest => some ('\\', rest)
  | 'u' :: rest => scanCode 4 rest
  | 'U' :: rest => scanCode 8 rest
  | _ => none

/-- The rest of a text on one line with escapes. Every step takes a character, so as many steps as
there are characters are enough. -/
def scanBasic : Nat → List Char → Option (List Char × List Char)
  | 0, _ => none
  | _ + 1, '"' :: rest => some ([], rest)
  | fuel + 1, '\\' :: rest => do
    let (c, rest) ← scanEscape rest
    let (cs, rest) ← scanBasic fuel rest
    return (c :: cs, rest)
  | fuel + 1, c :: rest =>
    if isPlain c then (scanBasic fuel rest).map fun (cs, rest) => (c :: cs, rest) else none
  | _ + 1, [] => none

/-- The rest of a text on one line without escapes. -/
def scanLiteral : List Char → Option (List Char × List Char)
  | '\'' :: rest => some ([], rest)
  | c :: rest =>
    if isPlain c then (scanLiteral rest).map fun (cs, rest) => (c :: cs, rest) else none
  | [] => none

/-- What is left after blanks and line breaks. -/
def skipLines : Nat → List Char → List Char
  | 0, cs => cs
  | fuel + 1, cs =>
    let cs := skipBlanks cs
    match newline? cs with
    | some rest => skipLines fuel rest
    | none => cs

/-- What is left after an escaped line break: the break, and blanks and breaks around it. -/
def escapedBreak? (cs : List Char) : Option (List Char) :=
  (newline? (skipBlanks cs)).map fun rest => skipLines rest.length rest

/-- The quotes in front, and what is left after them. -/
def quoteRun (quote : Char) (cs : List Char) : Nat × List Char :=
  ((cs.takeWhile (· = quote)).length, cs.dropWhile (· = quote))

/-- The rest of a text on several lines, with escapes if `escapes`, in triple `quote`s. -/
def scanLines (quote : Char) (escapes : Bool) : Nat → List Char → Option (List Char × List Char)
  | 0, _ => none
  | _ + 1, [] => none
  | fuel + 1, c :: rest =>
    if c = quote then
      let (run, after) := quoteRun quote (c :: rest)
      if run ≤ 2 then
        (scanLines quote escapes fuel after).map fun (cs, left) =>
          (List.replicate run quote ++ cs, left)
      else if run ≤ 5 then some (List.replicate (run - 3) quote, after)
      else none
    else if escapes ∧ c = '\\' then
      match escapedBreak? rest with
      | some rest => scanLines quote escapes fuel rest
      | none => do
        let (c, rest) ← scanEscape rest
        let (cs, rest) ← scanLines quote escapes fuel rest
        return (c :: cs, rest)
    else
      match newline? (c :: rest) with
      | some rest => (scanLines quote escapes fuel rest).map fun (cs, rest) => ('\n' :: cs, rest)
      | none =>
        if isPlain c then
          (scanLines quote escapes fuel rest).map fun (cs, rest) => (c :: cs, rest)
        else none

/-- The rest of a text on several lines, after the opening quotes. -/
def scanLinesAfterBreak (quote : Char) (escapes : Bool) (cs : List Char) :
    Option (List Char × List Char) :=
  let body := (newline? cs).getD cs
  scanLines quote escapes (body.length + 1) body

/-- A text in quotes of any kind. -/
def scanText : List Char → Option (String × List Char)
  | '"' :: '"' :: '"' :: rest =>
    (scanLinesAfterBreak '"' true rest).map fun (cs, rest) => (String.ofList cs, rest)
  | '"' :: rest =>
    (scanBasic (rest.length + 1) rest).map fun (cs, rest) => (String.ofList cs, rest)
  | '\'' :: '\'' :: '\'' :: rest =>
    (scanLinesAfterBreak '\'' false rest).map fun (cs, rest) => (String.ofList cs, rest)
  | '\'' :: rest => (scanLiteral rest).map fun (cs, rest) => (String.ofList cs, rest)
  | _ => none

/-! ### Keys -/

/-- A character of a key without quotes. -/
def isKeyChar (c : Char) : Bool := c.isAlphanum || c = '_' || c = '-'

/-- One part of a key. -/
def scanKeyPart : List Char → Option (String × List Char)
  | '"' :: rest =>
    (scanBasic (rest.length + 1) rest).map fun (cs, rest) => (String.ofList cs, rest)
  | '\'' :: rest => (scanLiteral rest).map fun (cs, rest) => (String.ofList cs, rest)
  | cs =>
    match cs.takeWhile isKeyChar with
    | [] => none
    | part => some (String.ofList part, cs.dropWhile isKeyChar)

/-- The parts of a key, with points between them and blanks around them. -/
def scanKeyParts : Nat → List Char → Option (List String × List Char)
  | 0, _ => none
  | fuel + 1, cs => do
    let (part, rest) ← scanKeyPart (skipBlanks cs)
    match skipBlanks rest with
    | '.' :: rest => (scanKeyParts fuel rest).map fun (parts, rest) => (part :: parts, rest)
    | rest => some ([part], rest)

/-- How many values and key parts may be inside each other, plus one. -/
def depthLimit : Nat := 80

/-- A key: the parts before the last, and the last. -/
def scanKey (cs : List Char) : Option ((List String × String) × List Char) := do
  let (parts, rest) ← scanKeyParts (cs.length + 1) cs
  let last ← parts.getLast?
  if parts.length < depthLimit then some ((parts.dropLast, last), rest) else none

/-! ### Dates and times -/

/-- The natural written by exactly `count` decimal digits. -/
def scanCount (count : Nat) (cs : List Char) : Option (Nat × List Char) :=
  let digits := cs.take count
  if digits.length = count ∧ digits.all Char.isDigit then
    some (digits.foldl (fun n c => n * 10 + (c.toNat - '0'.toNat)) 0, cs.drop count)
  else none

/-- What is left after an expected character. -/
def expect? (c : Char) : List Char → Option (List Char)
  | c' :: rest => if c' = c then some rest else none
  | [] => none

/-- The number of days of a month. -/
def daysIn (year month : Nat) : Nat :=
  if month = 2 then if year % 4 = 0 ∧ (year % 100 ≠ 0 ∨ year % 400 = 0) then 29 else 28
  else if month = 4 ∨ month = 6 ∨ month = 9 ∨ month = 11 then 30
  else 31

/-- What is left after a day: year, month and day of the month. -/
def skipDay? (cs : List Char) : Option (List Char) := do
  let (year, cs) ← scanCount 4 cs
  let (month, cs) ← scanCount 2 (← expect? '-' cs)
  let (day, cs) ← scanCount 2 (← expect? '-' cs)
  if 1 ≤ month ∧ month ≤ 12 ∧ 1 ≤ day ∧ day ≤ daysIn year month then some cs else none

/-- What is left after a time of day: hour, minute and second, perhaps with a fraction. -/
def skipTime? (cs : List Char) : Option (List Char) := do
  let (hour, cs) ← scanCount 2 cs
  let (minute, cs) ← scanCount 2 (← expect? ':' cs)
  let (second, cs) ← scanCount 2 (← expect? ':' cs)
  if 23 < hour ∨ 59 < minute ∨ 60 < second then none
  else
    match cs with
    | '.' :: rest =>
      if (rest.takeWhile Char.isDigit).isEmpty then some cs
      else some (rest.dropWhile Char.isDigit)
    | cs => some cs

/-- What is left after a distance from universal time, if one is in front; `none` if a sign does
not introduce one. -/
def skipOffset? : List Char → Option (List Char)
  | 'Z' :: rest | 'z' :: rest => some rest
  | c :: rest =>
    if c = '+' ∨ c = '-' then do
      let (hour, rest) ← scanCount 2 rest
      let (minute, rest) ← scanCount 2 (← expect? ':' rest)
      if hour ≤ 23 ∧ minute ≤ 59 then some rest else none
    else some (c :: rest)
  | [] => some []

/-- What is left after a date: a day, a day with a time, or a time. -/
def skipDate? (cs : List Char) : Option (List Char) :=
  match skipDay? cs with
  | none => skipTime? cs
  | some rest =>
    match rest with
    | c :: time =>
      if c = 'T' ∨ c = 't' ∨ c = ' ' then
        match skipTime? time with
        | some rest => skipOffset? rest
        | none => some rest
      else some rest
    | [] => some rest

/-! ### Numbers -/

/-- A sign, if one is in front; whether it is a minus. -/
def scanSign : List Char → Bool × List Char
  | '+' :: rest => (false, rest)
  | '-' :: rest => (true, rest)
  | cs => (false, cs)

/-- Digits of a class, single underscores between them, as the naturals that `digit?` gives; at
least one. -/
def scanDigits (digit? : Char → Option Nat) : List Char → Option (List Nat × List Char)
  | [] => none
  | [c] => (digit? c).map fun d => ([d], [])
  | c :: c' :: rest =>
    match digit? c with
    | none => none
    | some d =>
      if c' = '_' then (scanDigits digit? rest).map fun (ds, rest) => (d :: ds, rest)
      else if (digit? c').isSome then
        (scanDigits digit? (c' :: rest)).map fun (ds, rest) => (d :: ds, rest)
      else some ([d], c' :: rest)

/-- The value of a digit in a base. -/
def digitIn? (base : Nat) (c : Char) : Option Nat := (hexDigit? c).filter (· < base)

/-- The natural written by digits of a base. -/
def natOf (base : Nat) (digits : List Nat) : Nat := digits.foldl (fun n d => n * base + d) 0

/-- Decimal digits in front of a point or alone: a zero stands alone. -/
def scanWhole (cs : List Char) : Option (List Nat × List Char) :=
  match cs with
  | '0' :: rest => some ([0], rest)
  | cs => scanDigits (digitIn? 10) cs

/-- A whole number of the signed 64-bit range: decimal with an optional sign, or in one of three
other bases. -/
def scanInteger (cs : List Char) : Option (Int × List Char) := do
  let inBase (base : Nat) (cs : List Char) : Option (Int × List Char) := do
    let (digits, rest) ← scanDigits (digitIn? base) cs
    return ((natOf base digits : Int), rest)
  let (i, rest) ← match cs with
    | '0' :: 'x' :: rest => inBase 16 rest
    | '0' :: 'o' :: rest => inBase 8 rest
    | '0' :: 'b' :: rest => inBase 2 rest
    | cs =>
      let (negative, cs) := scanSign cs
      (scanWhole cs).map fun (digits, rest) =>
        let n : Int := natOf 10 digits
        (if negative then -n else n, rest)
  if -0x8000000000000000 ≤ i ∧ i ≤ 0x7FFFFFFFFFFFFFFF then some (i, rest) else none

/-- Whether `digits · 10 ^ power` is too large for the binary64 format. -/
def overflows (digits : List Nat) (power : Int) : Bool :=
  let digits := digits.dropWhile (· = 0)
  let places : Int := digits.length + power
  if digits.isEmpty ∨ places < 309 then false
  else if 309 < places then true
  else
    let n := natOf 10 digits
    let bound := Nat.pow 2 1024 - Nat.pow 2 970
    if 0 ≤ power then bound ≤ n * Nat.pow 10 power.toNat
    else bound * Nat.pow 10 (-power).toNat ≤ n

/-- What is left after a number with a fraction, a power of ten or both, or after one of the two
special ones. A positive number must not be too large. -/
def skipReal? (cs : List Char) : Option (List Char) :=
  let (negative, unsigned) := scanSign cs
  match unsigned with
  | 'i' :: 'n' :: 'f' :: rest => some rest
  | 'n' :: 'a' :: 'n' :: rest => some rest
  | unsigned => do
    let (whole, rest) ← scanWhole unsigned
    let (fraction, rest) ← match rest with
      | '.' :: rest => scanDigits (digitIn? 10) rest
      | rest => some ([], rest)
    let (power, rest) ← match rest with
      | c :: rest =>
        if c = 'e' ∨ c = 'E' then do
          let (down, rest) := scanSign rest
          let (digits, rest) ← scanDigits (digitIn? 10) rest
          let n : Int := natOf 10 digits
          some (some (if down then -n else n), rest)
        else some (none, c :: rest)
      | [] => some (none, [])
    if fraction.isEmpty ∧ power.isNone then none
    else if !negative && overflows (whole ++ fraction) (power.getD 0 - fraction.length) then none
    else some rest

end ClusterSnapshot.Toml
