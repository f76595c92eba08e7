import ClusterSnapshot.Toml.Value

/-!
# Writing TOML texts

A text is written in the plainest quotes that can hold it: plain quotes as long as nothing has to
be escaped, then quotes without escapes, then the forms on several lines. If none of these holds
the text as it is, it is written with escapes, on several lines if it has line breaks.
-/

namespace ClusterSnapshot.Toml

/-- What of a text decides how it is quoted. -/
structure TextTraits where
  /-- A control character other than a tab and a line break. -/
  hasControl : Bool
  hasBackslash : Bool
  hasBreak : Bool
  /-- The longest run of single quotes. -/
  singleRun : Nat
  /-- The longest run of double quotes. -/
  doubleRun : Nat

/-- The length of the longest run of a character, after `current` in front and `best` seen. -/
def longestRun (c : Char) (current best : Nat) : List Char → Nat
  | [] => best
  | c' :: rest =>
    if c' = c then longestRun c (current + 1) (max best (current + 1)) rest
    else longestRun c 0 best rest

/-- A control character that no quotes hold as it is. -/
def needsCode (c : Char) : Bool :=
  c ≠ '\t' && c ≠ '\n' && (c.toNat ≤ 0x1F || c.toNat = 0x7F)

/-- The traits of a text. -/
def TextTraits.of (cs : List Char) : TextTraits where
  hasControl := cs.any needsCode
  hasBackslash := cs.contains '\\'
  hasBreak := cs.contains '\n'
  singleRun := longestRun '\'' 0 0 cs
  doubleRun := longestRun '"' 0 0 cs

/-- The four kinds of quotes. -/
inductive QuoteStyle where
  /-- Double quotes, with escapes. -/
  | basic
  /-- Single quotes, without escapes. -/
  | literal
  /-- Triple double quotes, with escapes. -/
  | basicLines
  /-- Triple single quotes, without escapes. -/
  | literalLines
  deriving DecidableEq, Repr

/-- The quotes that a text is written in. -/
def TextTraits.style (t : TextTraits) : QuoteStyle :=
  if !t.hasControl && !t.hasBackslash && t.doubleRun = 0 && !t.hasBreak then .basic
  else if !t.hasControl && t.singleRun = 0 && !t.hasBreak then .literal
  else if !t.hasControl && !t.hasBackslash && t.doubleRun ≤ 2 then .basicLines
  else if !t.hasControl && t.singleRun ≤ 2 then .literalLines
  else if t.hasBreak then .basicLines
  else .basic

/-- A hexadecimal digit in upper case. -/
def hexUpper (n : Nat) : Char := (Nat.digitChar n).toUpper

/-- A character with escapes; `onLines` if line breaks may stand as they are. -/
def escape (onLines : Bool) (c : Char) : List Char :=
  if c = '\x08' then ['\\', 'b']
  else if c = '\t' then ['\\', 't']
  else if c = '\x0c' then ['\\', 'f']
  else if c = '\r' then ['\\', 'r']
  else if c = '\\' then ['\\', '\\']
  else if c = '\n' then if onLines then ['\n'] else ['\\', 'n']
  else if needsCode c then
    ['\\', 'u', '0', '0', hexUpper (c.toNat / 16), hexUpper (c.toNat % 16)]
  else [c]

/-- The inside of double quotes, of which `allowed` may stand as they are in a row. The run is
counted anew after everything that is escaped. -/
def escapeAll (onLines : Bool) (allowed : Nat) (run : Nat) : List Char → List Char
  | [] => []
  | c :: rest =>
    if c = '"' then
      if run < allowed then '"' :: escapeAll onLines allowed (run + 1) rest
      else '\\' :: '"' :: escapeAll onLines allowed 0 rest
    else escape onLines c ++ escapeAll onLines allowed 0 rest

/-- The inside of quotes on several lines, with a break in front if the text has any. -/
def breakFirst (cs inside : List Char) : List Char :=
  if cs.contains '\n' then '\n' :: inside else inside

/-- A text in quotes of a kind. -/
def quoteAs (cs : List Char) : QuoteStyle → List Char
  | .basic => '"' :: (escapeAll false 0 0 cs ++ ['"'])
  | .literal => '\'' :: (cs ++ ['\''])
  | .basicLines =>
    ['"', '"', '"'] ++ breakFirst cs (escapeAll true 2 0 cs) ++ ['"', '"', '"']
  | .literalLines => ['\'', '\'', '\''] ++ breakFirst cs cs ++ ['\'', '\'', '\'']

/-- A text in the quotes that suit it. -/
def quote (s : String) : String :=
  String.ofList (quoteAs s.toList (TextTraits.of s.toList).style)

end ClusterSnapshot.Toml
