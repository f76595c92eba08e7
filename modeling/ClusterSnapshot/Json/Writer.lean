import ClusterSnapshot.Json.Basic
import ClusterSnapshot.Number.Shortest

/-!
# Writing JSON text

A value is written in one of two forms: compact, without any blanks, and indented, each item and
each member on a line of its own, two blanks per level. In a text only the quote, the backslash and
the characters below the blank are escaped. Every writer takes the characters that follow and puts
its own before them.
-/

namespace ClusterSnapshot

namespace Json

/-- A hexadecimal digit. -/
def hexDigit (n : Nat) : Char := Nat.digitChar n

/-- A character inside quotes. -/
def escape (c : Char) : List Char :=
  if c = '"' then ['\\', '"']
  else if c = '\\' then ['\\', '\\']
  else if c = '\x08' then ['\\', 'b']
  else if c = '\t' then ['\\', 't']
  else if c = '\n' then ['\\', 'n']
  else if c = '\x0c' then ['\\', 'f']
  else if c = '\r' then ['\\', 'r']
  else if c.toNat < 0x20 then
    ['\\', 'u', '0', '0', hexDigit (c.toNat / 16), hexDigit (c.toNat % 16)]
  else [c]

/-- A text in quotes. -/
def quote (s : String) (rest : List Char) : List Char :=
  '"' :: s.toList.foldr (fun c rest => escape c ++ rest) ('"' :: rest)

/-- A number. -/
def numberText : Number → List Char
  | .whole i => (toString i).toList
  | .real x => x.text .json

mutual

/-- The compact form. -/
def writeCompact : Json → List Char → List Char
  | .null, rest => 'n' :: 'u' :: 'l' :: 'l' :: rest
  | .bool true, rest => 't' :: 'r' :: 'u' :: 'e' :: rest
  | .bool false, rest => 'f' :: 'a' :: 'l' :: 's' :: 'e' :: rest
  | .number n, rest => numberText n ++ rest
  | .string s, rest => quote s rest
  | .array [], rest => '[' :: ']' :: rest
  | .array (v :: vs), rest => '[' :: writeCompact v (writeCompactItems vs (']' :: rest))
  | .object [], rest => '\x7b' :: '\x7d' :: rest
  | .object ((k, v) :: ms), rest =>
    '\x7b' :: quote k (':' :: writeCompact v (writeCompactMembers ms ('\x7d' :: rest)))

/-- Items after the first. -/
def writeCompactItems : List Json → List Char → List Char
  | [], rest => rest
  | v :: vs, rest => ',' :: writeCompact v (writeCompactItems vs rest)

/-- Members after the first. -/
def writeCompactMembers : List (String × Json) → List Char → List Char
  | [], rest => rest
  | (k, v) :: ms, rest => ',' :: quote k (':' :: writeCompact v (writeCompactMembers ms rest))

end

/-- A new line at a level. -/
def newLine (level : Nat) (rest : List Char) : List Char :=
  '\n' :: (List.replicate (2 * level) ' ' ++ rest)

mutual

/-- The indented form of a value at a level. -/
def writeIndented (level : Nat) : Json → List Char → List Char
  | .null, rest => 'n' :: 'u' :: 'l' :: 'l' :: rest
  | .bool true, rest => 't' :: 'r' :: 'u' :: 'e' :: rest
  | .bool false, rest => 'f' :: 'a' :: 'l' :: 's' :: 'e' :: rest
  | .number n, rest => numberText n ++ rest
  | .string s, rest => quote s rest
  | .array [], rest => '[' :: ']' :: rest
  | .array (v :: vs), rest =>
    '[' :: newLine (level + 1) (writeIndented (level + 1) v
      (writeIndentedItems (level + 1) vs (newLine level (']' :: rest))))
  | .object [], rest => '\x7b' :: '\x7d' :: rest
  | .object ((k, v) :: ms), rest =>
    '\x7b' :: newLine (level + 1) (quote k (':' :: ' ' :: writeIndented (level + 1) v
      (writeIndentedMembers (level + 1) ms (newLine level ('\x7d' :: rest)))))

/-- Items after the first. -/
def writeIndentedItems (level : Nat) : List Json → List Char → List Char
  | [], rest => rest
  | v :: vs, rest =>
    ',' :: newLine level (writeIndented level v (writeIndentedItems level vs rest))

/-- Members after the first. -/
def writeIndentedMembers (level : Nat) : List (String × Json) → List Char → List Char
  | [], rest => rest
  | (k, v) :: ms, rest =>
    ',' :: newLine level (quote k (':' :: ' ' :: writeIndented level v
      (writeIndentedMembers level ms rest)))

end

/-- The compact text of a value. -/
def compact (v : Json) : String := String.ofList (writeCompact v [])

/-- The indented text of a value. -/
def indented (v : Json) : String := String.ofList (writeIndented 0 v [])

end Json

end ClusterSnapshot
