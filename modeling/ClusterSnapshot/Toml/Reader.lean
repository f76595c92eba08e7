import ClusterSnapshot.Toml.Scalar

/-!
# Reading TOML documents

A document is a list of sections: a header, and the assignments that follow it. `Entries.ofText?`
reads a document and gives the entries of its outermost table.
-/

namespace ClusterSnapshot.Toml

/-- What is left after blanks, line breaks and comments. -/
def skipFiller : Nat → List Char → List Char
  | 0, cs => cs
  | fuel + 1, cs =>
    let cs := skipComment (skipBlanks cs)
    match newline? cs with
    | some rest => skipFiller fuel rest
    | none => cs

/-- What is left after blanks, line breaks and comments. -/
def skipAllFiller (cs : List Char) : List Char := skipFiller (cs.length + 1) cs

mutual

/-- A value, in which at most `room` brackets are open inside each other. -/
def scanValue (room : Nat) : Nat → List Char → Option (Value × List Char)
  | 0, _ => none
  | fuel + 1, cs =>
    match cs with
    | '"' :: _ | '\'' :: _ => (scanText cs).map fun (s, rest) => (.text s, rest)
    | '[' :: rest =>
      match room with
      | 0 => none
      | room + 1 =>
        match skipAllFiller rest with
        | ']' :: rest => some (.array [], rest)
        | rest => (scanItems room fuel rest).map fun (items, rest) => (.array items, rest)
    | '{' :: rest =>
      match room with
      | 0 => none
      | room + 1 =>
        match skipBlanks rest with
        | '}' :: rest => some (.table .braces [], rest)
        | rest => do
          let (assignments, rest) ← scanPairs room fuel rest
          let entries ← Entries.assignAll? assignments []
          return (.table .braces entries, rest)
    | 't' :: 'r' :: 'u' :: 'e' :: rest => some (.boolean true, rest)
    | 'f' :: 'a' :: 'l' :: 's' :: 'e' :: rest => some (.boolean false, rest)
    | cs =>
      match skipDate? cs with
      | some rest => some (.date, rest)
      | none =>
        match skipReal? cs with
        | some rest => some (.real, rest)
        | none => (scanInteger cs).map fun (i, rest) => (.integer i, rest)

/-- The items of an array up to its closing bracket, the first in front. -/
def scanItems (room : Nat) : Nat → List Char → Option (List Value × List Char)
  | 0, _ => none
  | fuel + 1, cs => do
    let (v, rest) ← scanValue room fuel cs
    match skipAllFiller rest with
    | ']' :: rest => some ([v], rest)
    | ',' :: rest =>
      match skipAllFiller rest with
      | ']' :: rest => some ([v], rest)
      | rest => (scanItems room fuel rest).map fun (vs, rest) => (v :: vs, rest)
    | _ => none

/-- The assignments of a table in braces up to its closing brace, the first in front. -/
def scanPairs (room : Nat) : Nat → List Char → Option (List Entries.Assignment × List Char)
  | 0, _ => none
  | fuel + 1, cs => do
    let ((path, key), rest) ← scanKey cs
    let rest ← expect? '=' rest
    let (v, rest) ← scanValue room fuel (skipBlanks rest)
    match skipBlanks rest with
    | '}' :: rest => some ([(path, key, v)], rest)
    | ',' :: rest =>
      (scanPairs room fuel rest).map fun (ps, rest) => ((path, key, v) :: ps, rest)
    | _ => none

end

/-! ### Sections -/

/-- What opens a section. -/
inductive Header where
  | table (path : List String) (key : String)
  | element (path : List String) (key : String)
  deriving Repr

/-- A header and the assignments up to the next one. -/
structure Section where
  header : Header
  assignments : List Entries.Assignment
  deriving Repr

/-- One line of a document. -/
inductive Line where
  | blank
  | header (header : Header)
  | assignment (assignment : Entries.Assignment)

/-- The line in front, with the break that ends it. -/
def scanLine (cs : List Char) : Option (Line × List Char) :=
  match skipBlanks cs with
  | '[' :: '[' :: rest => do
    let ((path, key), rest) ← scanKey rest
    let rest ← expect? ']' (← expect? ']' rest)
    return (.header (.element path key), ← endOfLine? rest)
  | '[' :: rest => do
    let ((path, key), rest) ← scanKey rest
    let rest ← expect? ']' rest
    return (.header (.table path key), ← endOfLine? rest)
  | cs =>
    match endOfLine? cs with
    | some rest => some (.blank, rest)
    | none => do
      let ((path, key), rest) ← scanKey cs
      let rest ← expect? '=' rest
      let (v, rest) ← scanValue (depthLimit - 1) (rest.length + 1) (skipBlanks rest)
      return (.assignment (path, key, v), ← endOfLine? rest)

/-- The lines of a document. -/
def scanDocument : Nat → List Char → Option (List Line)
  | 0, _ => none
  | _ + 1, [] => some []
  | fuel + 1, cs => do
    let (line, rest) ← scanLine cs
    let lines ← scanDocument fuel rest
    return line :: lines

/-- The assignments before the first header, and the sections after it. -/
def sections : List Line → List Entries.Assignment × List Section
  | [] => ([], [])
  | .blank :: rest => sections rest
  | .assignment a :: rest =>
    let (front, later) := sections rest
    (a :: front, later)
  | .header h :: rest =>
    let (own, later) := sections rest
    ([], ⟨h, own⟩ :: later)

/-- The entries after a section. -/
def Entries.addSection? (entries : Entries) (s : Section) : Option Entries :=
  match s.header with
  | .table path key => entries.openTable? path key s.assignments
  | .element path key => entries.addTable? path key s.assignments

/-- The entries of the outermost table of a document. A byte order mark in front does not count. -/
def Entries.ofText? (text : String) : Option Entries := do
  let cs := match text.toList with
    | '\ufeff' :: rest => rest
    | cs => cs
  let (front, later) := sections (← scanDocument (cs.length + 1) cs)
  let entries ← assignAll? front []
  later.foldlM addSection? entries

end ClusterSnapshot.Toml
