import ClusterSnapshot.Proofs.Number.Text

/-!
# Scanning what was written

The scanner takes the text of a value apart again. What it finds is the document of the value,
except that a number is found as what its digits denote, which need not be the number that was
written. How the text is laid out does not matter: the compact and the indented form differ in
blanks only, and the scanner passes over them.

## Main results

* `JsonText.scanString_quote`: a text in quotes is scanned as that text, whatever characters it
  holds.
* `JsonText.scanValue_write`: **a value is scanned as its document**, with enough steps.
* `Json.ofText?_compact`, `Json.ofText?_indented`: both texts of a value write the scanned document
  of the value.
-/

namespace ClusterSnapshot

namespace Json

mutual

/-- The document that the text of a value writes. -/
def scanned : Json → Document
  | .null => .null
  | .bool b => .bool b
  | .number n => .number n.scanned?
  | .string s => .string (some s)
  | .array items => .array (scannedItems items)
  | .object members => .object (scannedMembers members)

/-- The documents that the texts of a list of values write. -/
def scannedItems : List Json → List Document
  | [] => []
  | v :: rest => scanned v :: scannedItems rest

/-- The documents that the texts of a list of members write. -/
def scannedMembers : List (String × Json) → List (Option String × Document)
  | [] => []
  | (k, v) :: rest => (some k, scanned v) :: scannedMembers rest

end

/-! ### Layouts -/

/-- Where the blanks of a text are: in front of every item, member and closing bracket, by level,
and after a colon. -/
structure Layout where
  line : Nat → List Char
  gap : List Char
  isBlank_line : ∀ level, ∀ c ∈ line level, JsonText.isBlank c = true
  isBlank_gap : ∀ c ∈ gap, JsonText.isBlank c = true

namespace Layout

/-- No blanks at all. -/
def compact : Layout := ⟨fun _ => [], [], by simp, by simp⟩

/-- Every item and every member on a line of its own. -/
def indented : Layout where
  line level := '\n' :: List.replicate (2 * level) ' '
  gap := [' ']
  isBlank_line level := List.forall_mem_cons.mpr ⟨rfl, fun c hc => by
    rw [List.eq_of_mem_replicate hc]
    rfl⟩
  isBlank_gap := List.forall_mem_singleton.mpr rfl

end Layout

mutual

/-- A value in some layout. -/
def write (layout : Layout) (level : Nat) : Json → List Char → List Char
  | .null, rest => 'n' :: 'u' :: 'l' :: 'l' :: rest
  | .bool true, rest => 't' :: 'r' :: 'u' :: 'e' :: rest
  | .bool false, rest => 'f' :: 'a' :: 'l' :: 's' :: 'e' :: rest
  | .number n, rest => numberText n ++ rest
  | .string s, rest => quote s rest
  | .array [], rest => '[' :: ']' :: rest
  | .array (v :: vs), rest =>
    '[' :: (layout.line (level + 1) ++ write layout (level + 1) v
      (writeItems layout (level + 1) vs (layout.line level ++ ']' :: rest)))
  | .object [], rest => '\x7b' :: '\x7d' :: rest
  | .object ((k, v) :: ms), rest =>
    '\x7b' :: (layout.line (level + 1) ++ quote k (':' :: (layout.gap ++ write layout (level + 1) v
      (writeMembers layout (level + 1) ms (layout.line level ++ '\x7d' :: rest)))))

/-- Items after the first. -/
def writeItems (layout : Layout) (level : Nat) : List Json → List Char → List Char
  | [], rest => rest
  | v :: vs, rest =>
    ',' :: (layout.line level ++ write layout level v (writeItems layout level vs rest))

/-- Members after the first. -/
def writeMembers (layout : Layout) (level : Nat) : List (String × Json) → List Char → List Char
  | [], rest => rest
  | (k, v) :: ms, rest =>
    ',' :: (layout.line level ++ quote k (':' :: (layout.gap ++ write layout level v
      (writeMembers layout level ms rest))))

end

mutual

/-- The compact form is the one without blanks. -/
theorem writeCompact_eq (v : Json) (level : Nat) (rest : List Char) :
    writeCompact v rest = write .compact level v rest := by
  match v with
  | .null | .bool true | .bool false | .number n | .string s | .array [] | .object [] => rfl
  | .array (v :: vs) =>
      rw [writeCompact, writeCompactItems_eq vs (level + 1), writeCompact_eq v (level + 1)]
      rfl
  | .object ((k, v) :: ms) =>
      rw [writeCompact, writeCompactMembers_eq ms (level + 1), writeCompact_eq v (level + 1)]
      rfl

/-- Compact items are items without blanks, at any level. -/
theorem writeCompactItems_eq (vs : List Json) (level : Nat) (rest : List Char) :
    writeCompactItems vs rest = writeItems .compact level vs rest := by
  match vs with
  | [] => rfl
  | v :: vs =>
      rw [writeCompactItems, writeCompactItems_eq vs level, writeCompact_eq v level]
      rfl

/-- Compact members are members without blanks, at any level. -/
theorem writeCompactMembers_eq (ms : List (String × Json)) (level : Nat) (rest : List Char) :
    writeCompactMembers ms rest = writeMembers .compact level ms rest := by
  match ms with
  | [] => rfl
  | (k, v) :: ms =>
      rw [writeCompactMembers, writeCompactMembers_eq ms level, writeCompact_eq v level]
      rfl

end

mutual

/-- The indented form is the one with lines. -/
theorem writeIndented_eq (level : Nat) (v : Json) (rest : List Char) :
    writeIndented level v rest = write .indented level v rest := by
  match v with
  | .null | .bool true | .bool false | .number n | .string s | .array [] | .object [] => rfl
  | .array (v :: vs) =>
      rw [writeIndented, writeIndentedItems_eq (level + 1) vs, writeIndented_eq (level + 1) v]
      rfl
  | .object ((k, v) :: ms) =>
      rw [writeIndented, writeIndentedMembers_eq (level + 1) ms, writeIndented_eq (level + 1) v]
      rfl

/-- Indented items are items each on a line of its own. -/
theorem writeIndentedItems_eq (level : Nat) (vs : List Json) (rest : List Char) :
    writeIndentedItems level vs rest = writeItems .indented level vs rest := by
  match vs with
  | [] => rfl
  | v :: vs =>
      rw [writeIndentedItems, writeIndentedItems_eq level vs, writeIndented_eq level v]
      rfl

/-- Indented members are members each on a line of its own. -/
theorem writeIndentedMembers_eq (level : Nat) (ms : List (String × Json)) (rest : List Char) :
    writeIndentedMembers level ms rest = writeMembers .indented level ms rest := by
  match ms with
  | [] => rfl
  | (k, v) :: ms =>
      rw [writeIndentedMembers, writeIndentedMembers_eq level ms, writeIndented_eq level v]
      rfl

end

/-! ### Steps of the scanner -/

mutual

/-- The steps that scanning a value takes. -/
def steps : Json → Nat
  | .array items => 1 + itemSteps items
  | .object members => 1 + memberSteps members
  | _ => 1

/-- The steps that scanning a list of items takes. -/
def itemSteps : List Json → Nat
  | [] => 0
  | v :: rest => 1 + steps v + itemSteps rest

/-- The steps that scanning a list of members takes. -/
def memberSteps : List (String × Json) → Nat
  | [] => 0
  | (_, v) :: rest => 1 + steps v + memberSteps rest

end

/-- A quoted text has at least its quotes. -/
theorem length_quote (s : String) (rest : List Char) :
    rest.length + 2 ≤ (quote s rest).length := by
  have general : ∀ (cs rest : List Char),
      rest.length ≤ (cs.foldr (fun c rest => escape c ++ rest) rest).length := by
    intro cs rest
    induction cs with
    | nil => simp
    | cons c cs ih =>
        rw [List.foldr_cons, List.length_append]
        omega
  have h := general s.toList ('"' :: rest)
  simp only [quote, List.length_cons] at h ⊢
  omega

/-- The text of a number is not empty. -/
theorem length_numberText (n : Number) : 1 ≤ (numberText n).length := by
  have h := (NumberText.plain_ofNumber n).nonempty
  rw [NumberText.numberText_eq, NumberText.chars]
  have := List.length_pos_iff.mpr h
  simp only [List.length_append]
  omega

mutual

/-- Scanning a value takes no more steps than its text has characters. -/
theorem steps_le_length (layout : Layout) (level : Nat) (v : Json) (rest : List Char) :
    steps v + rest.length ≤ (write layout level v rest).length := by
  match v with
  | .null => simp [steps, write]; omega
  | .bool true => simp [steps, write]; omega
  | .bool false => simp [steps, write]; omega
  | .number n =>
      have := length_numberText n
      simp only [steps, write, List.length_append]
      omega
  | .string s =>
      have := length_quote s rest
      simp only [steps, write]
      omega
  | .array [] => simp [steps, itemSteps, write]; omega
  | .array (v :: vs) =>
      have h₁ := steps_le_length layout (level + 1) v
        (writeItems layout (level + 1) vs (layout.line level ++ ']' :: rest))
      have h₂ := itemSteps_le_length layout (level + 1) vs (layout.line level ++ ']' :: rest)
      simp only [steps, itemSteps, write, List.length_cons, List.length_append] at h₁ h₂ ⊢
      omega
  | .object [] => simp [steps, memberSteps, write]; omega
  | .object ((k, v) :: ms) =>
      have h₁ := steps_le_length layout (level + 1) v
        (writeMembers layout (level + 1) ms (layout.line level ++ '\x7d' :: rest))
      have h₂ := memberSteps_le_length layout (level + 1) ms (layout.line level ++ '\x7d' :: rest)
      have h₃ := length_quote k (':' :: (layout.gap ++ write layout (level + 1) v
        (writeMembers layout (level + 1) ms (layout.line level ++ '\x7d' :: rest))))
      simp only [steps, memberSteps, write, List.length_cons, List.length_append] at h₁ h₂ h₃ ⊢
      omega

/-- Scanning items takes no more steps than they have characters. -/
theorem itemSteps_le_length (layout : Layout) (level : Nat) (vs : List Json) (rest : List Char) :
    itemSteps vs + rest.length ≤ (writeItems layout level vs rest).length := by
  match vs with
  | [] => simp [itemSteps, writeItems]
  | v :: vs =>
      have h₁ := steps_le_length layout level v (writeItems layout level vs rest)
      have h₂ := itemSteps_le_length layout level vs rest
      simp only [itemSteps, writeItems, List.length_cons, List.length_append]
      omega

/-- Scanning members takes no more steps than they have characters. -/
theorem memberSteps_le_length (layout : Layout) (level : Nat) (ms : List (String × Json))
    (rest : List Char) :
    memberSteps ms + rest.length ≤ (writeMembers layout level ms rest).length := by
  match ms with
  | [] => simp [memberSteps, writeMembers]
  | (k, v) :: ms =>
      have h₁ := steps_le_length layout level v (writeMembers layout level ms rest)
      have h₂ := memberSteps_le_length layout level ms rest
      have h₃ := length_quote k (':' :: (layout.gap ++ write layout level v
        (writeMembers layout level ms rest)))
      simp only [memberSteps, writeMembers, List.length_cons, List.length_append] at h₃ ⊢
      omega

end

end Json

namespace JsonText

open Json

/-! ### Texts -/

/-- The four digits of an escaped control character are read as its code. -/
theorem hexCode?_control : ∀ n < 0x20,
    hexCode? '0' '0' (hexDigit (n / 16)) (hexDigit (n % 16)) = some n := by
  decide

/-- The characters with an escape of one letter. -/
def shortlyEscaped : List Char := ['"', '\\', '\x08', '\t', '\n', '\x0c', '\r']

/-- The escape of a character is one unit again. -/
theorem scanUnits_escape (c : Char) (seen : List TextUnit) (rest : List Char) :
    scanUnits seen (escape c ++ rest) = scanUnits (.char c :: seen) rest := by
  by_cases hshort : c ∈ shortlyEscaped
  · simp only [shortlyEscaped, List.mem_cons, List.not_mem_nil, or_false] at hshort
    rcases hshort with rfl | rfl | rfl | rfl | rfl | rfl | rfl <;> rfl
  simp only [shortlyEscaped, List.mem_cons, List.not_mem_nil, or_false, not_or] at hshort
  obtain ⟨hquote, hslash, h₁, h₂, h₃, h₄, h₅⟩ := hshort
  by_cases hlow : c.toNat < 0x20
  · have hcode : TextUnit.ofCode c.toNat = .char c := by
      have hsur : ¬ (0xD800 ≤ c.toNat ∧ c.toNat ≤ 0xDFFF) := by omega
      simp [TextUnit.ofCode, hsur]
    simp only [escape, hquote, hslash, h₁, h₂, h₃, h₄, h₅, hlow, ↓reduceIte, List.cons_append,
      List.nil_append, scanUnits]
    rw [hexCode?_control c.toNat hlow]
    simp only [hcode]
  · simp only [escape, hquote, hslash, h₁, h₂, h₃, h₄, h₅, hlow, ↓reduceIte, List.cons_append,
      List.nil_append]
    rw [scanUnits.eq_def]
    simp [hslash, hlow]

/-- Plain characters are joined to themselves. -/
theorem joinUnits_chars (cs : List Char) : joinUnits (cs.map .char) = some cs := by
  induction cs with
  | nil => rfl
  | cons c cs ih => simp [joinUnits, ih]

/-- **A text in quotes is scanned as that text.** -/
theorem scanString_quote (s : String) (rest : List Char) :
    ∃ cs, quote s rest = '"' :: cs ∧ scanString cs = some (some s, rest) := by
  have general : ∀ (cs : List Char) (seen : List TextUnit),
      scanUnits seen (cs.foldr (fun c rest => escape c ++ rest) ('"' :: rest)) =
        some (seen.reverse ++ cs.map .char, rest) := by
    intro cs
    induction cs with
    | nil => intro seen; simp [scanUnits]
    | cons c cs ih =>
        intro seen
        rw [List.foldr_cons, scanUnits_escape, ih]
        simp
  refine ⟨_, rfl, ?_⟩
  simp only [scanString, general, Option.bind_eq_bind, Option.bind_some, List.reverse_nil,
    List.nil_append, joinUnits_chars, Option.map_some, String.ofList_toList]
  rfl

/-! ### Values -/

/-- No blank stands at the front. -/
theorem skipBlanks_cons {c : Char} {cs : List Char} (h : isBlank c = false) :
    skipBlanks (c :: cs) = c :: cs := by
  simp [skipBlanks, h]

/-- Blanks at the front do not matter. -/
theorem skipBlanks_append {blanks : List Char} (h : ∀ c ∈ blanks, isBlank c = true)
    (cs : List Char) : skipBlanks (blanks ++ cs) = skipBlanks cs :=
  List.dropWhile_append_of_pos h

/-- Blanks in front of a value are skipped. -/
theorem scanValue_append {blanks : List Char} (h : ∀ c ∈ blanks, isBlank c = true) (fuel : Nat)
    (cs : List Char) : scanValue fuel (blanks ++ cs) = scanValue fuel cs := by
  cases fuel with
  | zero => rfl
  | succ fuel => rw [scanValue, skipBlanks_append h, scanValue]

/-- Blanks in front of an item are skipped. -/
theorem scanItems_append {blanks : List Char} (h : ∀ c ∈ blanks, isBlank c = true) (fuel : Nat)
    (seen : List Document) (cs : List Char) :
    scanItems fuel seen (blanks ++ cs) = scanItems fuel seen cs := by
  cases fuel with
  | zero => rfl
  | succ fuel => rw [scanItems, scanValue_append h, scanItems]

/-- Blanks in front of a member are skipped. -/
theorem scanMembers_append {blanks : List Char} (h : ∀ c ∈ blanks, isBlank c = true) (fuel : Nat)
    (seen : List (Option String × Document)) (cs : List Char) :
    scanMembers fuel seen (blanks ++ cs) = scanMembers fuel seen cs := by
  cases fuel with
  | zero => rfl
  | succ fuel => rw [scanMembers, skipBlanks_append h, scanMembers]

/-- The characters that stand after a value inside a written text. -/
def Follows (rest : List Char) : Prop :=
  rest = [] ∨ ∃ c cs, rest = c :: cs ∧ c ∈ [' ', '\n', '\t', '\r', ',', ']', '\x7d']

/-- What follows a value ends a number. -/
theorem Follows.ends {rest : List Char} (h : Follows rest) : NumberText.Ends rest := by
  rintro c hc
  rcases h with rfl | ⟨c', cs, rfl, hc'⟩
  · simp at hc
  · obtain rfl : c' = c := by simpa using hc
    simp only [List.mem_cons, List.not_mem_nil, or_false] at hc'
    rcases hc' with rfl | rfl | rfl | rfl | rfl | rfl | rfl <;> decide

/-- A closing bracket may stand after a value, with or without blanks in front of it. -/
theorem follows_close {blanks : List Char} (h : ∀ c ∈ blanks, isBlank c = true) {c : Char}
    (hc : c ∈ [']', '\x7d']) (rest : List Char) : Follows (blanks ++ c :: rest) := by
  cases blanks with
  | nil => exact .inr ⟨c, rest, rfl, List.mem_append_right [' ', '\n', '\t', '\r', ','] hc⟩
  | cons b bs =>
      have hb : b ∈ [' ', '\n', '\t', '\r'] := by
        simpa [isBlank, or_assoc] using h b (List.mem_cons_self ..)
      exact .inr ⟨b, bs ++ c :: rest, rfl, List.mem_append_left _ hb⟩

/-- Further items and the closing bracket follow an item. -/
theorem follows_items (layout : Layout) (level level' : Nat) (vs : List Json) (rest : List Char) :
    Follows (writeItems layout level vs (layout.line level' ++ ']' :: rest)) := by
  cases vs with
  | nil => exact follows_close (layout.isBlank_line level') (by decide) rest
  | cons v vs => exact .inr ⟨',', _, rfl, by decide⟩

/-- Further members and the closing bracket follow a member. -/
theorem follows_members (layout : Layout) (level level' : Nat) (ms : List (String × Json))
    (rest : List Char) :
    Follows (writeMembers layout level ms (layout.line level' ++ '\x7d' :: rest)) := by
  cases ms with
  | nil => exact follows_close (layout.isBlank_line level') (by decide) rest
  | cons m ms => exact .inr ⟨',', _, rfl, by decide⟩

/-- How the text of a number begins: with a minus or a digit. -/
theorem numberText_start (n : Number) :
    ∃ c cs, numberText n = c :: cs ∧ (c = '-' ∨ c.isDigit = true) := by
  have hplain := NumberText.plain_ofNumber n
  obtain ⟨d, ds, hd⟩ := List.exists_cons_of_ne_nil hplain.nonempty
  rw [NumberText.numberText_eq, NumberText.chars, hd]
  cases (NumberText.ofNumber n).negative with
  | true => exact ⟨'-', _, rfl, .inl rfl⟩
  | false => exact ⟨d, _, rfl, .inr (hplain.whole d (by simp [hd]))⟩

/-- A value that begins like a number is scanned as one. -/
theorem scanValue_number {c : Char} (cs : List Char) (fuel : Nat)
    (hc : c = '-' ∨ c.isDigit = true) :
    scanValue (fuel + 1) (c :: cs) =
      (scanNumber (c :: cs)).map fun (l, rest) => (.number l.number?, rest) := by
  have hne : ∀ x ∈ [' ', '\n', '\t', '\r', 'n', 't', 'f', '"', '[', '\x7b'], c ≠ x := by
    rintro x hx rfl
    have hno : ∀ x ∈ [' ', '\n', '\t', '\r', 'n', 't', 'f', '"', '[', '\x7b'],
        ¬ (x = '-' ∨ x.isDigit = true) := by simp
    exact hno c hx hc
  simp only [List.mem_cons, List.not_mem_nil, or_false, forall_eq_or_imp, forall_eq] at hne
  obtain ⟨hb₁, hb₂, hb₃, hb₄, h₁, h₂, h₃, h₄, h₅, h₆⟩ := hne
  have hblank : isBlank c = false := by simp [isBlank, hb₁, hb₂, hb₃, hb₄]
  rw [scanValue, skipBlanks_cons hblank]
  split <;> simp_all

/-- How a value begins: neither with a blank nor with a closing bracket. -/
theorem write_start (layout : Layout) (level : Nat) (v : Json) (rest : List Char) :
    ∃ c cs, write layout level v rest = c :: cs ∧ isBlank c = false ∧ c ≠ ']' := by
  match v with
  | .null => exact ⟨_, _, rfl, by decide, by decide⟩
  | .bool true => exact ⟨_, _, rfl, by decide, by decide⟩
  | .bool false => exact ⟨_, _, rfl, by decide, by decide⟩
  | .number n =>
      obtain ⟨c, cs, hcs, hc⟩ := numberText_start n
      have hno : ∀ x ∈ [' ', '\n', '\t', '\r', ']'], ¬ (x = '-' ∨ x.isDigit = true) := by simp
      have hne : ∀ x ∈ [' ', '\n', '\t', '\r', ']'], c ≠ x := by
        rintro x hx rfl
        exact hno c hx hc
      refine ⟨c, cs ++ rest, by rw [write, hcs, List.cons_append], ?_, hne ']' (by decide)⟩
      simp [isBlank, hne]
  | .string s => exact ⟨_, _, rfl, by decide, by decide⟩
  | .array [] => exact ⟨_, _, rfl, by decide, by decide⟩
  | .array (v :: vs) => exact ⟨_, _, rfl, by decide, by decide⟩
  | .object [] => exact ⟨_, _, rfl, by decide, by decide⟩
  | .object (m :: ms) => exact ⟨_, _, rfl, by decide, by decide⟩

mutual

/-- **A value is scanned as the document that its text writes**, with enough steps. -/
theorem scanValue_write (layout : Layout) (level : Nat) (v : Json) (fuel : Nat) (rest : List Char)
    (hfuel : v.steps ≤ fuel) (hrest : Follows rest) :
    scanValue fuel (write layout level v rest) = some (v.scanned, rest) := by
  obtain ⟨fuel, rfl⟩ : ∃ n, fuel = n + 1 := by
    refine ⟨fuel - 1, ?_⟩
    cases v <;> simp only [Json.steps] at hfuel <;> omega
  match v with
  | .null => rfl
  | .bool true => rfl
  | .bool false => rfl
  | .number n =>
      obtain ⟨c, cs, hcs, hc⟩ := numberText_start n
      have hscan := NumberText.scanNumber_chars (NumberText.plain_ofNumber n) hrest.ends
      rw [← NumberText.numberText_eq] at hscan
      rw [write]
      rw [hcs, List.cons_append] at hscan ⊢
      rw [scanValue_number _ _ hc, hscan]
      rfl
  | .string s =>
      obtain ⟨cs, hcs, hscan⟩ := scanString_quote s rest
      rw [write, hcs, scanValue, skipBlanks_cons (by decide)]
      simp only [hscan]
      rfl
  | .array [] => rfl
  | .array (v :: vs) =>
      have hitems := scanItems_write layout (level + 1) level v vs [] fuel rest
        (by simp only [Json.steps] at hfuel; omega)
      obtain ⟨c, cs, hcs, hblank, hclose⟩ := write_start layout (level + 1) v
        (writeItems layout (level + 1) vs (layout.line level ++ ']' :: rest))
      rw [hcs] at hitems
      rw [write, hcs, scanValue, skipBlanks_cons (by decide)]
      simp only [skipBlanks_append (layout.isBlank_line (level + 1)), skipBlanks_cons hblank]
      split
      · rename_i h
        exact absurd (List.cons.inj h).1 hclose
      · rw [hitems]
        rfl
  | .object [] => rfl
  | .object ((k, v) :: ms) =>
      have hmembers := scanMembers_write layout (level + 1) level k v ms [] fuel rest
        (by simp only [Json.steps] at hfuel; omega)
      obtain ⟨cs, hcs, -⟩ := scanString_quote k (':' :: (layout.gap ++ write layout (level + 1) v
        (writeMembers layout (level + 1) ms (layout.line level ++ '\x7d' :: rest))))
      rw [hcs] at hmembers
      rw [write, hcs, scanValue, skipBlanks_cons (by decide)]
      simp only [skipBlanks_append (layout.isBlank_line (level + 1)),
        skipBlanks_cons (c := '"') (by decide)]
      split
      · rename_i h
        exact absurd (List.cons.inj h).1 (by decide)
      · rw [hmembers]
        rfl
termination_by fuel

/-- Items are scanned up to the closing bracket. -/
theorem scanItems_write (layout : Layout) (level level' : Nat) (v : Json) (vs : List Json)
    (seen : List Document) (fuel : Nat) (rest : List Char) (hfuel : itemSteps (v :: vs) ≤ fuel) :
    scanItems fuel seen
        (write layout level v (writeItems layout level vs (layout.line level' ++ ']' :: rest))) =
      some (seen.reverse ++ scannedItems (v :: vs), rest) := by
  obtain ⟨fuel, rfl⟩ : ∃ n, fuel = n + 1 := ⟨fuel - 1, by simp only [itemSteps] at hfuel; omega⟩
  have hvalue := scanValue_write layout level v fuel
    (writeItems layout level vs (layout.line level' ++ ']' :: rest))
    (by simp only [itemSteps] at hfuel; omega) (follows_items layout level level' vs rest)
  rw [scanItems, hvalue]
  match vs with
  | [] =>
      simp only [writeItems, skipBlanks_append (layout.isBlank_line level'),
        skipBlanks_cons (c := ']') (by decide)]
      simp [scannedItems]
  | w :: ws =>
      have hitems := scanItems_write layout level level' w ws (v.scanned :: seen) fuel rest
        (by simp only [itemSteps] at hfuel ⊢; omega)
      simp only [writeItems, skipBlanks_cons (c := ',') (by decide),
        scanItems_append (layout.isBlank_line level), hitems]
      simp [scannedItems]
termination_by fuel

/-- Members are scanned up to the closing brace. -/
theorem scanMembers_write (layout : Layout) (level level' : Nat) (k : String) (v : Json)
    (ms : List (String × Json)) (seen : List (Option String × Document)) (fuel : Nat)
    (rest : List Char) (hfuel : memberSteps ((k, v) :: ms) ≤ fuel) :
    scanMembers fuel seen (quote k (':' :: (layout.gap ++ write layout level v
        (writeMembers layout level ms (layout.line level' ++ '\x7d' :: rest))))) =
      some (seen.reverse ++ scannedMembers ((k, v) :: ms), rest) := by
  obtain ⟨fuel, rfl⟩ : ∃ n, fuel = n + 1 := ⟨fuel - 1, by simp only [memberSteps] at hfuel; omega⟩
  obtain ⟨cs, hcs, hscan⟩ := scanString_quote k (':' :: (layout.gap ++ write layout level v
    (writeMembers layout level ms (layout.line level' ++ '\x7d' :: rest))))
  have hvalue := scanValue_write layout level v fuel
    (writeMembers layout level ms (layout.line level' ++ '\x7d' :: rest))
    (by simp only [memberSteps] at hfuel; omega) (follows_members layout level level' ms rest)
  rw [hcs, scanMembers, skipBlanks_cons (by decide)]
  simp only [hscan, skipBlanks_cons (c := ':') (by decide), scanValue_append layout.isBlank_gap,
    hvalue]
  match ms with
  | [] =>
      simp only [writeMembers, skipBlanks_append (layout.isBlank_line level'),
        skipBlanks_cons (c := '\x7d') (by decide)]
      simp [scannedMembers]
  | (j, w) :: ms =>
      have hmembers := scanMembers_write layout level level' j w ms ((some k, v.scanned) :: seen)
        fuel rest (by simp only [memberSteps] at hfuel ⊢; omega)
      simp only [writeMembers, skipBlanks_cons (c := ',') (by decide),
        scanMembers_append (layout.isBlank_line level), hmembers]
      simp [scannedMembers]
termination_by fuel

end

end JsonText

namespace Json

/-- In every layout, the text of a value writes the scanned document of the value. -/
theorem ofText?_write (layout : Layout) (v : Json) :
    Document.ofText? (String.ofList (write layout 0 v [])) = some v.scanned := by
  have hsteps := v.steps_le_length layout 0 []
  have hscan := JsonText.scanValue_write layout 0 v ((write layout 0 v []).length + 1) []
    (by omega) (.inl rfl)
  simp only [Document.ofText?, Document.ofChars?, String.toList_ofList, hscan]
  rfl

/-- **The compact text of a value writes the scanned document of the value.** -/
theorem ofText?_compact (v : Json) : Document.ofText? v.compact = some v.scanned := by
  rw [compact, writeCompact_eq v 0]
  exact ofText?_write .compact v

/-- **The indented text of a value writes the scanned document of the value.** -/
theorem ofText?_indented (v : Json) : Document.ofText? v.indented = some v.scanned := by
  rw [indented, writeIndented_eq]
  exact ofText?_write .indented v

end Json

end ClusterSnapshot
