import ClusterSnapshot.Proofs.Number.Text
import ClusterSnapshot.Proofs.Toml.Quoting
import ClusterSnapshot.Toml.Reader

/-!
# Reading the lines of a document

A document of headers and of keys with texts, numbers and truth values, each on a line of its own,
is read line by line.

## Main results

* `Toml.written_quote`, `Toml.written_flag`, `Toml.written_natural`: how values are written.
* `Toml.isLine_header`, `Toml.isLine_assignment`: how lines are read.
* `Toml.scanDocument_flatten`: **a document is read line by line**.
-/

namespace ClusterSnapshot.Toml

open NumberText (values)

/-! ### Values -/

/-- Whether some characters write a value that ends with its line. -/
structure Written (w : List Char) (v : Value) : Prop where
  start : ∃ c ∈ w.head?, isBlank c = false
  scanned : ∀ room fuel rest,
    scanValue room (fuel + 1) (w ++ '\n' :: rest) = some (v, '\n' :: rest)

/-- `true` is read as it is written. -/
theorem written_true : Written ['t', 'r', 'u', 'e'] (.boolean true) :=
  ⟨⟨'t', rfl, rfl⟩, fun room fuel rest => by simp [scanValue]⟩

/-- `false` is read as it is written. -/
theorem written_false : Written ['f', 'a', 'l', 's', 'e'] (.boolean false) :=
  ⟨⟨'f', rfl, rfl⟩, fun room fuel rest => by simp [scanValue]⟩

/-- How a text in quotes begins. -/
theorem head?_quoteAs (cs : List Char) (style : QuoteStyle) :
    (quoteAs cs style).head? = some '"' ∨ (quoteAs cs style).head? = some '\'' := by
  cases style <;> simp [quoteAs]

/-- **A text in quotes** is read as a value. -/
theorem written_quote (s : String) : Written (quote s).toList (.text s) := by
  have hscan : ∀ rest, scanText ((quote s).toList ++ '\n' :: rest) = some (s, '\n' :: rest) :=
    fun rest => scanText_quote s ⟨by simp, by simp⟩
  obtain ⟨c, ds, hw, hc⟩ : ∃ c ds, (quote s).toList = c :: ds ∧ (c = '"' ∨ c = '\'') := by
    rw [quote, String.toList_ofList]
    rcases head?_quoteAs s.toList (TextTraits.of s.toList).style with h | h
    · obtain ⟨ds, hds⟩ := List.head?_eq_some_iff.mp h
      exact ⟨_, ds, hds, .inl rfl⟩
    · obtain ⟨ds, hds⟩ := List.head?_eq_some_iff.mp h
      exact ⟨_, ds, hds, .inr rfl⟩
  rw [hw] at hscan ⊢
  refine ⟨⟨c, rfl, by rcases hc with rfl | rfl <;> rfl⟩, fun room fuel rest => ?_⟩
  have hscan := hscan rest
  rw [List.cons_append] at hscan ⊢
  rcases hc with rfl | rfl
  · simp only [scanValue, hscan, Option.map_some]
  · simp only [scanValue, hscan, Option.map_some]

/-! ### Numbers -/

variable {ds : List Char}

/-- Digits have a value. -/
theorem digitIn?_of_isDigit {c : Char} (h : c.isDigit = true) :
    digitIn? 10 c = some (c.toNat - '0'.toNat) := by
  have hdecimal : '0' ≤ c ∧ c ≤ '9' := by
    rw [Char.isDigit_iff_toNat] at h
    exact h
  have hlt : c.toNat - '0'.toNat < 10 := by
    rw [Char.isDigit_iff_toNat] at h
    change _ - 48 < 10
    change 48 ≤ _ ∧ _ ≤ 57 at h
    omega
  rw [digitIn?, hexDigit?, if_pos hdecimal, Option.filter_some, if_pos (by simpa using hlt)]

/-- Digits at the end of a line are scanned. -/
theorem scanDigits_values (hds : ∀ c ∈ ds, c.isDigit = true) (hne : ds ≠ []) (rest : List Char) :
    scanDigits (digitIn? 10) (ds ++ '\n' :: rest) = some (values ds, '\n' :: rest) := by
  induction ds with
  | nil => exact absurd rfl hne
  | cons c ds ih =>
      obtain ⟨hc, hothers⟩ := List.forall_mem_cons.mp hds
      have hvalue := digitIn?_of_isDigit hc
      cases ds with
      | nil =>
          have hbreak : digitIn? 10 '\n' = none := rfl
          simp [scanDigits, hvalue, hbreak, values]
      | cons c' ds =>
          have hdigit := hothers c' (List.mem_cons_self ..)
          have hnext := digitIn?_of_isDigit hdigit
          have hscore : c' ≠ '_' := by rintro rfl; cases hdigit
          have hscan := ih hothers (List.cons_ne_nil c' ds)
          rw [List.cons_append] at hscan
          simp [scanDigits, hvalue, hnext, hscore, hscan, values]

/-- After so many digits there are others, or the line ends. -/
theorem expect?_of_scanCount (hds : ∀ c ∈ ds, c.isDigit = true) {rest left : List Char}
    {count n : Nat} (h : scanCount count (ds ++ '\n' :: rest) = some (n, left)) {c : Char}
    (hc : c.isDigit = false) (hbreak : c ≠ '\n') : expect? c left = none := by
  rw [scanCount] at h
  split at h
  · rename_i htaken
    obtain ⟨hcount, hdigits⟩ := htaken
    cases h
    have hle : count ≤ ds.length := by
      by_contra hlt
      obtain ⟨m, hm⟩ : ∃ m, count - ds.length = m + 1 := ⟨count - ds.length - 1, by omega⟩
      rw [List.take_append, hm, List.take_succ_cons, List.all_append, List.all_cons] at hdigits
      have hno : Char.isDigit '\n' = false := rfl
      simp [hno] at hdigits
    rw [List.drop_append_of_le_length hle]
    cases hleft : ds.drop count with
    | nil => exact if_neg (Ne.symm hbreak)
    | cons d left =>
        have hd : d.isDigit = true := hds d (List.mem_of_mem_drop (by rw [hleft]; simp))
        refine if_neg ?_
        rintro rfl
        rw [hc] at hd
        cases hd
  · cases h

/-- Digits alone are no date. -/
theorem skipDate?_digits (hds : ∀ c ∈ ds, c.isDigit = true) (rest : List Char) :
    skipDate? (ds ++ '\n' :: rest) = none := by
  have hday : skipDay? (ds ++ '\n' :: rest) = none := by
    rw [skipDay?]
    cases hyear : scanCount 4 (ds ++ '\n' :: rest) with
    | none => rfl
    | some year =>
        have hdash := expect?_of_scanCount hds hyear (c := '-') rfl (by decide)
        simp [hdash]
  have htime : skipTime? (ds ++ '\n' :: rest) = none := by
    rw [skipTime?]
    cases hhour : scanCount 2 (ds ++ '\n' :: rest) with
    | none => rfl
    | some hour =>
        have hcolon := expect?_of_scanCount hds hhour (c := ':') rfl (by decide)
        simp [hcolon]
  rw [skipDate?, hday, htime]

/-- A number without a sign, and without a zero in front. -/
theorem scanWhole_digits (hds : ∀ c ∈ ds, c.isDigit = true) (hne : ds ≠ [])
    (hzero : ds.head? ≠ some '0') (rest : List Char) :
    scanSign (ds ++ '\n' :: rest) = (false, ds ++ '\n' :: rest) ∧
      scanWhole (ds ++ '\n' :: rest) = some (values ds, '\n' :: rest) := by
  have hscan := scanDigits_values hds hne rest
  obtain ⟨c, ds, rfl⟩ := List.exists_cons_of_ne_nil hne
  have hc := hds c (List.mem_cons_self ..)
  have hplus : c ≠ '+' := by rintro rfl; cases hc
  have hminus : c ≠ '-' := by rintro rfl; cases hc
  have hzero : c ≠ '0' := by rintro rfl; exact hzero rfl
  rw [List.cons_append] at hscan ⊢
  constructor
  · unfold scanSign
    split <;> simp_all
  · unfold scanWhole
    split <;> simp_all

/-- Digits alone are no number with a fraction or a power. -/
theorem skipReal?_digits (hds : ∀ c ∈ ds, c.isDigit = true) (hne : ds ≠ [])
    (hzero : ds.head? ≠ some '0') (rest : List Char) :
    skipReal? (ds ++ '\n' :: rest) = none := by
  obtain ⟨hsign, hwhole⟩ := scanWhole_digits hds hne hzero rest
  obtain ⟨c, ds, rfl⟩ := List.exists_cons_of_ne_nil hne
  have hc := hds c (List.mem_cons_self ..)
  have hi : c ≠ 'i' := by rintro rfl; cases hc
  have hn : c ≠ 'n' := by rintro rfl; cases hc
  rw [List.cons_append] at hsign hwhole ⊢
  rw [skipReal?, hsign]
  simp only
  split
  · simp_all
  · simp_all
  · simp [hwhole]

/-- A natural at the end of a line is scanned, if it has no leading zero and is in range. -/
theorem scanInteger_digits (hds : ∀ c ∈ ds, c.isDigit = true) (hne : ds ≠ [])
    (hzero : ds.head? ≠ some '0') (hmax : natOf 10 (values ds) ≤ 0x7FFFFFFFFFFFFFFF)
    (rest : List Char) :
    scanInteger (ds ++ '\n' :: rest) = some ((natOf 10 (values ds) : Int), '\n' :: rest) := by
  obtain ⟨hsign, hwhole⟩ := scanWhole_digits hds hne hzero rest
  obtain ⟨c, ds, rfl⟩ := List.exists_cons_of_ne_nil hne
  -- Without a zero in front it is in no other base.
  have hzero : c ≠ '0' := by rintro rfl; exact hzero rfl
  rw [List.cons_append] at hsign hwhole ⊢
  unfold scanInteger
  split
  · simp_all
  · simp_all
  · simp_all
  · simp [hsign, hwhole]
    omega

/-- The digits of a natural, without a zero in front. -/
theorem natOf_values_toDigits (n : Nat) : natOf 10 (values (Nat.toDigits 10 n)) = n := by
  have hfold := NumberText.foldl_values (Nat.toDigits 10 n) 0
  rw [natOf, hfold, Nat.ofDigitChars_ten_toDigits]

/-- **A natural** is read as a value unless it is out of the range. -/
theorem written_natural {n : Nat} (hpos : n ≠ 0) (hmax : n ≤ 0x7FFFFFFFFFFFFFFF) :
    Written (toString n).toList (.integer n) := by
  have hds : ∀ c ∈ Nat.toDigits 10 n, c.isDigit = true := NumberText.isDigit_toDigits
  have hne : Nat.toDigits 10 n ≠ [] := Nat.toDigits_ne_nil
  have hzero := NumberText.head?_toDigits_ne hpos
  have hvalue := natOf_values_toDigits n
  have hchars : (toString n).toList = Nat.toDigits 10 n := by simp [toString, Nat.repr]
  rw [hchars]
  obtain ⟨c, ds, hdigits⟩ := List.exists_cons_of_ne_nil hne
  have hc := hds c (by rw [hdigits]; exact List.mem_cons_self ..)
  refine ⟨⟨c, by rw [hdigits]; rfl, ?_⟩, fun room fuel rest => ?_⟩
  · have hspace : c ≠ ' ' := by rintro rfl; cases hc
    have htab : c ≠ '\t' := by rintro rfl; cases hc
    simp [isBlank, hspace, htab]
  · have hdate := skipDate?_digits hds rest
    have hreal := skipReal?_digits hds hne hzero rest
    have hinteger := scanInteger_digits hds hne hzero (by rw [hvalue]; exact hmax) rest
    rw [hvalue] at hinteger
    rw [hdigits, List.cons_append] at hdate hreal hinteger ⊢
    unfold scanValue
    split
    case h_7 =>
      rw [hdate, hreal, hinteger]
      rfl
    all_goals
      rename_i heq
      obtain ⟨rfl, -⟩ := List.cons.inj heq
      cases hc

/-! ### Keys -/

/-- Whether a key needs no quotes. -/
def Bare (name : String) : Prop :=
  (!name.toList.isEmpty && name.toList.all isKeyChar) = true

instance (name : String) : Decidable (Bare name) := inferInstanceAs (Decidable (_ = true))

/-- A bare name is made of characters of keys. -/
theorem Bare.forall_isKeyChar {name : String} (h : Bare name) :
    ∀ c ∈ name.toList, isKeyChar c = true := by
  rw [Bare, Bool.and_eq_true] at h
  exact List.all_eq_true.mp h.2

/-- What a character of a key is not. -/
theorem ne_of_isKeyChar {c d : Char} (hc : isKeyChar c = true)
    (hd : d ∈ [' ', '\t', '\n', '\r', '#', '"', '\'', '[', ']', '.', '=']) : c ≠ d := by
  rintro rfl
  simp only [List.mem_cons, List.not_mem_nil, or_false] at hd
  rcases hd with rfl | rfl | rfl | rfl | rfl | rfl | rfl | rfl | rfl | rfl | rfl <;> cases hc

/-- No character of a key is blank. -/
theorem isBlank_of_isKeyChar {c : Char} (hc : isKeyChar c = true) : isBlank c = false := by
  have hspace : c ≠ ' ' := ne_of_isKeyChar hc (by simp)
  have htab : c ≠ '\t' := ne_of_isKeyChar hc (by simp)
  simp [isBlank, hspace, htab]

/-- How a key without quotes begins. -/
theorem Bare.exists_cons {name : String} (hname : Bare name) :
    ∃ c cs, name.toList = c :: cs ∧ isKeyChar c = true := by
  have hne : name.toList ≠ [] := by
    rw [Bare, Bool.and_eq_true] at hname
    simpa using hname.1
  obtain ⟨c, cs, hcs⟩ := List.exists_cons_of_ne_nil hne
  exact ⟨c, cs, hcs, hname.forall_isKeyChar c (by rw [hcs]; exact List.mem_cons_self ..)⟩

/-- A bare name is scanned up to the first other character. -/
theorem scanKeyPart_bare {name : String} (hname : Bare name) {c : Char}
    (hc : isKeyChar c = false) (rest : List Char) :
    scanKeyPart (name.toList ++ c :: rest) = some (name, c :: rest) := by
  have htake : (name.toList ++ c :: rest).takeWhile isKeyChar = name.toList := by
    rw [List.takeWhile_append_of_pos hname.forall_isKeyChar,
      List.takeWhile_cons_of_neg (by simp [hc]), List.append_nil]
  have hdrop : (name.toList ++ c :: rest).dropWhile isKeyChar = c :: rest := by
    rw [List.dropWhile_append_of_pos hname.forall_isKeyChar,
      List.dropWhile_cons_of_neg (by simp [hc])]
  obtain ⟨d, ds, hds, hd⟩ := hname.exists_cons
  have hdouble : d ≠ '"' := ne_of_isKeyChar hd (by simp)
  have hsingle : d ≠ '\'' := ne_of_isKeyChar hd (by simp)
  have hpart : String.ofList (d :: ds) = name := by rw [← hds, String.ofList_toList]
  rw [hds, List.cons_append] at htake hdrop ⊢
  unfold scanKeyPart
  split
  · simp_all
  · simp_all
  · rw [htake, hdrop]
    simp only [hpart]

/-- **A key without quotes**, alone. -/
theorem scanKey_bare {name : String} (hname : Bare name) {c d : Char} (hc : isKeyChar c = false)
    (hd : d ≠ '.') {rest rest' : List Char} (hend : skipBlanks (c :: rest) = d :: rest') :
    scanKey (name.toList ++ c :: rest) = some (([], name), d :: rest') := by
  have hblanks : skipBlanks (name.toList ++ c :: rest) = name.toList ++ c :: rest := by
    obtain ⟨e, es, hes, he⟩ := hname.exists_cons
    rw [hes]
    exact List.dropWhile_cons_of_neg (by simp [isBlank_of_isKeyChar he])
  have hparts : scanKeyParts ((name.toList ++ c :: rest).length + 1) (name.toList ++ c :: rest) =
      some ([name], d :: rest') := by
    rw [scanKeyParts, hblanks, scanKeyPart_bare hname hc]
    simp only [Option.bind_eq_bind, Option.bind_some, hend]
    split <;> simp_all
  rw [scanKey, hparts]
  rfl

/-! ### Lines -/

/-- Whether some characters are read as a line, whatever follows. -/
structure IsLine (w : List Char) (line : Line) : Prop where
  nonempty : w ≠ []
  scanned : ∀ rest, scanLine (w ++ rest) = some (line, rest)

/-- A key is no end of a line. -/
theorem endOfLine?_of_isKeyChar {c : Char} (hc : isKeyChar c = true) (cs : List Char) :
    endOfLine? (c :: cs) = none := by
  have hcomment : c ≠ '#' := ne_of_isKeyChar hc (by simp)
  have hbreak : c ≠ '\n' := ne_of_isKeyChar hc (by simp)
  have hreturn : c ≠ '\r' := ne_of_isKeyChar hc (by simp)
  have hblanks : skipBlanks (c :: cs) = c :: cs :=
    List.dropWhile_cons_of_neg (by simp [isBlank_of_isKeyChar hc])
  have hskip : skipComment (c :: cs) = c :: cs := by
    unfold skipComment
    split <;> simp_all
  have hnewline : newline? (c :: cs) = none := by
    unfold newline?
    split <;> simp_all
  rw [endOfLine?, hblanks, hskip]
  exact hnewline

/-- An empty line is a line. -/
theorem isLine_blank : IsLine ['\n'] .blank := ⟨by simp, fun _ => rfl⟩

/-- The header of a table is a line. -/
theorem isLine_header {name : String} (hname : Bare name) :
    IsLine ('[' :: name.toList ++ [']', '\n']) (.header (.table [] name)) := by
  refine ⟨by simp, fun rest => ?_⟩
  have hkey : scanKey (name.toList ++ ']' :: '\n' :: rest) =
      some (([], name), ']' :: '\n' :: rest) := scanKey_bare hname rfl (by decide) rfl
  have hend : endOfLine? ('\n' :: rest) = some rest := rfl
  obtain ⟨c, cs, hcs, hc⟩ := hname.exists_cons
  have hbracket : c ≠ '[' := ne_of_isKeyChar hc (by simp)
  have hstart : skipBlanks ('[' :: name.toList ++ [']', '\n'] ++ rest) =
      '[' :: (name.toList ++ ']' :: '\n' :: rest) := by
    simp [skipBlanks, isBlank]
  unfold scanLine
  rw [hstart]
  rw [hcs] at hkey ⊢
  split
  · simp_all
  · rename_i heq
    cases heq
    rw [hkey]
    rfl
  · simp_all

/-- An assignment of a written value is a line. -/
theorem isLine_assignment {key : String} (hkey : Bare key) {w : List Char} {v : Value}
    (hw : Written w v) :
    IsLine (key.toList ++ [' ', '=', ' '] ++ w ++ ['\n']) (.assignment ([], key, v)) := by
  refine ⟨by simp, fun rest => ?_⟩
  obtain ⟨⟨d, hd, hblank⟩, hscan⟩ := hw
  obtain ⟨ds, rfl⟩ := List.head?_eq_some_iff.mp hd
  have hscanKey : scanKey (key.toList ++ ' ' :: '=' :: ' ' :: (d :: ds ++ '\n' :: rest)) =
      some (([], key), '=' :: ' ' :: (d :: ds ++ '\n' :: rest)) :=
    scanKey_bare hkey rfl (by decide) rfl
  have hvalue : skipBlanks (' ' :: (d :: ds ++ '\n' :: rest)) = d :: ds ++ '\n' :: rest := by
    have hspace : isBlank ' ' = true := rfl
    simp [skipBlanks, hspace, hblank]
  have hend : endOfLine? ('\n' :: rest) = some rest := rfl
  obtain ⟨c, cs, hcs, hc⟩ := hkey.exists_cons
  have hbracket : c ≠ '[' := ne_of_isKeyChar hc (by simp)
  have hstart : skipBlanks (key.toList ++ [' ', '=', ' '] ++ (d :: ds) ++ ['\n'] ++ rest) =
      key.toList ++ ' ' :: '=' :: ' ' :: (d :: ds ++ '\n' :: rest) := by
    simp [skipBlanks, hcs, isBlank_of_isKeyChar hc]
  have hfilled : endOfLine? (key.toList ++ ' ' :: '=' :: ' ' :: (d :: ds ++ '\n' :: rest)) =
      none := by
    rw [hcs]
    exact endOfLine?_of_isKeyChar hc _
  unfold scanLine
  rw [hstart]
  split
  · simp_all
  · simp_all
  · rw [hfilled, hscanKey]
    simp only [Option.bind_eq_bind, Option.bind_some, expect?, ↓reduceIte, hvalue, hscan, hend]
    rfl

/-- **A document is read line by line.** -/
theorem scanDocument_flatten {ws : List (List Char)} {lines : List Line}
    (h : List.Forall₂ IsLine ws lines) {fuel : Nat} (hfuel : ws.flatten.length < fuel) :
    scanDocument fuel ws.flatten = some lines := by
  induction h generalizing fuel with
  | nil =>
      cases fuel with
      | zero => cases hfuel
      | succ fuel => rfl
  | @cons w line ws lines hline _ ih =>
      obtain ⟨hne, hscan⟩ := hline
      obtain ⟨c, w, rfl⟩ := List.exists_cons_of_ne_nil hne
      rw [List.flatten_cons] at hfuel ⊢
      cases fuel with
      | zero => cases hfuel
      | succ fuel =>
          rw [List.length_append, List.length_cons] at hfuel
          have hothers : scanDocument fuel ws.flatten = some lines := ih (by omega)
          have hline := hscan ws.flatten
          rw [List.cons_append] at hline ⊢
          rw [scanDocument, hline]
          · simp [hothers]
          · simp

end ClusterSnapshot.Toml
