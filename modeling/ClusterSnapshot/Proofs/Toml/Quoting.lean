import ClusterSnapshot.Toml.Scalar
import ClusterSnapshot.Toml.Writer
import Mathlib.Data.List.Basic
import Mathlib.Tactic.SplitIfs

/-!
# Reading texts in quotes

A text is written in one of four kinds of quotes, whichever suits it, and is read back from them as
it was. In quotes on several lines quotes of the text itself may stand as they are, so that only the
number of quotes in a row says where the text ends.

## Main results

* `Toml.scanBasic_escapeAll`, `Toml.scanLiteral_append`: texts in quotes on one line.
* `Toml.Inside`: what may stand inside quotes on several lines for a text.
* `Toml.scanText_quote`: **a text in the quotes that suit it is read back**.
-/

namespace ClusterSnapshot.Toml

/-! ### Escapes -/

/-- A character without a code is plain, if it does not end a line. -/
theorem isPlain_of_not_needsCode {c : Char} (h : needsCode c = false) (hbreak : c ≠ '\n') :
    isPlain c = true := by
  simp only [needsCode, isPlain, Bool.and_eq_false_imp, Bool.or_eq_false_iff, decide_eq_true_eq,
    decide_eq_false_iff_not, Bool.or_eq_true, Bool.and_eq_true, ne_eq] at h ⊢
  by_cases htab : c = '\t'
  · exact .inl htab
  · obtain ⟨hlow, hdelete⟩ := h ⟨htab, hbreak⟩
    exact .inr ⟨by omega, hdelete⟩

/-- A digit of a code is read as its value. -/
theorem hexDigit?_hexUpper {n : Nat} (h : n < 16) : hexDigit? (hexUpper n) = some n := by
  revert n
  decide

/-- A character that is written by its code is read back. -/
theorem scanEscape_code {c : Char} (h : c.toNat ≤ 0x7F) (rest : List Char) :
    scanEscape ('u' :: '0' :: '0' :: hexUpper (c.toNat / 16) :: hexUpper (c.toNat % 16) :: rest) =
      some (c, rest) := by
  have hhigh := hexDigit?_hexUpper (n := c.toNat / 16) (by omega)
  have hlow := hexDigit?_hexUpper (n := c.toNat % 16) (by omega)
  have hzero : hexDigit? '0' = some 0 := rfl
  have hcode : c.toNat / 16 * 16 + c.toNat % 16 = c.toNat := by omega
  have hvalid : c.toNat.isValidChar := c.valid
  simp only [scanEscape, scanCode, List.take_succ_cons, List.take_zero, List.mapM_cons,
    List.mapM_nil, hhigh, hlow, hzero, Option.bind_eq_bind, Option.bind_some]
  simp [hcode, hvalid]

/-- What is written for a character inside double quotes: itself, a break that may stand as it is,
or what is read as the character after a backslash. -/
inductive Escaped (onLines : Bool) (c : Char) : List Char → Prop
  | plain : isPlain c = true → c ≠ '"' → c ≠ '\\' → Escaped onLines c [c]
  | lineBreak : onLines = true → c = '\n' → Escaped onLines c ['\n']
  | code {d : Char} {ds : List Char} : isPlain d = true → isBlank d = false →
    (∀ rest, scanEscape (d :: (ds ++ rest)) = some (c, rest)) →
    Escaped onLines c ('\\' :: d :: ds)

/-- A quote that is escaped is read back. -/
theorem escaped_quote (onLines : Bool) : Escaped onLines '"' ['\\', '"'] :=
  .code rfl rfl fun _ => rfl

/-- Every other character that is escaped is read back. -/
theorem escaped_escape (onLines : Bool) {c : Char} (hquote : c ≠ '"') :
    Escaped onLines c (escape onLines c) := by
  rw [escape]
  split_ifs with hb ht hf hr hslash hbreak honLines hcode
  · exact .code rfl rfl fun rest => by rw [hb]; rfl
  · exact .code rfl rfl fun rest => by rw [ht]; rfl
  · exact .code rfl rfl fun rest => by rw [hf]; rfl
  · exact .code rfl rfl fun rest => by rw [hr]; rfl
  · exact .code rfl rfl fun rest => by rw [hslash]; rfl
  · exact .lineBreak honLines hbreak
  · exact .code rfl rfl fun rest => by rw [hbreak]; rfl
  · have hcontrol : c.toNat ≤ 0x1F ∨ c.toNat = 0x7F := by simp_all [needsCode]
    exact .code rfl rfl fun rest => scanEscape_code (by omega) rest
  · exact .plain (isPlain_of_not_needsCode (by simpa using hcode) hbreak) hquote hslash

/-! ### Texts on one line -/

/-- A character that is escaped is scanned in front of what is scanned anyway. -/
theorem scanBasic_escaped {c : Char} {w : List Char} (hw : Escaped false c w) {fuel : Nat}
    {left cs rest : List Char} (h : scanBasic fuel left = some (cs, rest)) :
    scanBasic (fuel + 1) (w ++ left) = some (c :: cs, rest) := by
  cases hw with
  | plain hplain hquote hslash => simp [scanBasic, hplain, h]
  | lineBreak honLines _ => cases honLines
  | code _ _ hcode => simp [scanBasic, hcode left, h]

/-- What is written inside double quotes for a character that is no quote, or one too many. -/
theorem escapeAll_cons (onLines : Bool) {allowed run : Nat} {c : Char}
    (h : c ≠ '"' ∨ allowed ≤ run) (cs : List Char) : ∃ w, Escaped onLines c w ∧
      escapeAll onLines allowed run (c :: cs) = w ++ escapeAll onLines allowed 0 cs := by
  rw [escapeAll]
  by_cases hquote : c = '"'
  · have hrun : allowed ≤ run := h.resolve_left fun hne => hne hquote
    rw [if_pos hquote, if_neg (Nat.not_lt.mpr hrun), hquote]
    exact ⟨_, escaped_quote onLines, rfl⟩
  · rw [if_neg hquote]
    exact ⟨_, escaped_escape onLines hquote, rfl⟩

/-- **A text in double quotes** is read back. -/
theorem scanBasic_escapeAll (cs rest : List Char) (run : Nat) {fuel : Nat}
    (hfuel : cs.length < fuel) :
    scanBasic fuel (escapeAll false 0 run cs ++ '"' :: rest) = some (cs, rest) := by
  induction cs generalizing run fuel with
  | nil =>
      cases fuel with
      | zero => cases hfuel
      | succ fuel => rfl
  | cons c cs ih =>
      cases fuel with
      | zero => cases hfuel
      | succ fuel =>
          obtain ⟨w, hw, hwritten⟩ := escapeAll_cons false (.inr run.zero_le) cs
          rw [hwritten, List.append_assoc]
          exact scanBasic_escaped hw (ih 0 (Nat.lt_of_succ_lt_succ hfuel))

/-- **A text in single quotes** is read back if it has no quotes and no control characters. -/
theorem scanLiteral_append {cs : List Char} (h : ∀ c ∈ cs, isPlain c = true ∧ c ≠ '\'')
    (rest : List Char) : scanLiteral (cs ++ '\'' :: rest) = some (cs, rest) := by
  induction cs with
  | nil => rfl
  | cons c cs ih =>
      obtain ⟨⟨hplain, hquote⟩, hothers⟩ := List.forall_mem_cons.mp h
      simp [scanLiteral, hplain, ih hothers]

/-! ### Texts on several lines -/

variable {quote : Char} {escapes : Bool} {n : Nat} {cs rest : List Char}

/-- Whether some characters are read as one character of a text on several lines, in one step. -/
structure ReadAs (quote : Char) (escapes : Bool) (c : Char) (w : List Char) : Prop where
  start : ∃ d ∈ w.head?, d ≠ quote
  scanned : ∀ fuel left cs rest, scanLines quote escapes fuel left = some (cs, rest) →
    scanLines quote escapes (fuel + 1) (w ++ left) = some (c :: cs, rest)

/-- What stands inside quotes on several lines for a text, when some quotes stand right before it.
No more than two quotes stand in a row. -/
inductive Inside (quote : Char) (escapes : Bool) : Nat → List Char → List Char → Prop
  | nil {n : Nat} : n ≤ 2 → Inside quote escapes n [] []
  | quote {n : Nat} {cs inside : List Char} : n < 2 → Inside quote escapes (n + 1) cs inside →
    Inside quote escapes n (quote :: cs) (quote :: inside)
  | other {n : Nat} {c : Char} {w cs inside : List Char} : n ≤ 2 → ReadAs quote escapes c w →
    Inside quote escapes 0 cs inside → Inside quote escapes n (c :: cs) (w ++ inside)

/-- Quotes are counted up to the first other character. -/
theorem quoteRun_replicate (n : Nat) (h : cs.head? ≠ some quote) :
    quoteRun quote (List.replicate n quote ++ cs) = (n, cs) := by
  have hhead : cs.takeWhile (· = quote) = [] ∧ cs.dropWhile (· = quote) = cs := by
    cases cs with
    | nil => exact ⟨rfl, rfl⟩
    | cons c cs => simp_all
  rw [quoteRun, List.takeWhile_append_of_pos (by simp), List.dropWhile_append_of_pos (by simp),
    hhead.1, hhead.2]
  simp

/-- Quotes in a row that do not end the text. -/
theorem scanLines_quotes {fuel : Nat} {left : List Char} (hn : 0 < n) (hle : n ≤ 2)
    (hhead : left.head? ≠ some quote) (h : scanLines quote escapes fuel left = some (cs, rest)) :
    scanLines quote escapes (fuel + 1) (List.replicate n quote ++ left) =
      some (List.replicate n quote ++ cs, rest) := by
  have hrun := quoteRun_replicate n hhead
  cases n with
  | zero => cases hn
  | succ n =>
      rw [List.replicate_succ, List.cons_append] at hrun ⊢
      rw [scanLines, if_pos rfl, hrun]
      simp only [hle, ↓reduceIte, h, Option.map_some]
      rfl

/-- Quotes that end the text. Up to two of them are part of it. -/
theorem scanLines_closing (fuel : Nat) (hle : n ≤ 2) (hhead : rest.head? ≠ some quote) :
    scanLines quote escapes (fuel + 1)
        (List.replicate n quote ++ (List.replicate 3 quote ++ rest)) =
      some (List.replicate n quote, rest) := by
  have hrun := quoteRun_replicate (n + 3) hhead
  rw [← List.append_assoc, List.replicate_append_replicate]
  rw [List.replicate_succ, List.cons_append] at hrun ⊢
  simp [scanLines, hrun, show n + 3 ≤ 5 by omega, show ¬ n + 3 ≤ 2 by omega]

/-- **What stands inside quotes on several lines is read as its text.** -/
theorem Inside.scanLines {inside : List Char} (h : Inside quote escapes n cs inside)
    (hrest : rest.head? ≠ some quote) {fuel : Nat} (hfuel : n + inside.length < fuel) :
    scanLines quote escapes fuel
        (List.replicate n quote ++ (inside ++ (List.replicate 3 quote ++ rest))) =
      some (List.replicate n quote ++ cs, rest) := by
  -- The quotes before what stands inside are taken along: the scanner takes a run of them at once.
  induction h generalizing fuel with
  | nil hn =>
      obtain ⟨fuel, rfl⟩ := Nat.exists_eq_add_of_lt hfuel
      simpa using scanLines_closing _ hn hrest
  | @quote n cs inside hn _ ih =>
      rw [List.length_cons] at hfuel
      have hnext := @ih fuel (by omega)
      simpa [List.replicate_succ', List.append_assoc] using hnext
  | @other n c w cs inside hn hw _ ih =>
      obtain ⟨⟨d, hd, hne⟩, hscan⟩ := hw
      obtain ⟨ds, rfl⟩ := List.head?_eq_some_iff.mp hd
      have hnext : ∀ fuel, inside.length + 1 < fuel → Toml.scanLines quote escapes fuel
          (d :: ds ++ (inside ++ (List.replicate 3 quote ++ rest))) = some (c :: cs, rest) := by
        rintro (_ | fuel) hfuel
        · cases hfuel
        · exact hscan _ _ _ _ (ih (by omega))
      rw [List.length_append, List.length_cons] at hfuel
      rw [List.append_assoc]
      cases n with
      | zero => exact hnext fuel (by omega)
      | succ n =>
          cases fuel with
          | zero => cases hfuel
          | succ fuel =>
              exact scanLines_quotes n.succ_pos hn (by simpa using hne) (hnext fuel (by omega))

/-- A plain character begins no line. -/
theorem newline?_of_isPlain {c : Char} (h : isPlain c = true) (cs : List Char) :
    newline? (c :: cs) = none := by
  have hbreak : c ≠ '\n' := by rintro rfl; cases h
  have hreturn : c ≠ '\r' := by rintro rfl; cases h
  unfold newline?
  split <;> simp_all

/-- A character that may stand as it is. -/
theorem readAs_plain {c : Char} (hplain : isPlain c = true) (hquote : c ≠ quote)
    (hslash : escapes = true → c ≠ '\\') : ReadAs quote escapes c [c] := by
  refine ⟨⟨c, rfl, hquote⟩, fun fuel left cs rest h => ?_⟩
  have hescape : ¬ (escapes = true ∧ c = '\\') := fun ⟨hescapes, hc⟩ => hslash hescapes hc
  rw [List.singleton_append, scanLines, if_neg hquote, if_neg hescape,
    newline?_of_isPlain hplain]
  simp only [hplain, ↓reduceIte, h, Option.map_some]

/-- A break inside a text. -/
theorem readAs_break (hquote : quote ≠ '\n') : ReadAs quote escapes '\n' ['\n'] := by
  refine ⟨⟨'\n', rfl, hquote.symm⟩, fun fuel left cs rest h => ?_⟩
  rw [List.singleton_append, scanLines, if_neg hquote.symm, if_neg (by simp)]
  simp only [newline?, h, Option.map_some]

/-- Escapes are read back on several lines, too. -/
theorem Escaped.readAs {c : Char} {w : List Char} (hw : Escaped true c w) :
    ReadAs '"' true c w := by
  cases hw with
  | plain hplain hquote hslash => exact readAs_plain hplain hquote fun _ => hslash
  | lineBreak _ hbreak =>
      rw [hbreak]
      exact readAs_break (by decide)
  | @code d ds hplain hblank hcode =>
      refine ⟨⟨'\\', rfl, by decide⟩, fun fuel left cs rest h => ?_⟩
      have hbreak : escapedBreak? (d :: (ds ++ left)) = none := by
        simp [escapedBreak?, skipBlanks, hblank, newline?_of_isPlain hplain]
      simp [scanLines, hbreak, hcode left, h]

/-- What is written inside triple double quotes. -/
theorem inside_escapeAll (cs : List Char) {n : Nat} (hn : n ≤ 2) :
    Inside '"' true n cs (escapeAll true 2 n cs) := by
  induction cs generalizing n with
  | nil => exact .nil hn
  | cons c cs ih =>
      by_cases hstands : c = '"' ∧ n < 2
      · rw [escapeAll, if_pos hstands.1, if_pos hstands.2, hstands.1]
        exact .quote hstands.2 (ih hstands.2)
      · rw [not_and_or, Nat.not_lt] at hstands
        obtain ⟨w, hw, hwritten⟩ := escapeAll_cons true hstands cs
        rw [hwritten]
        exact .other hn hw.readAs (ih (Nat.zero_le 2))

/-- The longest run is at least the best so far. -/
theorem le_longestRun (c : Char) (current best : Nat) (cs : List Char) :
    best ≤ longestRun c current best cs := by
  induction cs generalizing current best with
  | nil => exact Nat.le_refl _
  | cons c' cs ih =>
      rw [longestRun]
      split
      · exact Nat.le_trans (Nat.le_max_left ..) (ih ..)
      · exact ih ..

/-- A run of no characters means that there are none. -/
theorem not_mem_of_longestRun {c : Char} {current best : Nat}
    (h : longestRun c current best cs = 0) : c ∉ cs := by
  induction cs generalizing current best with
  | nil => exact List.not_mem_nil
  | cons c' cs ih =>
      rw [longestRun] at h
      split at h
      · have hle := le_longestRun c (current + 1) (max best (current + 1)) cs
        omega
      · rename_i hne
        exact List.not_mem_cons_of_ne_of_not_mem (Ne.symm hne) (ih h)

/-- What stands inside triple single quotes as it is. -/
theorem inside_self {best : Nat} (hcontrol : cs.any needsCode = false) (hn : n ≤ 2)
    (hrun : longestRun '\'' n best cs ≤ 2) : Inside '\'' false n cs cs := by
  induction cs generalizing n best with
  | nil => exact .nil hn
  | cons c cs ih =>
      rw [List.any_cons, Bool.or_eq_false_iff] at hcontrol
      obtain ⟨hc, hothers⟩ := hcontrol
      rw [longestRun] at hrun
      split at hrun
      · rename_i hquote
        have hle := le_longestRun '\'' (n + 1) (max best (n + 1)) cs
        rw [hquote]
        exact .quote (by omega) (ih hothers (by omega) hrun)
      · rename_i hquote
        have hread : ReadAs '\'' false c [c] := by
          by_cases hbreak : c = '\n'
          · rw [hbreak]
            exact readAs_break (by decide)
          · exact readAs_plain (isPlain_of_not_needsCode hc hbreak) hquote fun h => by cases h
        exact .other (w := [c]) hn hread (ih hothers (Nat.zero_le 2) hrun)

/-- A text without breaks does not begin with one. -/
theorem newline?_of_scanLines {fuel : Nat} {left : List Char}
    (h : scanLines quote escapes fuel left = some (cs, rest)) (hcs : '\n' ∉ cs)
    (hquote : quote ≠ '\n' ∧ quote ≠ '\r') : newline? left = none := by
  rw [Option.eq_none_iff_forall_ne_some]
  intro after hafter
  have hfirst : ∃ c left', left = c :: left' ∧ c ≠ quote ∧ c ≠ '\\' := by
    unfold newline? at hafter
    split at hafter
    · exact ⟨'\n', _, rfl, hquote.1.symm, by decide⟩
    · exact ⟨'\r', _, rfl, hquote.2.symm, by decide⟩
    · cases hafter
  obtain ⟨c, left, rfl, hne, hslash⟩ := hfirst
  cases fuel with
  | zero => cases h
  | succ fuel =>
      rw [scanLines, if_neg hne, if_neg (by simp [hslash]), hafter] at h
      obtain ⟨⟨cs', rest'⟩, -, heq⟩ := Option.map_eq_some_iff.mp h
      cases heq
      exact hcs (List.mem_cons_self ..)

/-- The break that is written in front does not count. -/
theorem scanLinesAfterBreak_breakFirst {inside : List Char}
    (h : Inside quote escapes 0 cs inside) (hrest : rest.head? ≠ some quote)
    (hquote : quote ≠ '\n' ∧ quote ≠ '\r') :
    scanLinesAfterBreak quote escapes
      (breakFirst cs inside ++ (List.replicate 3 quote ++ rest)) = some (cs, rest) := by
  have hread : ∀ fuel, inside.length < fuel → scanLines quote escapes fuel
      (inside ++ (List.replicate 3 quote ++ rest)) = some (cs, rest) :=
    fun fuel hfuel => h.scanLines hrest (by omega)
  have hbody : (newline? (breakFirst cs inside ++ (List.replicate 3 quote ++ rest))).getD
      (breakFirst cs inside ++ (List.replicate 3 quote ++ rest)) =
        inside ++ (List.replicate 3 quote ++ rest) := by
    by_cases hmem : '\n' ∈ cs
    · simp [breakFirst, hmem, newline?]
    · have hnone := newline?_of_scanLines (hread _ (Nat.lt_succ_self _)) hmem hquote
      have hfirst : breakFirst cs inside = inside := by simp [breakFirst, hmem]
      rw [hfirst, hnone, Option.getD_none]
  rw [scanLinesAfterBreak, hbody]
  exact hread _ (by rw [List.length_append]; omega)

/-! ### Texts in the quotes that suit them -/

/-- One quote opens a text on one line unless two more follow; then the text would be empty, and
another quote would stand right after it. -/
theorem scanText_of_scanBasic {left : List Char}
    (h : scanBasic (left.length + 1) left = some (cs, rest)) (hrest : rest.head? ≠ some '"') :
    scanText ('"' :: left) = some (String.ofList cs, rest) := by
  unfold scanText
  split
  · rename_i heq
    cases heq
    cases h
    exact absurd rfl hrest
  · rename_i heq
    cases heq
    rw [h]
    rfl
  all_goals simp_all

/-- A text in single quotes is scanned as a text. -/
theorem scanText_of_scanLiteral {left : List Char} (h : scanLiteral left = some (cs, rest))
    (hrest : rest.head? ≠ some '\'') :
    scanText ('\'' :: left) = some (String.ofList cs, rest) := by
  unfold scanText
  split
  case h_3 heq =>
    cases heq
    cases h
    exact absurd rfl hrest
  case h_4 heq =>
    cases heq
    rw [h]
    rfl
  all_goals simp_all

/-- Whether a text can be written in quotes of a kind. -/
def Suits (cs : List Char) : QuoteStyle → Prop
  | .basic | .basicLines => True
  | .literal => ∀ c ∈ cs, isPlain c = true ∧ c ≠ '\''
  | .literalLines => Inside '\'' false 0 cs cs

/-- **The quotes that are chosen suit the text.** -/
theorem suits_style (cs : List Char) : Suits cs (TextTraits.of cs).style := by
  rw [TextTraits.style]
  split_ifs with hbasic hliteral hlines hlinesLiteral
  · trivial
  · simp only [TextTraits.of, Bool.and_eq_true, Bool.not_eq_true'] at hliteral
    obtain ⟨⟨hcontrol, hrun⟩, hbreak⟩ := hliteral
    have hquote : '\'' ∉ cs := not_mem_of_longestRun (of_decide_eq_true hrun)
    intro c hc
    have hplain : needsCode c = false := by
      rw [List.any_eq_false] at hcontrol
      simpa using hcontrol c hc
    refine ⟨isPlain_of_not_needsCode hplain ?_, ?_⟩
    · rintro rfl
      simp [hc] at hbreak
    · rintro rfl
      exact hquote hc
  · trivial
  · simp only [TextTraits.of, Bool.and_eq_true, Bool.not_eq_true'] at hlinesLiteral
    exact inside_self hlinesLiteral.1 (Nat.zero_le 2) (of_decide_eq_true hlinesLiteral.2)
  · trivial
  · trivial

/-- Escaping makes no text shorter. -/
theorem length_le_escapeAll (onLines : Bool) (allowed run : Nat) (cs : List Char) :
    cs.length ≤ (escapeAll onLines allowed run cs).length := by
  induction cs generalizing run with
  | nil => exact Nat.zero_le _
  | cons c cs ih =>
      have hothers := ih 0
      have hnext := ih (run + 1)
      have hescape : 0 < (escape onLines c).length := by
        rw [escape]
        split_ifs <;> simp
      rw [escapeAll]
      split_ifs <;> simp only [List.length_cons, List.length_append] <;> omega

/-- **A text in quotes that suit it is read back.** -/
theorem scanText_quoteAs {style : QuoteStyle} (h : Suits cs style)
    (hrest : rest.head? ≠ some '"' ∧ rest.head? ≠ some '\'') :
    scanText (quoteAs cs style ++ rest) = some (String.ofList cs, rest) := by
  cases style with
  | basic =>
      have hlength := length_le_escapeAll false 0 0 cs
      rw [quoteAs, List.cons_append, List.append_assoc, List.singleton_append]
      refine scanText_of_scanBasic (scanBasic_escapeAll cs rest 0 ?_) hrest.1
      rw [List.length_append]
      omega
  | literal =>
      rw [quoteAs, List.cons_append, List.append_assoc, List.singleton_append]
      exact scanText_of_scanLiteral (scanLiteral_append h rest) hrest.2
  | basicLines =>
      have hread := scanLinesAfterBreak_breakFirst (inside_escapeAll cs (Nat.zero_le 2)) hrest.1
        (by decide)
      simp only [List.replicate_succ, List.replicate_zero, List.cons_append, List.nil_append]
        at hread
      simp [quoteAs, scanText, hread]
  | literalLines =>
      have hread := scanLinesAfterBreak_breakFirst h hrest.2 (by decide)
      simp only [List.replicate_succ, List.replicate_zero, List.cons_append, List.nil_append]
        at hread
      simp [quoteAs, scanText, hread]

/-- **A text in the quotes that suit it is read back**, unless another quote follows. -/
theorem scanText_quote (s : String) (hrest : rest.head? ≠ some '"' ∧ rest.head? ≠ some '\'') :
    scanText ((Toml.quote s).toList ++ rest) = some (s, rest) := by
  rw [Toml.quote, String.toList_ofList, scanText_quoteAs (suits_style _) hrest,
    String.ofList_toList]

end ClusterSnapshot.Toml
