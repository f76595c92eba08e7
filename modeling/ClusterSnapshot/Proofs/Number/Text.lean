import ClusterSnapshot.Json.Reader
import ClusterSnapshot.Json.Writer

/-!
# Numbers as they are written

Every number is written as a sign, whole digits, perhaps a fraction and perhaps a power of ten. A
`NumberText` is such a text by its parts. This module shows that the writer keeps to that form, and
that the scanner takes a text of that form apart again.

## Main results

* `NumberText.scanNumber_chars`: **the scanner undoes the form**, up to where the number ends.
* `NumberText.numberText_eq`, `NumberText.plain_ofNumber`: every number is written in the form.
-/

namespace ClusterSnapshot

open JsonText

/-- The natural that decimal digits denote. -/
def natOfChars (cs : List Char) : Nat := Nat.ofDigitChars 10 cs 0

/-- A number as it is written, by its parts. -/
structure NumberText where
  negative : Bool
  whole : List Char
  /-- The digits after the point; without any there is no point. -/
  fraction : List Char
  power? : Option Int

namespace NumberText

/-- The values of the digits of a text. -/
def values (cs : List Char) : List Nat := cs.map fun c => c.toNat - '0'.toNat

/-- A sign as it is written. -/
def signChars (negative : Bool) : List Char := if negative then ['-'] else []

/-- A fraction as it is written. -/
def fractionChars (fraction : List Char) : List Char :=
  if fraction = [] then [] else '.' :: fraction

/-- A power of ten as it is written. -/
def powerChars : Option Int → List Char
  | none => []
  | some p => 'e' :: (if p < 0 then '-' else '+') :: Nat.toDigits 10 p.natAbs

/-- The characters of the text. -/
def chars (t : NumberText) : List Char :=
  signChars t.negative ++ (t.whole ++ (fractionChars t.fraction ++ powerChars t.power?))

/-- The literal that the text writes. -/
def literal (t : NumberText) : NumberLiteral where
  negative := t.negative
  digits := values t.whole
  fraction? := if t.fraction = [] then none else some (values t.fraction)
  power? := t.power?

/-- The parts are made of digits, and no zero stands before another whole digit. -/
structure Plain (t : NumberText) : Prop where
  whole : ∀ c ∈ t.whole, c.isDigit = true
  fraction : ∀ c ∈ t.fraction, c.isDigit = true
  nonempty : t.whole ≠ []
  lead : t.whole = ['0'] ∨ t.whole.head? ≠ some '0'

/-- What follows a number does not go on with it. -/
def Ends (rest : List Char) : Prop :=
  ∀ c ∈ rest.head?, c.isDigit = false ∧ c ≠ '.' ∧ c ≠ 'e' ∧ c ≠ 'E'

/-! ### Scanning the parts -/

/-- No digit stands at the front. -/
def NoDigit (rest : List Char) : Prop := ∀ c ∈ rest.head?, c.isDigit = false

/-- What ends a number has no digit at the front. -/
theorem Ends.noDigit {rest : List Char} (h : Ends rest) : NoDigit rest := fun c hc => (h c hc).1

/-- A character that is no digit at the front. -/
theorem noDigit_cons {c : Char} {rest : List Char} (h : c.isDigit = false) :
    NoDigit (c :: rest) := by
  intro c' hc'
  obtain rfl : c = c' := by simpa using hc'
  exact h

/-- Digits are scanned up to the first other character. -/
theorem scanDigits_append {cs rest : List Char} (hcs : ∀ c ∈ cs, c.isDigit = true)
    (hrest : NoDigit rest) : scanDigits (cs ++ rest) = (values cs, rest) := by
  have htake : (cs ++ rest).takeWhile Char.isDigit = cs := by
    rw [List.takeWhile_append_of_pos hcs]
    cases rest with
    | nil => simp
    | cons c rest => simp [hrest c (by simp)]
  have hdrop : (cs ++ rest).dropWhile Char.isDigit = rest := by
    rw [List.dropWhile_append_of_pos hcs]
    cases rest with
    | nil => simp
    | cons c rest => simp [hrest c (by simp)]
  rw [scanDigits, htake, hdrop, values]

/-- Digits have values. -/
theorem values_ne_nil {cs : List Char} (h : cs ≠ []) : values cs ≠ [] := by
  simpa [values] using h

/-- A natural is written with digits. -/
theorem isDigit_toDigits {n : Nat} : ∀ c ∈ Nat.toDigits 10 n, c.isDigit = true :=
  fun _ hc => Nat.isDigit_of_mem_toDigits (by decide) (by decide) hc

/-- Folding the values of digits is folding the digits. -/
theorem foldl_values (cs : List Char) (n : Nat) :
    (values cs).foldl (fun n d => n * 10 + d) n = Nat.ofDigitChars 10 cs n := by
  induction cs generalizing n with
  | nil => simp [values]
  | cons c cs ih =>
      rw [Nat.ofDigitChars_cons, ← ih]
      simp only [values, List.map_cons, List.foldl_cons]
      rw [Nat.mul_comm n 10]

/-- The values of digits give the natural that they show. -/
theorem natOfDigits_values (cs : List Char) : natOfDigits (values cs) = natOfChars cs :=
  foldl_values cs 0

/-- The fraction that was written is scanned, if no digit follows. -/
theorem scanFraction_append {cs rest : List Char} (hcs : ∀ c ∈ cs, c.isDigit = true)
    (hdot : ∀ r, rest ≠ '.' :: r) (hrest : NoDigit rest) :
    scanFraction (fractionChars cs ++ rest) =
      some (if cs = [] then none else some (values cs), rest) := by
  by_cases hnil : cs = []
  · simp only [hnil, fractionChars, ↓reduceIte, List.nil_append]
    unfold scanFraction
    split
    · exact absurd rfl (hdot _)
    · rfl
  · obtain ⟨d, ds, hds⟩ := List.exists_cons_of_ne_nil (values_ne_nil hnil)
    simp only [fractionChars, hnil, ↓reduceIte, List.cons_append, scanFraction]
    rw [scanDigits_append hcs hrest, hds]

/-- The power that was written is scanned, if nothing goes on with it. -/
theorem scanPower_append {rest : List Char} (power? : Option Int) (hrest : Ends rest) :
    scanPower (powerChars power? ++ rest) = some (power?, rest) := by
  cases power? with
  | none =>
      cases rest with
      | nil => rfl
      | cons c rest =>
          obtain ⟨-, -, he, hE⟩ := hrest c (by simp)
          simp [powerChars, scanPower, he, hE]
  | some p =>
      have hscan := scanDigits_append (isDigit_toDigits (n := p.natAbs)) hrest.noDigit
      have hval : natOfDigits (values (Nat.toDigits 10 p.natAbs)) = p.natAbs := by
        rw [natOfDigits_values, natOfChars, Nat.ofDigitChars_ten_toDigits]
      obtain ⟨d, ds, hds⟩ := List.exists_cons_of_ne_nil
        (values_ne_nil (Nat.toDigits_ne_nil (n := p.natAbs) (b := 10)))
      rw [hds] at hscan hval
      by_cases hp : p < 0
      · simp only [powerChars, hp, List.cons_append, scanPower, ↓reduceIte, true_or, hscan, hval]
        congr 3
        omega
      · simp only [powerChars, hp, List.cons_append, scanPower, ↓reduceIte, true_or, hscan, hval,
          Bool.false_eq_true]
        congr 3
        omega

/-- After a power, or without one, no digit and no point stands. -/
theorem powerChars_start {rest : List Char} (power? : Option Int) (hrest : Ends rest) :
    NoDigit (powerChars power? ++ rest) ∧ ∀ r, powerChars power? ++ rest ≠ '.' :: r := by
  cases power? with
  | none =>
      refine ⟨hrest.noDigit, ?_⟩
      rintro r h
      have hr : rest = '.' :: r := by simpa [powerChars] using h
      exact (hrest '.' (by simp [hr])).2.1 rfl
  | some p => exact ⟨noDigit_cons (by decide), by simp [powerChars]⟩

/-- Whole digits are followed by a fraction, by a power, or by what follows the number. -/
theorem noDigit_fractionChars {rest : List Char} (fraction : List Char) (hrest : NoDigit rest) :
    NoDigit (fractionChars fraction ++ rest) := by
  by_cases hf : fraction = []
  · simpa [fractionChars, hf] using hrest
  · simpa [fractionChars, hf] using noDigit_cons (by decide)

/-- The digits of a plain text are not a zero before other digits. -/
theorem Plain.values_whole {t : NumberText} (ht : t.Plain) :
    values t.whole ≠ [] ∧ ∀ d ds, values t.whole ≠ 0 :: d :: ds := by
  refine ⟨values_ne_nil ht.nonempty, fun d ds h => ?_⟩
  rcases hw : t.whole with _ | ⟨c, _ | ⟨c', cs⟩⟩
  · exact ht.nonempty hw
  · simp [hw, values] at h
  · have hc := ht.whole c (by simp [hw])
    have hc0 : c.toNat - '0'.toNat = 0 := by
      simp only [hw, values, List.map_cons, List.cons.injEq] at h
      exact h.1
    have hzero : c = '0' := by
      rw [← Char.toNat_inj]
      simp only [Char.isDigit_iff_toNat, Char.reduceToNat] at hc hc0 ⊢
      omega
    rcases ht.lead with h0 | h0
    · simp [hw] at h0
    · exact h0 (by simp [hw, hzero])

/-- **The scanner undoes the form.** A number in the form is scanned as the literal that it writes,
up to where it ends. -/
theorem scanNumber_chars {t : NumberText} (ht : t.Plain) {rest : List Char} (hrest : Ends rest) :
    scanNumber (t.chars ++ rest) = some (t.literal, rest) := by
  obtain ⟨hne, hlead⟩ := ht.values_whole
  obtain ⟨hpno, hpdot⟩ := powerChars_start t.power? hrest
  have hwhole := scanDigits_append ht.whole (noDigit_fractionChars t.fraction hpno)
  have hfraction := scanFraction_append ht.fraction hpdot hpno
  have hpower := scanPower_append t.power? hrest
  have hminus : ∀ r, scanMinus (signChars t.negative ++ (t.whole ++ r)) =
      (t.negative, t.whole ++ r) := by
    intro r
    obtain ⟨c, cs, hcs⟩ := List.exists_cons_of_ne_nil ht.nonempty
    have hc : c ≠ '-' := by
      rintro rfl
      exact absurd (ht.whole '-' (by simp [hcs])) (by decide)
    cases t.negative with
    | true => rfl
    | false => simp [signChars, hcs, scanMinus, hc]
  simp only [chars, List.append_assoc, scanNumber, hminus, hwhole, hfraction, hpower,
    Option.bind_eq_bind, Option.bind_some]
  rfl

/-! ### Laying out decimals -/

/-- The text of a decimal in a layout. -/
def ofDecimal (layout : DecimalLayout) (d : Decimal) : NumberText :=
  let shown := Nat.toDigits 10 d.trim.digits
  let lead : Int := d.trim.exponent + shown.length - 1
  if layout.leastPositional ≤ lead ∧ lead ≤ layout.greatestPositional then
    if 0 ≤ lead then
      { negative := false
        whole := shown.take (lead.toNat + 1) ++
          List.replicate (lead.toNat + 1 - (shown.take (lead.toNat + 1)).length) '0'
        fraction := if (shown.drop (lead.toNat + 1)).isEmpty then ['0']
          else shown.drop (lead.toNat + 1)
        power? := none }
    else
      { negative := false
        whole := ['0']
        fraction := List.replicate ((-lead).toNat - 1) '0' ++ shown
        power? := none }
  else
    { negative := false, whole := shown.take 1, fraction := shown.drop 1, power? := some lead }

/-- A decimal is laid out as the parts of its text. -/
theorem layOut_eq (layout : DecimalLayout) (d : Decimal) :
    d.layOut layout = (ofDecimal layout d).chars := by
  obtain ⟨c, cs, hcs⟩ := List.exists_cons_of_ne_nil
    (Nat.toDigits_ne_nil (n := d.trim.digits) (b := 10))
  rw [Decimal.layOut, ofDecimal]
  simp only
  split
  · split
    · simp only [chars, signChars, fractionChars, powerChars, Bool.false_eq_true, ↓reduceIte,
        List.nil_append, List.append_nil]
      split <;> simp_all
    · simp [chars, signChars, fractionChars, powerChars, hcs]
  · rw [hcs]
    cases cs with
    | nil => simp [chars, signChars, fractionChars, powerChars]
    | cons c' cs => simp [chars, signChars, fractionChars, powerChars]

/-- The first digit of a natural is a zero only for zero. -/
theorem head?_toDigits_ne {n : Nat} (hn : n ≠ 0) : (Nat.toDigits 10 n).head? ≠ some '0' := by
  induction n using Nat.strongRecOn with
  | ind n ih =>
      rw [Nat.toDigits_eq_if (by decide)]
      split
      · rw [List.head?_cons, ne_eq, Option.some.injEq, Nat.digitChar_eq_zero]
        exact hn
      · rw [List.head?_append, Option.or_of_isSome (by simp [List.isSome_head?])]
        exact ih (n / 10) (by omega) (by omega)

/-- The zeros at the end of a natural are zeros of its size, too. -/
theorem pow_trailing_le {n : Nat} (hn : n ≠ 0) :
    Nat.pow 10 ((Nat.toDigits 10 n).reverse.takeWhile (· = '0')).length ≤ n := by
  induction n using Nat.strongRecOn with
  | ind n ih =>
      rw [Nat.toDigits_eq_if (by decide)]
      split
      · simp [hn]
        omega
      · have ih := ih (n / 10) (by omega) (by omega)
        by_cases h0 : n % 10 = 0
        · simp only [List.reverse_append, List.reverse_cons, List.reverse_nil, List.nil_append,
            List.cons_append, List.takeWhile_cons, Nat.digitChar_eq_zero, h0, decide_true,
            ↓reduceIte, List.length_cons, Nat.pow_eq, Nat.pow_succ]
          rw [Nat.pow_eq] at ih
          omega
        · simp [h0]
          omega

/-- Trimming a decimal other than zero leaves digits. -/
theorem trim_digits_ne_zero {d : Decimal} (hd : d.digits ≠ 0) : d.trim.digits ≠ 0 := by
  have hpos := Nat.div_pos (pow_trailing_le hd) (Nat.pow_pos (by decide))
  simp only [Decimal.trim, hd, ↓reduceIte]
  exact Nat.ne_of_gt hpos

/-- The text of a decimal is in the form, and its value is made of digits alone. -/
theorem plain_ofDecimal (layout : DecimalLayout) {d : Decimal} (hd : d.digits ≠ 0) :
    (ofDecimal layout d).Plain := by
  have hdigit := isDigit_toDigits (n := d.trim.digits)
  have hhead := head?_toDigits_ne (trim_digits_ne_zero hd)
  obtain ⟨c, cs, hcs⟩ := List.exists_cons_of_ne_nil
    (Nat.toDigits_ne_nil (n := d.trim.digits) (b := 10))
  have hzero : ∀ n, ∀ c ∈ List.replicate n '0', c.isDigit = true := by
    intro n c hc
    rw [List.eq_of_mem_replicate hc]
    decide
  unfold ofDecimal
  simp only
  split
  · split
    · refine ⟨?_, ?_, ?_, .inr ?_⟩
      · intro c hc
        rcases List.mem_append.mp hc with hc | hc
        · exact hdigit c (List.mem_of_mem_take hc)
        · exact hzero _ c hc
      · intro c hc
        simp only at hc
        split at hc
        · obtain rfl : c = '0' := by simpa using hc
          decide
        · exact hdigit c (List.mem_of_mem_drop hc)
      · simp [hcs]
      · simpa [hcs] using hhead
    · refine ⟨by simp, ?_, by simp, .inl rfl⟩
      intro c hc
      rcases List.mem_append.mp hc with hc | hc
      · exact hzero _ c hc
      · exact hdigit c hc
  · refine ⟨fun c hc => hdigit c (List.mem_of_mem_take hc),
      fun c hc => hdigit c (List.mem_of_mem_drop hc), by simp [hcs], .inr ?_⟩
    simpa [hcs] using hhead

/-! ### Numbers -/

/-- The shortest decimal of a value other than zero has digits, unless none was found. -/
theorem shortest_cases (x : Binary64) :
    x.shortest = ⟨0, 0⟩ ∨
      ((Binary64.rounding x).holds x.shortest.digits x.shortest.exponent = true) := by
  unfold Binary64.shortest
  cases h : (List.range 17).findSome? fun i => x.neighbour? (i + 1) with
  | none => exact .inl rfl
  | some d =>
      obtain ⟨i, -, hi⟩ := List.exists_of_findSome?_eq_some h
      refine .inr ?_
      simp only [Option.getD_some]
      unfold Binary64.neighbour? at hi
      simp only at hi
      split at hi
      · simp at hi
      · obtain rfl := Option.some.inj hi
        assumption
      · obtain rfl := Option.some.inj hi
        assumption
      · split at hi
        · obtain rfl := Option.some.inj hi
          assumption
        · obtain rfl := Option.some.inj hi
          assumption

/-- The text of a binary64 value in a layout. -/
def ofBinary64 (layout : DecimalLayout) (x : Binary64) : NumberText :=
  if x.mantissa = 0 ∨ x.shortest.digits = 0 then
    { negative := x.negative, whole := ['0'], fraction := ['0'], power? := none }
  else { ofDecimal layout x.shortest with negative := x.negative }

/-- The text of a number. -/
def ofNumber : Number → NumberText
  | .whole i =>
    { negative := i < 0, whole := Nat.toDigits 10 i.natAbs, fraction := [], power? := none }
  | .real x => ofBinary64 .json x

/-- A whole number is written as its sign and its digits. -/
theorem toList_toString_int (i : Int) :
    (toString i).toList = signChars (i < 0) ++ Nat.toDigits 10 i.natAbs := by
  rw [Int.toString_eq_repr, Int.repr_eq_if]
  split
  · have h : ¬ i < 0 := by omega
    have hnat : i.toNat = i.natAbs := by omega
    simp [h, signChars, hnat]
  · have h : i < 0 := by omega
    have hnat : (-i).toNat = i.natAbs := by omega
    simp [h, signChars, hnat]

/-- Scaling by a power of two keeps positive naturals positive. -/
theorem scaleByTwo_pos {num den : Nat} (e : Int) (hnum : 0 < num) (hden : 0 < den) :
    0 < (Binary64.scaleByTwo num den e).1 ∧ 0 < (Binary64.scaleByTwo num den e).2 := by
  unfold Binary64.scaleByTwo
  split
  · exact ⟨Nat.mul_pos hnum (Nat.pow_pos (by decide)), hden⟩
  · exact ⟨hnum, Nat.mul_pos hden (Nat.pow_pos (by decide))⟩

/-- No decimal zero rounds to a value other than zero. -/
theorem holds_ne_zero {x : Binary64} {d : Nat} {p : Int} (hx : x.mantissa ≠ 0)
    (h : (Binary64.rounding x).holds d p = true) : d ≠ 0 := by
  rintro rfl
  have hlo : 0 < (Binary64.rounding x).lo := (scaleByTwo_pos x.exponent (by split <;> omega)
    (by decide : 0 < 4)).1
  have hscale : (Binary64.scaleByTen 0 1 p).1 = 0 ∧ 0 < (Binary64.scaleByTen 0 1 p).2 := by
    unfold Binary64.scaleByTen
    split
    · exact ⟨Nat.zero_mul _, Nat.one_pos⟩
    · exact ⟨rfl, Nat.mul_pos Nat.one_pos (Nat.pow_pos (by decide))⟩
  have hbelow := Nat.mul_pos hlo hscale.2
  unfold Binary64.Interval.holds at h
  simp only [hscale.1, Nat.zero_mul] at h
  split at h
  · simp only [Bool.and_eq_true, decide_eq_true_eq] at h
    omega
  · simp only [Bool.and_eq_true, decide_eq_true_eq] at h
    omega

/-- Without digits, there is no shortest decimal at all. -/
theorem shortest_eq_zero {x : Binary64} (hx : x.mantissa ≠ 0) (hd : x.shortest.digits = 0) :
    x.shortest = ⟨0, 0⟩ := by
  rcases shortest_cases x with h | h
  · exact h
  · exact absurd hd (holds_ne_zero hx h)

/-- **Every number is written in the form.** -/
theorem numberText_eq (n : Number) : Json.numberText n = (ofNumber n).chars := by
  cases n with
  | whole i =>
      rw [Json.numberText, toList_toString_int]
      simp [ofNumber, chars, fractionChars, powerChars]
  | real x =>
      simp only [Json.numberText, ofNumber, ofBinary64, Binary64.text]
      by_cases hm : x.mantissa = 0
      · cases x.negative <;> simp [hm, chars, signChars, fractionChars, powerChars]
      · by_cases hd : x.shortest.digits = 0
        · have hzero : Decimal.layOut .json ⟨0, 0⟩ = ['0', '.', '0'] := by decide
          cases x.negative <;>
            simp [hm, shortest_eq_zero hm hd, hzero, chars, signChars, fractionChars, powerChars]
        · simp only [hm, hd, or_self, ↓reduceIte, layOut_eq]
          have hsign : (ofDecimal .json x.shortest).negative = false := by
            unfold ofDecimal
            simp only
            split
            · split <;> rfl
            · rfl
          cases x.negative <;> simp [chars, signChars, hsign]

/-- The text of a number has plain parts. -/
theorem plain_ofNumber (n : Number) : (ofNumber n).Plain := by
  cases n with
  | whole i =>
      refine ⟨isDigit_toDigits, by simp [ofNumber], by simp [ofNumber], ?_⟩
      by_cases hi : i = 0
      · exact .inl (by simp [ofNumber, hi])
      · exact .inr (head?_toDigits_ne (by omega))
  | real x =>
      simp only [ofNumber, ofBinary64]
      split
      · exact ⟨by simp, by simp, by simp, .inl rfl⟩
      · rename_i h
        obtain ⟨-, hd⟩ := not_or.mp h
        obtain ⟨hwhole, hfraction, hne, hlead⟩ := plain_ofDecimal .json hd
        exact ⟨hwhole, hfraction, hne, hlead⟩

end NumberText

/-- What the text of a number denotes. -/
def Number.scanned? (n : Number) : Option Number := (NumberText.ofNumber n).literal.number?

end ClusterSnapshot
