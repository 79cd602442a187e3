import Mathlib.Data.List.Basic
import Mathlib.Data.List.Induction
import MarkdownNodes.Proofs.Json.Grammar

/-! What the reader makes of digits. The decimal digits of an integer are added up to the integer of which they
are the numeral, and the text of a number is that of an integer just if this is its value. Hexadecimal digits give
the unit that they are the digits of, and the two halves of a surrogate pair the character that has them. -/

namespace MarkdownNodes.Json

/-! ### Decimal numerals -/

namespace Number

theorem append_toDigits (n : Nat) : append 0 (Nat.toDigits 10 n) = n :=
  Nat.ofDigitChars_toDigits (by decide) (by decide)

theorem append_concat (ds : List Char) (d : Char) : append 0 (ds ++ [d]) = 10 * append 0 ds + (d.toNat - 48) := by
  rw [append, List.foldl_append]
  rfl

/-- A digit is the numeral of its own value. -/
theorem toDigits_of_isDigit {d : Char} (h : d.isDigit = true) :
    d.toNat - 48 < 10 ∧ Nat.toDigits 10 (d.toNat - 48) = [d] := by
  have hrange : 48 ≤ d.toNat ∧ d.toNat ≤ 57 := by
    simp only [Char.isDigit, Bool.and_eq_true, decide_eq_true_eq, ge_iff_le, UInt32.le_iff_toNat_le] at h
    exact h
  have hvalue : d.toNat - 48 < 10 := by omega
  have hchar : (d.toNat - 48).digitChar = d := by
    apply Char.toNat_inj.mp
    rw [Nat.toNat_digitChar_of_lt_ten hvalue]
    omega
  exact ⟨hvalue, by rw [Nat.toDigits_of_lt_base hvalue, hchar]⟩

/-- Digits are the numeral of what they add up to, unless there is a zero in front of others: by induction from the
last digit. -/
theorem toDigits_append {ds : List Char} (h : Whole ds) : Nat.toDigits 10 (append 0 ds) = ds := by
  induction ds using List.reverseRecOn with
  | nil => exact absurd rfl h.ne_nil
  | append_singleton ds d ih =>
      obtain ⟨hvalue, hlast⟩ := toDigits_of_isDigit (h.all d (by simp))
      rw [append_concat]
      by_cases hds : ds = []
      · rw [hds]
        simpa [append] using hlast
      · have hzero : ds.head? ≠ some '0' := by
          intro hhead
          have halone := h.zero_alone (by rw [List.head?_append_of_ne_nil ds hds, hhead])
          simp [List.append_eq_singleton_iff, hds] at halone
        have hwhole : Whole ds :=
          ⟨⟨hds, fun c hc => h.all c (List.mem_append_left [d] hc)⟩, fun hhead => absurd hhead hzero⟩
        have hnumeral := ih hwhole
        have hpos : 0 < append 0 ds := by
          refine Nat.pos_of_ne_zero fun heq => hzero ?_
          rw [← hnumeral, heq]
          rfl
        calc Nat.toDigits 10 (10 * append 0 ds + (d.toNat - 48))
            = Nat.toDigits 10 (append 0 ds) ++ Nat.toDigits 10 (d.toNat - 48) :=
              (Nat.toDigits_append_toDigits (by decide) hpos hvalue).symm
          _ = ds ++ [d] := by rw [hnumeral, hlast]

/-- A numeral has no zero in front of other digits: by induction on the number, which loses its last digit. -/
theorem whole_toDigits (n : Nat) : Whole (Nat.toDigits 10 n) where
  ne_nil := Nat.toDigits_ne_nil
  all _ hd := Nat.isDigit_of_mem_toDigits (by decide) (by decide) hd
  zero_alone := by
    induction n using Nat.strongRecOn with
    | ind n ih =>
        intro hhead
        by_cases hlt : n < 10
        · rw [Nat.toDigits_of_lt_base hlt] at hhead ⊢
          rw [Option.some.inj hhead]
        · have hten : 10 ≤ n := Nat.le_of_not_lt hlt
          rw [Nat.toDigits_of_base_le (by decide) hten, List.head?_append_of_ne_nil _ Nat.toDigits_ne_nil] at hhead
          have hfront := ih (n / 10) (by omega) hhead
          have hvalue := append_toDigits (n / 10)
          rw [hfront] at hvalue
          have hzero : append 0 ['0'] = 0 := rfl
          omega

/-! ### Numbers that are integers -/

theorem value_natural {n : Nat} (hfits : n < 0x10000000000000000) :
    ({ negative := false, whole := Nat.toDigits 10 n, fraction := none, exponent := none } : Parts).value =
      some (.int n) := by
  have hsize : n < UInt64.size := hfits
  simp [Parts.value, append_toDigits, hsize]

theorem value_negative {n : Nat} (hpos : 0 < n) (hfits : n ≤ 0x8000000000000000) :
    ({ negative := true, whole := Nat.toDigits 10 n, fraction := none, exponent := none } : Parts).value =
      some (.int (-n)) := by
  have hsize : n ≤ UInt64.size / 2 := hfits
  simp [Parts.value, append_toDigits, hpos, hsize]

theorem eq_of_value_int {p : Parts} {n : Int} (h : p.value = some (.int n)) :
    p.fraction = none ∧ p.exponent = none ∧
      (p.negative = false ∧ append 0 p.whole < 0x10000000000000000 ∧ n = append 0 p.whole ∨
        p.negative = true ∧ 0 < append 0 p.whole ∧ append 0 p.whole ≤ 0x8000000000000000 ∧
          n = -append 0 p.whole) := by
  simp only [Parts.value] at h
  split at h
  case isTrue hnatural =>
    simp only [Bool.and_eq_true, Option.isNone_iff_eq_none, Bool.not_eq_true', decide_eq_true_eq] at hnatural
    obtain ⟨⟨⟨hfraction, hexponent⟩, hsign⟩, hfits⟩ := hnatural
    cases h
    exact ⟨hfraction, hexponent, .inl ⟨hsign, hfits, rfl⟩⟩
  case isFalse =>
    split at h
    case isTrue hnegative =>
      simp only [Bool.and_eq_true, Option.isNone_iff_eq_none, decide_eq_true_eq] at hnegative
      obtain ⟨⟨⟨⟨hfraction, hexponent⟩, hsign⟩, hpos⟩, hfits⟩ := hnegative
      cases h
      exact ⟨hfraction, hexponent, .inr ⟨hsign, hpos, hfits, rfl⟩⟩
    case isFalse =>
      obtain ⟨x, -, hx⟩ := Option.map_eq_some_iff.mp h
      cases hx

/-- Every number that is no integer is a floating point number, if it is in range. -/
theorem value_eq_of_ne_int {p : Parts} (h : ∀ n, p.value ≠ some (.int n)) :
    p.value = p.magnitude.map fun x => .float (if p.negative then -x else x) := by
  simp only [Parts.value] at h ⊢
  split
  case isTrue hnatural => exact absurd (if_pos hnatural) (h _)
  case isFalse hnatural =>
    split
    case isTrue hnegative => exact absurd ((if_neg hnatural).trans (if_pos hnegative)) (h _)
    case isFalse => rfl

theorem fraction_of_digits {fraction : Option (List Char)} {fs : List Char} (h : Fraction fraction fs)
    (hdigits : ∀ c ∈ fs, c.isDigit = true) : fraction = none ∧ fs = [] := by
  cases h with
  | absent => exact ⟨rfl, rfl⟩
  | given h => exact absurd (hdigits '.' List.mem_cons_self) (by decide)

theorem exponent_of_digits {exponent : Option (Bool × List Char)} {es : List Char} (h : Exponent exponent es)
    (hdigits : ∀ c ∈ es, c.isDigit = true) : exponent = none ∧ es = [] := by
  have hletter : ∀ {e : Char} {ds : List Char}, e = 'e' ∨ e = 'E' → ¬ ∀ c ∈ e :: ds, c.isDigit = true := by
    rintro e ds (rfl | rfl) hall <;> exact absurd (hall _ List.mem_cons_self) (by decide)
  cases h with
  | absent => exact ⟨rfl, rfl⟩
  | bare he h => exact absurd hdigits (hletter he)
  | plus he h => exact absurd hdigits (hletter he)
  | minus he h => exact absurd hdigits (hletter he)

/-- A text of digits alone is that of a number without point and exponent. -/
theorem eq_of_digits {p : Parts} {cs : List Char} (h : Unsigned p cs) (hdigits : ∀ c ∈ cs, c.isDigit = true) :
    p = { negative := p.negative, whole := cs, fraction := none, exponent := none } := by
  cases h with
  | @parts fs es hwhole hfraction hexponent =>
      simp only [List.forall_mem_append] at hdigits
      obtain ⟨-, hfs, hes⟩ := hdigits
      obtain ⟨hfraction, rfl⟩ := fraction_of_digits hfraction hfs
      obtain ⟨hexponent, rfl⟩ := exponent_of_digits hexponent hes
      rcases p with ⟨negative, whole, fraction, exponent⟩
      cases hfraction
      cases hexponent
      simp

/-- The digits of a number without point and exponent are the numeral of what they add up to. -/
theorem toDigits_of_unsigned {p : Parts} {cs : List Char} (h : Unsigned p cs) (hfraction : p.fraction = none)
    (hexponent : p.exponent = none) : cs = Nat.toDigits 10 (append 0 p.whole) := by
  cases h with
  | @parts fs es hwhole hfs hes =>
      rw [hfraction] at hfs
      rw [hexponent] at hes
      cases hfs
      cases hes
      rw [toDigits_append hwhole, List.append_nil, List.append_nil]

end Number

/-- The text of an integer is cut into a sign and digits, of which the reader makes the integer. -/
theorem IntText.exists_parts {n : Int} {cs : List Char} (h : IntText n cs) :
    ∃ p, Number.Text p cs ∧ p.value = some (.int n) := by
  have hunsigned : ∀ negative n, Number.Unsigned ⟨negative, Nat.toDigits 10 n, none, none⟩ (Nat.toDigits 10 n) := by
    intro negative n
    have hparts := Number.Unsigned.parts (p := ⟨negative, Nat.toDigits 10 n, none, none⟩) (Number.whole_toDigits n)
      .absent .absent
    simpa using hparts
  cases h with
  | natural hfits => exact ⟨_, .positive rfl (hunsigned false _), Number.value_natural hfits⟩
  | negative hpos hfits => exact ⟨_, .negative rfl (hunsigned true _), Number.value_negative hpos hfits⟩

/-- However the text of an integer is cut into parts, the reader makes the integer of them. -/
theorem IntText.value_eq {p : Number.Parts} {cs : List Char} (h : Number.Text p cs) {n : Int} (hint : IntText n cs) :
    p.value = some (.int n) := by
  cases hint with
  | @natural n hfits =>
      have hdigits : ∀ c ∈ Nat.toDigits 10 n, c.isDigit = true := (Number.whole_toDigits n).all
      generalize hcs : Nat.toDigits 10 n = cs at h hdigits
      cases h with
      | positive hsign h => rw [Number.eq_of_digits h hdigits, hsign, ← hcs, Number.value_natural hfits]
      | negative hsign h => exact absurd (hdigits '-' List.mem_cons_self) (by decide)
  | @negative n hpos hfits =>
      have hdigits : ∀ c ∈ Nat.toDigits 10 n, c.isDigit = true := (Number.whole_toDigits n).all
      generalize hcs : '-' :: Nat.toDigits 10 n = cs at h
      cases h with
      | positive hsign h =>
          obtain ⟨d, ds, rfl, hd⟩ := Number.head_unsigned h
          cases hcs
          cases hd
      | negative hsign h =>
          cases hcs
          rw [Number.eq_of_digits h hdigits, hsign, Number.value_negative hpos hfits]

theorem intText_of_value_eq {p : Number.Parts} {cs : List Char} (h : Number.Text p cs) {n : Int}
    (hvalue : p.value = some (.int n)) : IntText n cs := by
  obtain ⟨hfraction, hexponent, hcases⟩ := Number.eq_of_value_int hvalue
  rcases hcases with ⟨hnegative, hfits, rfl⟩ | ⟨hnegative, hpos, hfits, rfl⟩
  · cases h with
    | negative hsign h => exact Bool.noConfusion (hnegative.symm.trans hsign)
    | positive hsign h =>
        rw [Number.toDigits_of_unsigned h hfraction hexponent]
        exact .natural hfits
  · cases h with
    | positive hsign h => exact Bool.noConfusion (hsign.symm.trans hnegative)
    | negative hsign h =>
        rw [Number.toDigits_of_unsigned h hfraction hexponent]
        exact .negative hpos hfits

/-- The texts of a number are cut into parts of which the reader makes the number. -/
theorem numberText_iff {v : Json} {cs : List Char} : NumberText v cs ↔ ∃ p, Number.Text p cs ∧ p.value = some v := by
  constructor
  · intro h
    cases h with
    | int h => exact h.exists_parts
    | @float p x cs h hint hvalue =>
        refine ⟨p, h, ?_⟩
        rw [Number.value_eq_of_ne_int fun n hn => hint n (intText_of_value_eq h hn), hvalue, Option.map_some]
  · rintro ⟨p, h, hvalue⟩
    by_cases hint : ∃ n, p.value = some (.int n)
    · obtain ⟨n, hn⟩ := hint
      cases hvalue.symm.trans hn
      exact .int (intText_of_value_eq h hn)
    · have hne : ∀ n, p.value ≠ some (.int n) := not_exists.mp hint
      rw [Number.value_eq_of_ne_int hne] at hvalue
      obtain ⟨x, hx, rfl⟩ := Option.map_eq_some_iff.mp hvalue
      exact .float h (fun n hn => hne n (hn.value_eq h)) hx

/-! ### Escapes -/

theorem letterEscape?_eq_some_iff {letter c : Char} : letterEscape? letter = some c ↔ (letter, c) ∈ letterEscapes := by
  constructor
  · intro h
    unfold letterEscape? at h
    split at h <;> cases h <;> simp [letterEscapes]
  · intro h
    have hall : ∀ escape ∈ letterEscapes, letterEscape? escape.1 = some escape.2 := by decide
    exact hall _ h

theorem HexDigit.lt {n : Nat} {c : Char} (h : HexDigit n c) : n < 16 := by
  have hsixteen : ∀ digits ∈ hexDigits, digits.toList.length = 16 := by decide
  obtain ⟨digits, hdigits, hc⟩ := h
  rw [← hsixteen digits hdigits]
  exact (List.getElem?_eq_some_iff.mp hc).1

theorem hexValue?_eq_some_iff {c : Char} {n : Nat} : Text.hexValue? c = some n ↔ HexDigit n c := by
  constructor
  · intro h
    have hascii : ∀ k < 128, ∀ n ∈ Text.hexValue? (Char.ofNat k), HexDigit n (Char.ofNat k) := by decide +kernel
    have hbelow : ∀ {d : Char}, d.toNat < 128 → c ≤ d → c.toNat < 128 := fun hd hle =>
      Nat.lt_of_le_of_lt (UInt32.le_iff_toNat_le.mp hle) hd
    have hlt : c.toNat < 128 := by
      unfold Text.hexValue? at h
      split at h
      case isTrue hin => exact hbelow (by decide) hin.2
      split at h
      case isTrue hin => exact hbelow (by decide) hin.2
      split at h
      case isTrue hin => exact hbelow (by decide) hin.2
      case isFalse => cases h
    have hc := hascii c.toNat hlt
    rw [Char.ofNat_toNat] at hc
    exact hc n h
  · intro h
    have hall : ∀ n < 16, ∀ digits ∈ hexDigits,
        (digits.toList[n]?.all fun c => Text.hexValue? c == some n) = true := by decide
    have hlt : n < 16 := h.lt
    obtain ⟨digits, hdigits, hc⟩ := h
    have hfound := hall n hlt digits hdigits
    rw [hc] at hfound
    exact eq_of_beq hfound

theorem hexUnit?_eq_some_iff {a b c d : Char} {unit : Nat} :
    hexUnit? a b c d = some unit ↔ UnitText unit [a, b, c, d] := by
  simp only [hexUnit?, Option.bind_eq_bind, Option.bind_eq_some_iff, hexValue?_eq_some_iff, Option.some.injEq]
  constructor
  · rintro ⟨i, ha, j, hb, k, hc, l, hd, rfl⟩
    exact .digits ha hb hc hd (by omega)
  · rintro ⟨ha, hb, hc, hd, rfl⟩
    exact ⟨_, ha, _, hb, _, hc, _, hd, by omega⟩

/-- The text of a unit is read as the unit. -/
theorem UnitText.exists_read {unit : Nat} {us : List Char} (h : UnitText unit us) :
    ∃ a b c d, us = [a, b, c, d] ∧ hexUnit? a b c d = some unit := by
  obtain ⟨ha, hb, hc, hd, hunit⟩ := h
  exact ⟨_, _, _, _, rfl, hexUnit?_eq_some_iff.mpr (.digits ha hb hc hd hunit)⟩

theorem UnitText.lt {unit : Nat} {cs : List Char} (h : UnitText unit cs) : unit < 0x10000 := by
  obtain ⟨ha, hb, hc, hd, rfl⟩ := h
  have hi := ha.lt
  have hj := hb.lt
  have hk := hc.lt
  have hl := hd.lt
  omega

theorem isLeading_iff {unit : Nat} : isLeading unit = true ↔ 0xD800 ≤ unit ∧ unit < 0xDC00 := by
  rw [isLeading, Bool.and_eq_true, decide_eq_true_eq, decide_eq_true_eq]

theorem isTrailing_iff {unit : Nat} : isTrailing unit = true ↔ 0xDC00 ≤ unit ∧ unit < 0xE000 := by
  rw [isTrailing, Bool.and_eq_true, decide_eq_true_eq, decide_eq_true_eq]

theorem toNat_ofNat_of_valid {n : Nat} (h : n.isValidChar) : (Char.ofNat n).toNat = n :=
  congrArg Char.toNat (dif_pos h)

/-- A unit that is no half of a surrogate pair is a character. -/
theorem toNat_ofNat_of_unit {unit : Nat} (hleading : ¬ isLeading unit = true) (htrailing : ¬ isTrailing unit = true)
    (h : unit < 0x10000) : (Char.ofNat unit).toNat = unit := by
  rw [isLeading_iff] at hleading
  rw [isTrailing_iff] at htrailing
  have hvalid : unit < 0xD800 ∨ 0xDFFF < unit ∧ unit < 0x110000 := by omega
  exact toNat_ofNat_of_valid hvalid

/-- A character is no half of a surrogate pair. -/
theorem not_half (c : Char) : isLeading c.toNat = false ∧ isTrailing c.toNat = false := by
  have hvalid : c.toNat < 0xD800 ∨ 0xDFFF < c.toNat ∧ c.toNat < 0x110000 := c.valid
  rw [Bool.eq_false_iff, Bool.eq_false_iff, ne_eq, ne_eq, isLeading_iff, isTrailing_iff]
  omega

/-- The halves of a surrogate pair are told apart. -/
theorem half_of_wide {c : Char} (h : 0x10000 ≤ c.toNat) :
    isLeading (leadingHalf c) = true ∧ isTrailing (leadingHalf c) = false ∧ isTrailing (trailingHalf c) = true := by
  have hvalid : c.toNat < 0xD800 ∨ 0xDFFF < c.toNat ∧ c.toNat < 0x110000 := c.valid
  have hleading : 0xD800 ≤ leadingHalf c ∧ leadingHalf c < 0xDC00 := by
    rw [leadingHalf]
    omega
  have htrailing : 0xDC00 ≤ trailingHalf c ∧ trailingHalf c < 0xE000 := by
    rw [trailingHalf]
    omega
  rw [Bool.eq_false_iff, ne_eq, isLeading_iff, isTrailing_iff, isTrailing_iff]
  exact ⟨hleading, fun h => Nat.not_le_of_lt hleading.2 h.1, htrailing⟩

/-- The two halves make up the character. -/
theorem pairChar_halves {c : Char} (h : 0x10000 ≤ c.toNat) : pairChar (leadingHalf c) (trailingHalf c) = c := by
  have hsum : (leadingHalf c - 0xD800) * 0x400 + (trailingHalf c - 0xDC00) + 0x10000 = c.toNat := by
    rw [leadingHalf, trailingHalf]
    omega
  rw [pairChar, hsum, Char.ofNat_toNat]

/-- Two halves are those of the character that they make up. -/
theorem halves_pairChar {leading trailing : Nat} (hleading : isLeading leading = true)
    (htrailing : isTrailing trailing = true) : 0x10000 ≤ (pairChar leading trailing).toNat ∧
      leadingHalf (pairChar leading trailing) = leading ∧ trailingHalf (pairChar leading trailing) = trailing := by
  rw [isLeading_iff] at hleading
  rw [isTrailing_iff] at htrailing
  have hvalid : ((leading - 0xD800) * 0x400 + (trailing - 0xDC00) + 0x10000).isValidChar := .inr (by omega)
  have hchar : (pairChar leading trailing).toNat = (leading - 0xD800) * 0x400 + (trailing - 0xDC00) + 0x10000 := by
    rw [pairChar, toNat_ofNat_of_valid hvalid]
  rw [leadingHalf, trailingHalf, hchar]
  omega

end MarkdownNodes.Json
