import Mathlib.Data.List.Basic
import MarkdownNodes.Proofs.Text.Address

/-! Percent decoding. An escape is a percent sign with two hexadecimal digits behind it, and stands for a
byte; every other byte stands for itself. Encoding never makes or breaks an escape that was there before,
so that an address and what is encoded of it denote the same bytes. -/

namespace MarkdownNodes.Text.Url

/-- The bytes of a text in UTF-8. -/
def utf8 (s : String) : List UInt8 := s.toUTF8.data.toList

/-- The value of a byte that is a hexadecimal digit. -/
def digit? (b : UInt8) : Option Nat := hexValue? (Char.ofUInt8 b)

/-- The byte that an escape at the front stands for. -/
def escape? : List UInt8 → Option UInt8
  | mark :: hi :: lo :: _ =>
      if mark = '%'.toUInt8 then
        match digit? hi, digit? lo with
        | some h, some l => some (UInt8.ofNat (16 * h + l))
        | _, _ => none
      else none
  | _ => none

/-- The bytes with every escape replaced by the byte it stands for, from left to right. -/
def percentDecode : List UInt8 → List UInt8
  | [] => []
  | b :: rest =>
      match escape? (b :: rest) with
      | some byte => byte :: percentDecode (rest.drop 2)
      | none => b :: percentDecode rest
termination_by bs => bs.length

/-- A byte that stands for itself in an address, as a kept character. -/
def isKeptByte (b : UInt8) : Bool := isKept (Char.ofUInt8 b)

/-- A byte in an address: itself if it is kept, otherwise the bytes of its percent form. -/
def encodeByte (b : UInt8) : List UInt8 :=
  if isKeptByte b then [b] else (percentByte b).flatMap String.utf8EncodeChar

/-! ### Encoding byte by byte -/

theorem utf8_ofList (cs : List Char) : utf8 (String.ofList cs) = cs.flatMap String.utf8EncodeChar := by
  rw [utf8, String.toUTF8_eq_toByteArray, String.toByteArray_ofList, List.utf8Encode,
    List.toList_data_toByteArray]

theorem utf8EncodeChar_of_lt {c : Char} (h : c.toNat < 128) : String.utf8EncodeChar c = [c.toUInt8] := by
  rw [String.utf8EncodeChar, if_pos (by exact Nat.le_of_lt_succ h)]
  rfl

theorem toNat_ofUInt8 (b : UInt8) : (Char.ofUInt8 b).toNat = b.toNat := rfl

theorem ofUInt8_toUInt8 {c : Char} (h : c.toNat < 128) : Char.ofUInt8 c.toUInt8 = c := by
  apply Char.toNat_inj.mp
  have hbyte : c.toUInt8.toNat = c.toNat % 256 := UInt32.toNat_toUInt8 c.val
  rw [toNat_ofUInt8, hbyte, Nat.mod_eq_of_lt (by omega)]

/-- The bytes of a character beyond ASCII are all beyond ASCII. -/
theorem le_of_mem_utf8EncodeChar {c : Char} (h : 128 ≤ c.toNat) {b : UInt8} (hb : b ∈ String.utf8EncodeChar c) :
    128 ≤ b.toNat := by
  have hlarge : ∀ n, 128 ≤ n % 256 → 128 ≤ (UInt8.ofNat n).toNat := fun n hn => by
    rwa [UInt8.toNat_ofNat']
  have hsmall : ¬ c.val.toNat ≤ 127 := Nat.not_le.mpr h
  rw [String.utf8EncodeChar, if_neg hsmall] at hb
  split at hb
  case isTrue =>
    simp only [List.mem_cons, List.not_mem_nil, or_false] at hb
    rcases hb with rfl | rfl <;> exact hlarge _ (by omega)
  case isFalse =>
    split at hb
    case isTrue =>
      simp only [List.mem_cons, List.not_mem_nil, or_false] at hb
      rcases hb with rfl | rfl | rfl <;> exact hlarge _ (by omega)
    case isFalse =>
      simp only [List.mem_cons, List.not_mem_nil, or_false] at hb
      rcases hb with rfl | rfl | rfl | rfl <;> exact hlarge _ (by omega)

/-- The bytes of a character are kept if it is. -/
theorem isKeptByte_of_mem {c : Char} {b : UInt8} (hb : b ∈ String.utf8EncodeChar c) :
    isKeptByte b = isKept c := by
  rw [isKeptByte]
  by_cases h : c.toNat < 128
  · rw [utf8EncodeChar_of_lt h, List.mem_singleton] at hb
    rw [hb, ofUInt8_toUInt8 h]
  · have hbyte : 128 ≤ (Char.ofUInt8 b).toNat := le_of_mem_utf8EncodeChar (Nat.not_lt.mp h) hb
    have hnone : ∀ d : Char, 128 ≤ d.toNat → isKept d = false := fun d hd =>
      Bool.eq_false_iff.mpr fun hkept => absurd (toNat_lt_of_isKept hkept) (Nat.not_lt.mpr hd)
    rw [hnone _ hbyte, hnone c (Nat.not_lt.mp h)]

/-- A character is encoded by encoding its bytes. -/
theorem utf8_percentChar (c : Char) :
    (percentChar c).flatMap String.utf8EncodeChar = (String.utf8EncodeChar c).flatMap encodeByte := by
  rw [percentChar]
  split
  case isTrue hkept =>
    have hbyte : ∀ b ∈ String.utf8EncodeChar c, encodeByte b = [b] := fun b hb =>
      if_pos ((isKeptByte_of_mem hb).trans hkept)
    rw [List.flatMap_congr hbyte, List.flatMap_singleton', List.flatMap_singleton]
  case isFalse hkept =>
    have hbyte : ∀ b ∈ String.utf8EncodeChar c,
        encodeByte b = (percentByte b).flatMap String.utf8EncodeChar := fun b hb =>
      if_neg ((isKeptByte_of_mem hb).symm ▸ hkept)
    rw [List.flatMap_congr hbyte, List.flatMap_assoc]

theorem utf8_percentEncode (cs : List Char) :
    (percentEncode cs).flatMap String.utf8EncodeChar = (cs.flatMap String.utf8EncodeChar).flatMap encodeByte := by
  rw [percentEncode, List.flatMap_assoc, List.flatMap_assoc]
  exact List.flatMap_congr fun c _ => utf8_percentChar c

/-! ### Escapes -/

theorem isKeptByte_of_digit? {b : UInt8} {n : Nat} (h : digit? b = some n) : isKeptByte b = true := by
  have hall : ∀ n < 256, (hexValue? (Char.ofNat n)).isSome = true → isKept (Char.ofNat n) = true := by
    decide +kernel
  have hb := hall (Char.ofUInt8 b).toNat b.toNat_lt
  rw [Char.ofNat_toNat] at hb
  exact hb (Option.isSome_of_eq_some h)

theorem digit?_percent : digit? '%'.toUInt8 = none := by decide

theorem digit?_hexDigit {n : Nat} (h : n < 16) : digit? (hexDigit n).toUInt8 = some n := by
  have hall : ∀ n < 16, digit? (hexDigit n).toUInt8 = some n := by decide +kernel
  exact hall n h

theorem isKeptByte_percent : isKeptByte '%'.toUInt8 = true := by decide

theorem hexDigit_toNat_lt {n : Nat} (h : n < 16) : (hexDigit n).toNat < 128 :=
  toNat_lt_of_isKept (isKept_hexDigit h)

/-- The percent form of a byte is an escape of it. -/
theorem utf8_percentByte (b : UInt8) : (percentByte b).flatMap String.utf8EncodeChar =
    ['%'.toUInt8, (hexDigit (b.toNat / 16)).toUInt8, (hexDigit (b.toNat % 16)).toUInt8] := by
  have hb : b.toNat < 256 := b.toNat_lt
  rw [percentByte, List.flatMap_cons, List.flatMap_cons, List.flatMap_singleton,
    utf8EncodeChar_of_lt (by decide), utf8EncodeChar_of_lt (hexDigit_toNat_lt (by omega)),
    utf8EncodeChar_of_lt (hexDigit_toNat_lt (by omega))]
  rfl

theorem escape?_percentByte (b : UInt8) (rest : List UInt8) :
    escape? ('%'.toUInt8 :: (hexDigit (b.toNat / 16)).toUInt8 :: (hexDigit (b.toNat % 16)).toUInt8 :: rest) =
      some b := by
  have hb : b.toNat < 256 := b.toNat_lt
  rw [escape?, if_pos rfl, digit?_hexDigit (by omega), digit?_hexDigit (by omega)]
  simp only [Option.some.injEq]
  rw [Nat.div_add_mod, UInt8.ofNat_toNat]

theorem digit?_eq_none {b : UInt8} (h : ¬ isKeptByte b = true) : digit? b = none := by
  cases hb : digit? b with
  | none => rfl
  | some n => exact absurd (isKeptByte_of_digit? hb) h

theorem encodeByte_of_kept {b : UInt8} (h : isKeptByte b = true) : encodeByte b = [b] := if_pos h

theorem encodeByte_of_not_kept {b : UInt8} (h : ¬ isKeptByte b = true) : encodeByte b =
    ['%'.toUInt8, (hexDigit (b.toNat / 16)).toUInt8, (hexDigit (b.toNat % 16)).toUInt8] := by
  rw [encodeByte, if_neg h, utf8_percentByte]

theorem escape?_of_ne {b : UInt8} (h : b ≠ '%'.toUInt8) (rest : List UInt8) : escape? (b :: rest) = none := by
  rcases rest with _ | ⟨hi, _ | ⟨lo, rest⟩⟩
  · rfl
  · rfl
  · rw [escape?, if_neg h]

theorem escape?_of_first {mark hi : UInt8} (h : digit? hi = none) (rest : List UInt8) :
    escape? (mark :: hi :: rest) = none := by
  cases rest with
  | nil => rfl
  | cons lo rest => simp [escape?, h]

theorem escape?_of_second {mark hi lo : UInt8} (h : digit? lo = none) (rest : List UInt8) :
    escape? (mark :: hi :: lo :: rest) = none := by
  cases hhi : digit? hi <;> simp [escape?, h, hhi]

/-- The bytes of an escape are kept characters, all three. -/
theorem exists_of_escape? {mark byte : UInt8} {rest : List UInt8} (h : escape? (mark :: rest) = some byte) :
    ∃ hi lo tail, rest = hi :: lo :: tail ∧ isKeptByte mark = true ∧
      isKeptByte hi = true ∧ isKeptByte lo = true := by
  rcases rest with _ | ⟨hi, _ | ⟨lo, tail⟩⟩
  · cases h
  · cases h
  · by_cases hmark : mark = '%'.toUInt8
    · refine ⟨hi, lo, tail, rfl, hmark ▸ isKeptByte_percent, ?_, ?_⟩
      · by_contra hhi
        rw [escape?_of_first (digit?_eq_none hhi)] at h
        cases h
      · by_contra hlo
        rw [escape?_of_second (digit?_eq_none hlo)] at h
        cases h
    · rw [escape?_of_ne hmark] at h
      cases h

/-- Behind a percent sign, encoding what follows neither makes nor breaks an escape: a byte that is not
kept is no digit, and the percent sign that its percent form begins with is none either. -/
theorem escape?_percent_encode (rest : List UInt8) :
    escape? ('%'.toUInt8 :: rest.flatMap encodeByte) = escape? ('%'.toUInt8 :: rest) := by
  cases rest with
  | nil => rfl
  | cons hi rest =>
      rw [List.flatMap_cons]
      by_cases hhi : isKeptByte hi = true
      · rw [encodeByte_of_kept hhi, List.singleton_append]
        cases rest with
        | nil => rfl
        | cons lo rest =>
            rw [List.flatMap_cons]
            by_cases hlo : isKeptByte lo = true
            · rw [encodeByte_of_kept hlo, List.singleton_append]
              rfl
            · rw [encodeByte_of_not_kept hlo, escape?_of_second (digit?_eq_none hlo)]
              exact escape?_of_second digit?_percent _
      · rw [encodeByte_of_not_kept hhi, escape?_of_first (digit?_eq_none hhi)]
        exact escape?_of_first digit?_percent _

/-! ### Decoding -/

theorem percentDecode_of_escape {b byte : UInt8} {rest : List UInt8} (h : escape? (b :: rest) = some byte) :
    percentDecode (b :: rest) = byte :: percentDecode (rest.drop 2) := by
  rw [percentDecode, h]

theorem percentDecode_of_no_escape {b : UInt8} {rest : List UInt8} (h : escape? (b :: rest) = none) :
    percentDecode (b :: rest) = b :: percentDecode rest := by
  rw [percentDecode, h]

/-- Encoding the bytes changes nothing of what they denote. -/
theorem percentDecode_encode (bs : List UInt8) : percentDecode (bs.flatMap encodeByte) = percentDecode bs := by
  fun_induction percentDecode bs with
  | case1 => rw [List.flatMap_nil, percentDecode]
  | case2 b rest byte hescape ih =>
      -- An escape is kept as it is.
      obtain ⟨hi, lo, tail, rfl, hb, hhi, hlo⟩ := exists_of_escape? hescape
      have hsame : escape? (b :: hi :: lo :: tail.flatMap encodeByte) = some byte := hescape
      rw [List.flatMap_cons, List.flatMap_cons, List.flatMap_cons, encodeByte_of_kept hb,
        encodeByte_of_kept hhi, encodeByte_of_kept hlo]
      exact (percentDecode_of_escape hsame).trans (congrArg (byte :: ·) ih)
  | case3 b rest hescape ih =>
      rw [List.flatMap_cons]
      by_cases hb : isKeptByte b = true
      · -- No escape begins here, and none does after the encoding.
        have hnone : escape? (b :: rest.flatMap encodeByte) = none := by
          by_cases hpercent : b = '%'.toUInt8
          · subst hpercent
            rw [escape?_percent_encode, hescape]
          · exact escape?_of_ne hpercent _
        rw [encodeByte_of_kept hb, List.singleton_append, percentDecode_of_no_escape hnone, ih]
      · rw [encodeByte_of_not_kept hb]
        exact (percentDecode_of_escape (escape?_percentByte b _)).trans (congrArg (b :: ·) ih)

/-- Cleaning an address does not change what it denotes: decoding gives the same bytes as before, whatever
escapes, beginnings of escapes and other percent signs the address has. -/
theorem percentDecode_clean {href url : String} (h : clean href = some url) :
    percentDecode (utf8 url) = percentDecode (utf8 href) := by
  rw [clean] at h
  split at h
  case isTrue => cases h
  case isFalse =>
    obtain rfl : String.ofList (percentEncode href.toList) = url := Option.some.inj h
    have hhref : utf8 href = href.toList.flatMap String.utf8EncodeChar := by
      rw [← utf8_ofList, String.ofList_toList]
    rw [utf8_ofList, utf8_percentEncode, percentDecode_encode, hhref]

/-- An escape, a beginning of one, and percent signs in front of characters that are encoded. -/
theorem percentDecode_clean_of_stray_signs :
    ∃ url, clean "%41%4\u00e9%\u20ac%%20 %zz%" = some url ∧
      percentDecode (utf8 url) = percentDecode (utf8 "%41%4\u00e9%\u20ac%%20 %zz%") := by
  have hclean : clean "%41%4\u00e9%\u20ac%%20 %zz%" = some "%41%4%C3%A9%%E2%82%AC%%20%20%zz%" := by
    decide +kernel
  exact ⟨_, hclean, percentDecode_clean hclean⟩

example : percentDecode (utf8 "%41%4\u00e9%%20") = [0x41, 0x25, 0x34, 0xC3, 0xA9, 0x25, 0x20] := by
  decide +kernel

end MarkdownNodes.Text.Url
