import MarkdownNodes.Proofs.Node.Html

/-! The elements that are written without content. HTML compares the names of elements without regard to the case
of ASCII letters, and the writer lower-cases them in full. The two agree on every tag but `link` and `track` with a
Kelvin sign for their last letter: HTML keeps no such element empty, and yet its content is left out. -/

namespace MarkdownNodes.Node

/-- A tag in the lower case of ASCII letters, as HTML compares it. -/
def asciiLower (tag : String) : List Char := tag.toList.map Char.toLower

/-- The names of the elements that HTML keeps empty. -/
def voidNames : List String :=
  ["area", "base", "br", "col", "embed", "hr", "img", "input", "link", "meta", "param", "source", "track", "wbr"]

/-- The tag names an element that HTML keeps empty, in whatever case its ASCII letters are. -/
def isVoid (tag : String) : Bool := (voidNames.map String.toList).contains (asciiLower tag)

/-- The tags that only full lower case takes for ones of elements that are kept empty. -/
def kelvinTags : List (List Char) := ["lin\u212a", "trac\u212a"].map String.toList

/-- What full lower case makes of a character that is no capital ASCII letter, as far as ASCII letters can tell. -/
def lowerKelvin (c : Char) : Char := if c = '\u212a' then 'k' else c

theorem lt_of_mem_emptyTags {w : List Char} (h : w ∈ emptyTags) {c : Char} (hc : c ∈ w) : c.toNat < 128 := by
  have hall : (emptyTags.all fun w => w.all fun c => decide (c.toNat < 128)) = true := by decide
  simpa using List.all_eq_true.mp (List.all_eq_true.mp hall w h) c hc

theorem toLower_eq_kelvin_iff {c : Char} : c.toLower = '\u212a' ↔ c = '\u212a' := by
  by_cases hcapital : c.val ≥ 'A'.val ∧ c.val ≤ 'Z'.val
  · have hle : c.val.toNat ≤ 90 := UInt32.le_iff_toNat_le.mp hcapital.2
    have hlower : c.toLower.toNat = (c.val.toNat + 32) % 2 ^ 32 := congrArg Char.toNat (dif_pos hcapital)
    have hkelvin : '\u212a'.toNat = 8490 := rfl
    refine iff_of_false (fun h => ?_) (fun h => ?_)
    · rw [h] at hlower
      omega
    · have hval : c.val.toNat = 8490 := congrArg Char.toNat h
      omega
  · rw [show c.toLower = c from dif_neg hcapital]

/-- Full lower case is that of ASCII letters, and of the Kelvin sign. -/
theorem lowerChar_eq (c : Char) : lowerChar c = lowerKelvin c.toLower := by
  rw [lowerChar, lowerKelvin]
  by_cases h : c = '\u212a'
  · rw [if_pos h, if_pos (toLower_eq_kelvin_iff.mpr h)]
  · rw [if_neg h, if_neg (mt toLower_eq_kelvin_iff.mp h)]

/-- Where there is no k in lower case, there was no Kelvin sign. -/
theorem eq_of_map_lowerKelvin {l w : List Char} (h : l.map lowerKelvin = w) (hk : 'k' ∉ w) : l = w := by
  have hplain : ∀ c ∈ l, lowerKelvin c = c := by
    intro c hc
    refine if_neg ?_
    rintro rfl
    exact hk (h ▸ List.mem_map_of_mem hc)
  rw [← h, List.map_congr_left hplain, List.map_id']

/-- A k at the end in lower case was one before, or a Kelvin sign. -/
theorem eq_of_map_lowerKelvin_append {l w : List Char} (h : l.map lowerKelvin = w ++ ['k']) (hk : 'k' ∉ w) :
    l = w ++ ['k'] ∨ l = w ++ ['\u212a'] := by
  obtain ⟨front, last, rfl, hfront, hlast⟩ := List.map_eq_append_iff.mp h
  obtain ⟨c, rfl, hc⟩ := List.map_eq_singleton_iff.mp hlast
  rw [eq_of_map_lowerKelvin hfront hk]
  rw [lowerKelvin] at hc
  split at hc
  case isTrue hkelvin => exact .inr (by rw [hkelvin])
  case isFalse => exact .inl (by rw [hc])

/-- The tags of the elements that are written without content, in the lower case of ASCII letters. -/
theorem staysEmpty_iff (tag : String) : staysEmpty tag = true ↔ asciiLower tag ∈ emptyTags ++ kelvinTags := by
  have hmap : tag.toList.map lowerChar = (asciiLower tag).map lowerKelvin := by
    rw [asciiLower, List.map_map]
    exact List.map_congr_left fun c _ => lowerChar_eq c
  have hwords : ∀ w ∈ emptyTags, 'k' ∈ w → w = "lin".toList ++ ['k'] ∨ w = "trac".toList ++ ['k'] := by decide
  have hkept : ∀ w ∈ emptyTags ++ kelvinTags, w.map lowerKelvin ∈ emptyTags := by decide
  rw [staysEmpty, List.contains_iff_mem, hmap]
  refine ⟨fun h => ?_, hkept _⟩
  by_cases hk : 'k' ∈ (asciiLower tag).map lowerKelvin
  · rcases hwords _ h hk with hw | hw <;> rcases eq_of_map_lowerKelvin_append hw (by decide) with hl | hl <;>
      rw [hl] <;> decide
  · exact List.mem_append_left _ (eq_of_map_lowerKelvin rfl hk ▸ h)

/-- The elements that are written without content are those that HTML keeps empty, and two that are taken for them. -/
theorem staysEmpty_iff_isVoid_or (tag : String) :
    staysEmpty tag = true ↔ isVoid tag = true ∨ asciiLower tag ∈ kelvinTags := by
  have hnames : emptyTags = voidNames.map String.toList := rfl
  rw [staysEmpty_iff, List.mem_append, hnames, isVoid, List.contains_iff_mem]

theorem staysEmpty_of_isVoid {tag : String} (h : isVoid tag = true) : staysEmpty tag = true :=
  (staysEmpty_iff_isVoid_or tag).mpr (.inl h)

/-- Where there is no Kelvin sign, the elements that are written without content are those that HTML keeps empty. -/
theorem isVoid_of_staysEmpty {tag : String} (hkelvin : '\u212a' ∉ tag.toList) (h : staysEmpty tag = true) :
    isVoid tag = true := by
  refine ((staysEmpty_iff_isVoid_or tag).mp h).resolve_right fun hmem => ?_
  have hall : ∀ w ∈ kelvinTags, '\u212a' ∈ w := by decide
  obtain ⟨c, hc, hlower⟩ := List.mem_map.mp (hall _ hmem)
  exact hkelvin (toLower_eq_kelvin_iff.mp hlower ▸ hc)

/-! ### Lower case in full -/

/-- What lower case makes of a character, whatever stands around it: an ASCII character has the lower case of ASCII,
the Kelvin sign is a k, and of every other character something stays that is not ASCII. -/
def LowersTo (c : Char) (cs : List Char) : Prop :=
  if c.toNat < 128 then cs = [c.toLower] else if c = '\u212a' then cs = ['k'] else ∃ d ∈ cs, 128 ≤ d.toNat

theorem lowerChar_of_lowersTo {c : Char} {cs : List Char} (h : LowersTo c cs) :
    cs = [lowerChar c] ∨ (∃ d ∈ cs, 128 ≤ d.toNat) ∧ 128 ≤ (lowerChar c).toNat := by
  rw [LowersTo] at h
  split at h
  case isTrue hascii =>
    have hkelvin : c ≠ '\u212a' := by
      rintro rfl
      exact absurd hascii (by decide)
    rw [lowerChar, if_neg hkelvin]
    exact .inl h
  case isFalse hascii =>
    split at h
    case isTrue hkelvin => exact .inl (by rw [h, lowerChar, if_pos hkelvin])
    case isFalse hkelvin =>
      have hcapital : ¬ (c.val ≥ 'A'.val ∧ c.val ≤ 'Z'.val) := by
        rintro ⟨_, hle⟩
        have hle : c.toNat ≤ 90 := UInt32.le_iff_toNat_le.mp hle
        omega
      rw [lowerChar, if_neg hkelvin, show c.toLower = c from dif_neg hcapital]
      exact .inr ⟨h, Nat.le_of_not_lt hascii⟩

/-- Lower case gives the characters that the writer compares, or else both have something that is not ASCII. -/
theorem flatten_of_lowersTo {l : List Char} {parts : List (List Char)} (h : List.Forall₂ LowersTo l parts) :
    parts.flatten = l.map lowerChar ∨
      (∃ d ∈ parts.flatten, 128 ≤ d.toNat) ∧ ∃ d ∈ l.map lowerChar, 128 ≤ d.toNat := by
  induction h with
  | nil => exact .inl rfl
  | @cons c cs l parts hc _ ih =>
      simp only [List.flatten_cons, List.map_cons, List.mem_append, List.mem_cons]
      rcases lowerChar_of_lowersTo hc with hsame | ⟨⟨d, hd, hwide⟩, hwide'⟩
      · rcases ih with ih | ⟨⟨d, hd, hwide⟩, e, he, hwide'⟩
        · exact .inl (by rw [hsame, ih, List.singleton_append])
        · exact .inr ⟨⟨d, .inr hd, hwide⟩, e, .inr he, hwide'⟩
      · exact .inr ⟨⟨d, .inl hd, hwide⟩, lowerChar c, .inl rfl, hwide'⟩

/-- The writer asks whether the tag is, in lower case, that of an element that is kept empty. -/
theorem staysEmpty_iff_of_lowersTo {tag : String} {parts : List (List Char)}
    (h : List.Forall₂ LowersTo tag.toList parts) : staysEmpty tag = true ↔ parts.flatten ∈ emptyTags := by
  have hascii : ∀ {w : List Char}, (∃ d ∈ w, 128 ≤ d.toNat) → w ∉ emptyTags := by
    rintro w ⟨d, hd, hwide⟩ hw
    exact absurd hwide (Nat.not_le_of_lt (lt_of_mem_emptyTags hw hd))
  rw [staysEmpty, List.contains_iff_mem]
  rcases flatten_of_lowersTo h with hsame | ⟨hparts, hlower⟩
  · rw [hsame]
  · exact iff_of_false (hascii hlower) (hascii hparts)

/-- A capital I with a dot is an i with a dot in lower case. -/
example : staysEmpty "l\u0130nk" = false := by decide

/-! ### What is written -/

/-- Behind the start tag of an element stand its content, written as in a fragment, and its end tag. They are left
out if the tag is, but for the case of ASCII letters, that of an element that HTML keeps empty or one of the two that
are taken for it. -/
theorem html_element_unless_empty (tag : String) (attrs : Entries AttrValue) (content : Content Node) :
    html [{ kind := .element tag, attrs := attrs, content := content }] =
      String.ofList (startTag tag attrs) ++
        if isVoid tag ∨ asciiLower tag ∈ kelvinTags then ""
        else html [{ kind := .fragment, content := content }] ++ String.ofList (endTag tag) := by
  have hfragment : htmlCharsOf [{ kind := .fragment, content := content }] = contentHtmlChars content := by
    simp [htmlCharsOf, htmlChars]
  rw [html, htmlCharsOf, htmlCharsOf, htmlChars, List.append_nil, String.ofList_append, html, hfragment]
  simp only [← staysEmpty_iff_isVoid_or]
  split
  · rfl
  · rw [String.ofList_append]

/-- An element that HTML does not keep empty is not always written with its content. -/
theorem kelvin_sign_loses_content :
    ¬ ∀ (tag : String) (attrs : Entries AttrValue) (content : Content Node), isVoid tag = false →
      html [{ kind := .element tag, attrs := attrs, content := content }] =
        String.ofList (startTag tag attrs) ++ (html [{ kind := .fragment, content := content }] ++
          String.ofList (endTag tag)) := by
  intro h
  exact absurd (h "lin\u212a" [] (.text "a") (by decide)) (by decide)

end MarkdownNodes.Node
