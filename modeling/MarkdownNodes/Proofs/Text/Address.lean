import MarkdownNodes.Text.Url

/-! What cleaning makes of an address. Only characters that may stand in an address are left of it, and
neither the address that goes in nor the one that comes out is one that a browser would run. Such an
address is clean: cleaning it again changes nothing. -/

namespace MarkdownNodes.Text.Url

/-- The characters that an address may consist of: those that have no percent form, and the percent
sign. -/
def uriChars : List Char :=
  "ABCDEFGHIJKLMNOPQRSTUVWXYZabcdefghijklmnopqrstuvwxyz0123456789-_.!~*'();,/?:@&=+$#%".toList

/-- The schemes that a browser runs script for, or opens a document that the address itself contains. -/
def dangerousSchemes : List String := ["javascript:", "vbscript:", "data:"]

/-- An address as a browser reads it: tabs and line ends are deleted wherever they stand, and then every
character up to the space is dropped in front. -/
def asBrowsed (cs : List Char) : List Char :=
  (cs.filter fun c => c ∉ ['\t', '\n', '\r']).dropWhile fun c => c.toNat ≤ 0x20

/-- As a browser reads it, the address begins with a dangerous scheme, in any ASCII case. -/
def ScriptAddress (cs : List Char) : Prop :=
  ∃ scheme ∈ dangerousSchemes, scheme.toList <+: (asBrowsed cs).map Char.toLower

instance (cs : List Char) : Decidable (ScriptAddress cs) :=
  inferInstanceAs (Decidable (∃ scheme ∈ dangerousSchemes, scheme.toList <+: (asBrowsed cs).map Char.toLower))

/-! ### What is refused, and what a browser runs -/

theorem scriptSchemes_eq : scriptSchemes = dangerousSchemes.map String.toList := rfl

/-- The scheme is looked for where a browser looks. -/
theorem schemeText_eq_asBrowsed (cs : List Char) : schemeText cs = asBrowsed cs := by
  have hdeleted : ∀ c : Char, (!(c == '\t' || c == '\n' || c == '\r')) = decide (c ∉ ['\t', '\n', '\r']) := by
    intro c
    rw [Bool.eq_iff_iff]
    simp [and_assoc]
  have hdropped : ∀ c : Char, decide (c ≤ ' ') = decide (c.toNat ≤ 0x20) := fun c =>
    decide_eq_decide.mpr UInt32.le_iff_toNat_le
  simp only [schemeText, asBrowsed, hdeleted, hdropped]

theorem scriptAddress_iff (cs : List Char) :
    ScriptAddress cs ↔ ∃ scheme ∈ scriptSchemes, scheme <+: (schemeText cs).map Char.toLower := by
  rw [ScriptAddress, scriptSchemes_eq, schemeText_eq_asBrowsed]
  constructor
  · rintro ⟨scheme, hscheme, hbegins⟩
    exact ⟨_, List.mem_map_of_mem hscheme, hbegins⟩
  · rintro ⟨_, hmem, hbegins⟩
    obtain ⟨scheme, hscheme, rfl⟩ := List.mem_map.mp hmem
    exact ⟨scheme, hscheme, hbegins⟩

/-! ### The characters of a clean address -/

theorem toNat_lt_of_isAlphanum {c : Char} (h : c.isAlphanum = true) : c.toNat < 128 := by
  have hranges : (decide (c.val ≥ 'A'.val ∧ c.val ≤ 'Z'.val) ||
      (decide (c.val ≥ 'a'.val) && decide (c.val ≤ 'z'.val)) ||
      (decide (c.val ≥ '0'.val) && decide (c.val ≤ '9'.val))) = true := h
  simp only [Bool.or_eq_true, Bool.and_eq_true, decide_eq_true_eq, UInt32.le_iff_toNat_le] at hranges
  have hval : c.toNat = c.val.toNat := rfl
  have hZ : 'Z'.val.toNat = 90 := rfl
  have hz : 'z'.val.toNat = 122 := rfl
  have hnine : '9'.val.toNat = 57 := rfl
  omega

theorem toNat_lt_of_isKept {c : Char} (h : isKept c = true) : c.toNat < 128 := by
  rw [isKept, Bool.or_eq_true] at h
  rcases h with h | h
  · exact toNat_lt_of_isAlphanum h
  · have hmarks : ∀ c ∈ keptMarks, c.toNat < 128 := by simp [keptMarks]
    exact hmarks c (List.contains_iff_mem.mp h)

theorem mem_uriChars_of_isKept {c : Char} (h : isKept c = true) : c ∈ uriChars := by
  have hascii : ∀ n < 128, isKept (Char.ofNat n) = true → Char.ofNat n ∈ uriChars := by decide +kernel
  have hmem := hascii c.toNat (toNat_lt_of_isKept h)
  rw [Char.ofNat_toNat] at hmem
  exact hmem h

theorem isKept_of_mem_uriChars {c : Char} (h : c ∈ uriChars) : isKept c = true := by
  have hall : uriChars.all isKept = true := by decide +kernel
  exact List.all_eq_true.mp hall c h

/-- What may stand in an address is encoded by leaving it as it is. -/
theorem percentEncode_of_uriChars {cs : List Char} (h : ∀ c ∈ cs, c ∈ uriChars) : percentEncode cs = cs := by
  induction cs with
  | nil => rfl
  | cons c cs ih =>
      have hc : percentChar c = [c] := if_pos (isKept_of_mem_uriChars (h c List.mem_cons_self))
      rw [percentEncode, List.flatMap_cons, hc, ← percentEncode, ih fun d hd => h d (List.mem_cons_of_mem c hd),
        List.singleton_append]

theorem isKept_hexDigit {n : Nat} (h : n < 16) : isKept (hexDigit n) = true := by
  have hall : ∀ n < 16, isKept (hexDigit n) = true := by decide +kernel
  exact hall n h

theorem mem_uriChars_of_mem_percentByte {b : UInt8} {c : Char} (h : c ∈ percentByte b) : c ∈ uriChars := by
  have hb : b.toNat < 256 := b.toNat_lt
  simp only [percentByte, List.mem_cons, List.not_mem_nil, or_false] at h
  apply mem_uriChars_of_isKept
  rcases h with rfl | rfl | rfl
  · decide
  · exact isKept_hexDigit (by omega)
  · exact isKept_hexDigit (by omega)

theorem mem_uriChars_of_mem_percentEncode {cs : List Char} {c : Char} (h : c ∈ percentEncode cs) :
    c ∈ uriChars := by
  obtain ⟨d, _, hc⟩ := List.mem_flatMap.mp h
  rw [percentChar] at hc
  split at hc
  case isTrue hkept => exact List.mem_singleton.mp hc ▸ mem_uriChars_of_isKept hkept
  case isFalse =>
    obtain ⟨b, _, hb⟩ := List.mem_flatMap.mp hc
    exact mem_uriChars_of_mem_percentByte hb

/-! ### The scheme of a clean address -/

/-- Characters that a browser does not drop in front of a scheme, nor anywhere else. -/
def Plain (cs : List Char) : Prop := ∀ c ∈ cs, ' ' < c

theorem plain_of_uriChars {cs : List Char} (h : ∀ c ∈ cs, c ∈ uriChars) : Plain cs := by
  have hascii : ∀ n < 128, isKept (Char.ofNat n) = true → ' ' < Char.ofNat n := by decide +kernel
  intro c hc
  have hkept := isKept_of_mem_uriChars (h c hc)
  have hlt := hascii c.toNat (toNat_lt_of_isKept hkept)
  rw [Char.ofNat_toNat] at hlt
  exact hlt hkept

/-- A plain beginning stays the beginning. -/
theorem prefix_schemeText {letters cs : List Char} (hplain : Plain letters) (h : letters <+: cs) :
    letters <+: schemeText cs := by
  obtain ⟨rest, rfl⟩ := h
  have hkeep : ∀ c ∈ letters, (!(c == '\t' || c == '\n' || c == '\r')) = true := by
    intro c hc
    have hlt := hplain c hc
    have hdrop : ∀ d ∈ ['\t', '\n', '\r'], ¬ ' ' < d := by simp
    have hne : c ∉ ['\t', '\n', '\r'] := fun hmem => hdrop c hmem hlt
    simpa [and_assoc] using hne
  rw [schemeText, List.filter_append, List.filter_eq_self.mpr hkeep]
  cases letters with
  | nil => exact List.nil_prefix
  | cons c letters =>
      have hc : ¬ c ≤ ' ' := Char.not_le.mpr (hplain c List.mem_cons_self)
      rw [List.cons_append, List.dropWhile_cons_of_neg (by simpa using hc)]
      exact List.prefix_append (c :: letters) _

theorem schemeText_of_plain {cs : List Char} (h : Plain cs) : schemeText cs = cs := by
  have hshorter : (schemeText cs).length ≤ cs.length :=
    ((List.dropWhile_sublist _).trans List.filter_sublist).length_le
  exact ((prefix_schemeText h List.prefix_rfl).eq_of_length_le hshorter).symm

/-- Letters without a percent sign that begin the encoded address begin the address itself. -/
theorem prefix_of_prefix_percentEncode {letters cs : List Char} (hpercent : '%' ∉ letters)
    (h : letters <+: percentEncode cs) : letters <+: cs := by
  induction cs generalizing letters with
  | nil => exact h
  | cons c cs ih =>
      cases letters with
      | nil => exact List.nil_prefix
      | cons letter letters =>
          rw [percentEncode, List.flatMap_cons, percentChar] at h
          split at h
          case isTrue hkept =>
            obtain ⟨rfl, hrest⟩ := List.cons_prefix_cons.mp h
            exact List.cons_prefix_cons.mpr ⟨rfl, ih (fun hmem => hpercent (List.mem_cons_of_mem _ hmem)) hrest⟩
          case isFalse =>
            obtain ⟨b, bs, hbytes⟩ := List.exists_cons_of_ne_nil (String.utf8EncodeChar_ne_nil (c := c))
            rw [hbytes] at h
            have hhead := (List.cons_prefix_cons.mp h).1
            exact absurd (hhead ▸ List.mem_cons_self) hpercent

/-- The encoded address runs script only if the address does. -/
theorem scriptAddress_of_percentEncode {cs : List Char} (h : ScriptAddress (percentEncode cs)) :
    ScriptAddress cs := by
  obtain ⟨scheme, hscheme, hbegins⟩ := (scriptAddress_iff _).mp h
  have huri : ∀ c ∈ percentEncode cs, c ∈ uriChars := fun c => mem_uriChars_of_mem_percentEncode
  rw [schemeText_of_plain (plain_of_uriChars huri)] at hbegins
  obtain ⟨letters, hletters, rfl⟩ := List.prefix_map_iff.mp hbegins
  have hpercent : '%' ∉ letters := by
    have hnone : ∀ scheme ∈ scriptSchemes, '%' ∉ scheme := by decide
    exact fun hmem => hnone _ hscheme (List.mem_map_of_mem (f := Char.toLower) hmem)
  have hplain : Plain letters := plain_of_uriChars fun c hc => huri c (hletters.subset hc)
  have hraw := prefix_schemeText hplain (prefix_of_prefix_percentEncode hpercent hletters)
  exact (scriptAddress_iff cs).mpr ⟨_, hscheme, hraw.map Char.toLower⟩

/-! ### Cleaning -/

theorem beginsWith_of_prefix {letters cs : List Char} (h : letters <+: cs.map Char.toLower) :
    beginsWith letters cs = true := by
  induction letters generalizing cs with
  | nil => rw [beginsWith]
  | cons letter letters ih =>
      cases cs with
      | nil => exact absurd (List.prefix_nil.mp h) (List.cons_ne_nil letter letters)
      | cons c cs =>
          obtain ⟨rfl, hrest⟩ := List.cons_prefix_cons.mp h
          simp [beginsWith, sameLetter, ih hrest]

theorem runsScript_of_scriptAddress {cs : List Char} (h : ScriptAddress cs) : runsScript cs = true := by
  obtain ⟨scheme, hscheme, hbegins⟩ := (scriptAddress_iff cs).mp h
  exact List.any_eq_true.mpr ⟨scheme, hscheme, beginsWith_of_prefix hbegins⟩

/-- The long s apart, letters that begin a text regardless of case begin it in lower case. -/
theorem prefix_of_beginsWith {letters cs : List Char} (hlong : '\u017f' ∉ cs)
    (h : beginsWith letters cs = true) : letters <+: cs.map Char.toLower := by
  induction letters generalizing cs with
  | nil => exact List.nil_prefix
  | cons letter letters ih =>
      cases cs with
      | nil => cases h
      | cons c cs =>
          rw [List.mem_cons, not_or] at hlong
          have hc : (c == '\u017f') = false := beq_eq_false_iff_ne.mpr (Ne.symm hlong.1)
          simp only [beginsWith, sameLetter, hc, Bool.and_false, Bool.or_false, Bool.and_eq_true,
            beq_iff_eq] at h
          exact List.cons_prefix_cons.mpr ⟨h.1.symm, ih hlong.2 h.2⟩

/-- Among addresses of characters that may stand in one, the refused ones are those that run script. -/
theorem scriptAddress_of_runsScript {cs : List Char} (huri : ∀ c ∈ cs, c ∈ uriChars)
    (h : runsScript cs = true) : ScriptAddress cs := by
  obtain ⟨scheme, hscheme, hbegins⟩ := List.any_eq_true.mp h
  have hlong : '\u017f' ∉ schemeText cs := by
    intro hmem
    rw [schemeText_of_plain (plain_of_uriChars huri)] at hmem
    exact absurd (isKept_of_mem_uriChars (huri _ hmem)) (by decide)
  exact (scriptAddress_iff cs).mpr ⟨scheme, hscheme, prefix_of_beginsWith hlong hbegins⟩

theorem runsScript_eq_false {cs : List Char} (huri : ∀ c ∈ cs, c ∈ uriChars) (hsafe : ¬ ScriptAddress cs) :
    runsScript cs = false :=
  Bool.eq_false_iff.mpr fun h => hsafe (scriptAddress_of_runsScript huri h)

/-- An address that runs script is refused. -/
theorem clean_of_scriptAddress {href : String} (h : ScriptAddress href.toList) : clean href = none := by
  rw [clean, if_pos (runsScript_of_scriptAddress h)]

/-- What cleaning makes of an address consists of characters that may stand in one, and does not run
script. -/
theorem clean_eq_some {href url : String} (h : clean href = some url) :
    (∀ c ∈ url.toList, c ∈ uriChars) ∧ ¬ ScriptAddress url.toList := by
  rw [clean] at h
  split at h
  case isTrue => cases h
  case isFalse hsafe =>
    cases h
    rw [String.toList_ofList]
    exact ⟨fun c => mem_uriChars_of_mem_percentEncode,
      fun hscript => hsafe (runsScript_of_scriptAddress (scriptAddress_of_percentEncode hscript))⟩

/-- The addresses that cleaning leaves as they are: those that are clean in both respects. -/
theorem clean_eq_some_self_iff (url : String) :
    clean url = some url ↔ (∀ c ∈ url.toList, c ∈ uriChars) ∧ ¬ ScriptAddress url.toList := by
  constructor
  · exact clean_eq_some
  · rintro ⟨huri, hsafe⟩
    rw [clean, runsScript_eq_false huri hsafe, if_neg Bool.false_ne_true, percentEncode_of_uriChars huri,
      String.ofList_toList]

/-- Cleaning is idempotent. The scheme of a cleaned address is not refused, although the scheme that was
looked at before stood in a text that was not encoded, and encoding the address again changes nothing. -/
theorem clean_clean {href url : String} (h : clean href = some url) :
    runsScript url.toList = false ∧ percentEncode url.toList = url.toList ∧ clean url = some url := by
  obtain ⟨huri, hsafe⟩ := clean_eq_some h
  exact ⟨runsScript_eq_false huri hsafe, percentEncode_of_uriChars huri,
    (clean_eq_some_self_iff url).mpr ⟨huri, hsafe⟩⟩

/-- A scheme with a control character and a long s in it, and percent signs that begin no escape. -/
theorem clean_clean_of_almost_script :
    ∃ url, clean "java\u0001\u017fcript:%\t%4\u00e9" = some url ∧
      runsScript url.toList = false ∧ percentEncode url.toList = url.toList ∧ clean url = some url := by
  have hclean : clean "java\u0001\u017fcript:%\t%4\u00e9" = some "java%01%C5%BFcript:%%09%4%C3%A9" := by
    decide +kernel
  exact ⟨_, hclean, clean_clean hclean⟩

end MarkdownNodes.Text.Url
