import MarkdownNodes.Proofs.Json.Complete
import Mathlib.Data.List.TakeWhile

/-! The reader takes no more than the grammar allows. What it reads from the front of a text is a text of the
value, with no more containers open at a time than there is room for. So the texts of values are those that
the reader accepts, and no text has two values. -/

namespace MarkdownNodes.Json

theorem bind_eq_ok_iff {α β : Type} {x : Except ReadError α} {f : α → Except ReadError β} {b : β} :
    x >>= f = .ok b ↔ ∃ a, x = .ok a ∧ f a = .ok b := by
  cases x with
  | error e => exact iff_of_false nofun nofun
  | ok a => exact ⟨fun h => ⟨a, rfl, h⟩, fun ⟨_, ha, h⟩ => Except.ok.inj ha ▸ h⟩

/-! ### White space -/

theorem mem_of_isWhitespace {c : Char} (h : c.isWhitespace = true) : c ∈ [' ', '\t', '\n', '\r'] := by
  simp only [Char.isWhitespace, Bool.or_eq_true, decide_eq_true_eq] at h
  rcases h with ((rfl | rfl) | rfl) | rfl <;> simp

theorem exists_space (cs : List Char) : ∃ space, IsSpace space ∧ cs = space ++ skipSpace cs :=
  ⟨cs.takeWhile Char.isWhitespace, fun _ hc => mem_of_isWhitespace (List.mem_takeWhile_imp hc),
    List.takeWhile_append_dropWhile.symm⟩

theorem IsSpace.append {space more : List Char} (h : IsSpace space) (hmore : IsSpace more) :
    IsSpace (space ++ more) :=
  fun c hc => (List.mem_append.mp hc).elim (h c) (hmore c)

/-! ### Numbers -/

namespace Number

variable {cs rest : List Char}

theorem digits_sound {ds : List Char} (h : digits cs = .ok (ds, rest)) : Digits ds ∧ cs = ds ++ rest := by
  cases cs with
  | nil => cases h
  | cons c cs =>
      rw [digits] at h
      split at h
      case isFalse => cases h
      case isTrue hc =>
        cases h
        refine ⟨⟨List.cons_ne_nil _ _, List.forall_mem_cons.mpr ⟨hc, fun d hd => List.mem_takeWhile_imp hd⟩⟩, ?_⟩
        rw [List.cons_append, List.takeWhile_append_dropWhile]

theorem wholeDigits_sound {ds : List Char} (h : wholeDigits cs = .ok (ds, rest)) : Whole ds ∧ cs = ds ++ rest := by
  simp only [wholeDigits, bind_eq_ok_iff, Prod.exists] at h
  obtain ⟨ds', rest', hread, h⟩ := h
  obtain ⟨hdigits, hcs⟩ := digits_sound hread
  split at h
  case isTrue => cases h
  case isFalse hzero =>
    cases h
    refine ⟨⟨hdigits, fun hhead => ?_⟩, hcs⟩
    simpa [hhead] using hzero

theorem fractionDigits_sound {fraction : Option (List Char)} (h : fractionDigits cs = .ok (fraction, rest)) :
    ∃ taken, cs = taken ++ rest ∧ Fraction fraction taken := by
  rw [fractionDigits.eq_def] at h
  split at h
  case h_1 cs =>
    simp only [bind_eq_ok_iff, Prod.exists] at h
    obtain ⟨ds, rest', hread, h⟩ := h
    obtain ⟨hdigits, rfl⟩ := digits_sound hread
    cases h
    exact ⟨'.' :: ds, rfl, .given hdigits⟩
  case h_2 =>
    cases h
    exact ⟨[], rfl, .absent⟩

theorem exponentDigits_sound {exponent : Option (Bool × List Char)} (h : exponentDigits cs = .ok (exponent, rest)) :
    ∃ taken, cs = taken ++ rest ∧ Exponent exponent taken := by
  rw [exponentDigits.eq_def] at h
  split at h
  case h_2 =>
    cases h
    exact ⟨[], rfl, .absent⟩
  case h_1 e cs =>
    split at h
    case isFalse =>
      cases h
      exact ⟨[], rfl, .absent⟩
    case isTrue he =>
      have he : e = 'e' ∨ e = 'E' := by simpa using he
      simp only [bind_eq_ok_iff, Prod.exists] at h
      obtain ⟨ds, rest', hread, h⟩ := h
      obtain ⟨hdigits, hcs⟩ := digits_sound hread
      cases h
      split at hcs <;> dsimp only at hcs <;> subst hcs
      case h_1 => exact ⟨e :: '+' :: ds, rfl, .plus he hdigits⟩
      case h_2 => exact ⟨e :: '-' :: ds, rfl, .minus he hdigits⟩
      case h_3 => exact ⟨e :: ds, rfl, .bare he hdigits⟩

theorem unsigned_sound {negative : Bool} {v : Json} (h : unsigned negative cs = .ok (v, rest)) :
    ∃ p taken, p.negative = negative ∧ p.value = some v ∧ Unsigned p taken ∧ cs = taken ++ rest := by
  simp only [unsigned, bind_eq_ok_iff, Prod.exists] at h
  obtain ⟨whole, _, hwhole, fraction, _, hfraction, exponent, _, hexponent, h⟩ := h
  obtain ⟨htextWhole, rfl⟩ := wholeDigits_sound hwhole
  obtain ⟨fs, rfl, htextFraction⟩ := fractionDigits_sound hfraction
  obtain ⟨es, rfl, htextExponent⟩ := exponentDigits_sound hexponent
  split at h
  case h_2 => cases h
  case h_1 hvalue =>
    cases h
    exact ⟨⟨negative, whole, fraction, exponent⟩, _, rfl, hvalue, .parts htextWhole htextFraction htextExponent,
      by simp⟩

end Number

/-! ### Strings -/

theorem exists_of_consChar {c : Char} {read : Except ReadError (List Char × List Char)} {chars rest : List Char}
    (h : consChar c read = .ok (chars, rest)) : ∃ cs, chars = c :: cs ∧ read = .ok (cs, rest) := by
  cases read with
  | error e => cases h
  | ok read =>
      cases h
      exact ⟨read.1, rfl, rfl⟩

/-- The characters of a string are told by their text; the cases are those in which a character is read. -/
theorem stringChars_sound (cs : List Char) : ∀ {chars rest : List Char}, stringChars cs = .ok (chars, rest) →
    ∃ taken, cs = taken ++ '"' :: rest ∧ CharsText chars taken := by
  fun_induction stringChars cs <;> intro chars rest h
  case case2 =>
    cases h
    exact ⟨[], rfl, .nil⟩
  case case9 a b c d leading hleading _ hin a' b' c' d' cs trailing htrailing hin' ih =>
    obtain ⟨chars, rfl, hread⟩ := exists_of_consChar h
    obtain ⟨taken, rfl, htext⟩ := ih hread
    obtain ⟨hwide, hfirst, hsecond⟩ := halves_pairChar hin hin'
    exact ⟨_, rfl, .pair hwide (hfirst ▸ hexUnit?_eq_some_iff.mp hleading) (hsecond ▸ hexUnit?_eq_some_iff.mp htrailing)
      htext⟩
  case case14 a b c d cs unit hread htrailing hleading ih =>
    obtain ⟨chars, rfl, hrest⟩ := exists_of_consChar h
    obtain ⟨taken, rfl, htext⟩ := ih hrest
    have hunit := hexUnit?_eq_some_iff.mp hread
    have hchar := toNat_ofNat_of_unit hleading htrailing hunit.lt
    have hnarrow : (Char.ofNat unit).toNat < 0x10000 := by
      rw [hchar]
      exact hunit.lt
    rw [← hchar] at hunit
    exact ⟨_, rfl, .unit hnarrow hunit htext⟩
  case case16 letter cs _ c hletter ih =>
    obtain ⟨chars, rfl, hread⟩ := exists_of_consChar h
    obtain ⟨taken, rfl, htext⟩ := ih hread
    exact ⟨_, rfl, .letter (letterEscape?_eq_some_iff.mp hletter) htext⟩
  case case19 c cs hquote hslash hcontrol ih =>
    obtain ⟨chars, rfl, hread⟩ := exists_of_consChar h
    obtain ⟨taken, rfl, htext⟩ := ih hread
    exact ⟨_, rfl, .plain (Char.not_lt.mp hcontrol) hquote hslash htext⟩
  all_goals cases h

theorem string_sound {cs rest : List Char} {s : String} (h : string cs = .ok (s, rest)) :
    ∃ chars taken, s = String.ofList chars ∧ cs = taken ++ '"' :: rest ∧ CharsText chars taken := by
  simp only [string, bind_eq_ok_iff, Prod.exists] at h
  obtain ⟨chars, _, hread, h⟩ := h
  cases h
  obtain ⟨taken, rfl, htext⟩ := stringChars_sound cs hread
  exact ⟨chars, taken, rfl, rfl, htext⟩

/-! ### Members -/

section Members

variable {α : Type} {text : α → List Char → Prop} {member : Reader α} {close : Char}

/-- What the reader takes is a text of what it reads, also with white space around it. -/
def Gives (text : α → List Char → Prop) (member : Reader α) : Prop :=
  ∀ cs x rest, member cs = .ok (x, rest) → ∃ taken, cs = taken ++ rest ∧
    ∀ before after, IsSpace before → IsSpace after → text x (before ++ (taken ++ after))

/-- The texts in which, behind a member, the given members follow up to the end of the container, and then the
rest. -/
inductive Later (text : α → List Char → Prop) (close : Char) (rest : List Char) : List α → List Char → Prop where
  | close {space : List Char} (hspace : IsSpace space) : Later text close rest [] (space ++ close :: rest)
  | comma {space : List Char} {xs : List α} {cs : List Char} (hspace : IsSpace space) (h : Separated text xs cs) :
      Later text close rest xs (space ++ ',' :: (cs ++ close :: rest))

/-- A member and those behind it; the white space behind the member is its own. -/
theorem separated_of_later (hmember : Gives text member) {x : α} {xs : List α} {cs after rest : List Char}
    (hread : member cs = .ok (x, after)) (hlater : Later text close rest xs after) {before : List Char}
    (hbefore : IsSpace before) : ∃ taken, before ++ cs = taken ++ close :: rest ∧ Separated text (x :: xs) taken := by
  obtain ⟨taken, rfl, htext⟩ := hmember _ _ _ hread
  cases hlater with
  | @close space hspace =>
      exact ⟨before ++ (taken ++ space), by simp, .one (htext before space hbefore hspace)⟩
  | @comma space xs cs hspace h =>
      exact ⟨before ++ (taken ++ space) ++ ',' :: cs, by simp, .more (htext before space hbefore hspace) h⟩

theorem laterMembers_sound (hmember : Gives text member) (bound : Nat) : ∀ {cs : List Char} {xs : List α}
    {rest : List Char}, laterMembers close member bound cs = .ok (xs, rest) → Later text close rest xs cs := by
  induction bound with
  | zero => nofun
  | succ bound ih =>
      intro cs xs rest h
      obtain ⟨space, hspace, hcs⟩ := exists_space cs
      rw [laterMembers] at h
      split at h
      case h_1 => cases h
      case h_2 c tail hskip =>
        rw [hskip] at hcs
        split at h
        case isTrue hclose =>
          cases h
          rw [hcs, eq_of_beq hclose]
          exact .close hspace
        case isFalse =>
          split at h
          case isFalse => cases h
          case isTrue hcomma =>
            obtain ⟨before, hbefore, htail⟩ := exists_space tail
            split at h
            case h_1 => cases h
            case h_2 first tail' hskip' =>
              rw [hskip'] at htail
              split at h
              case isTrue => cases h
              case isFalse =>
                simp only [bind_eq_ok_iff, Prod.exists] at h
                obtain ⟨x, after, hread, ys, _, hlater, h⟩ := h
                cases h
                obtain ⟨taken, htaken, htext⟩ := separated_of_later hmember hread (ih hlater) hbefore
                rw [hcs, eq_of_beq hcomma, htail, htaken]
                exact .comma hspace htext

/-- The text of the members of a container, up to its end: white space, or the members with commas between. -/
theorem members_sound (hmember : Gives text member) {cs rest : List Char} {xs : List α}
    (h : members close member cs = .ok (xs, rest)) : ∃ taken, cs = taken ++ close :: rest ∧
      (xs = [] ∧ IsSpace taken ∨ Separated text xs taken) := by
  obtain ⟨space, hspace, hcs⟩ := exists_space cs
  rw [members] at h
  split at h
  case h_1 => cases h
  case h_2 c tail hskip =>
    rw [hskip] at hcs
    split at h
    case isTrue hclose =>
      cases h
      exact ⟨space, by rw [hcs, eq_of_beq hclose], Or.inl ⟨rfl, hspace⟩⟩
    case isFalse =>
      simp only [bind_eq_ok_iff, Prod.exists] at h
      obtain ⟨x, after, hread, ys, _, hlater, h⟩ := h
      cases h
      obtain ⟨taken, htaken, htext⟩ :=
        separated_of_later hmember hread (laterMembers_sound hmember _ hlater) hspace
      exact ⟨taken, hcs.trans htaken, Or.inr htext⟩

theorem Separated.and {p : α → Prop} {xs : List α} {cs : List Char}
    (h : Separated (fun x cs => text x cs ∧ p x) xs cs) : Separated text xs cs ∧ ∀ x ∈ xs, p x := by
  induction h with
  | one h => exact ⟨.one h.1, List.forall_mem_singleton.mpr h.2⟩
  | more h hrest ih => exact ⟨.more h.1 ih.1, List.forall_mem_cons.mpr ⟨h.2, ih.2⟩⟩

end Members

/-! ### Values -/

theorem expect_sound {es cs rest : List Char} (h : expect es cs = .ok rest) : cs = es ++ rest := by
  fun_induction expect es cs
  case case1 =>
    cases h
    rfl
  case case3 e es c cs heq ih => rw [eq_of_beq heq, ih h, List.cons_append]
  all_goals cases h

theorem depthOf_le {room : Nat} {vs : List Json} (h : ∀ v ∈ vs, v.depth ≤ room) : depthOf vs ≤ room := by
  induction vs with
  | nil => exact Nat.zero_le room
  | cons v vs ih => exact Nat.max_le.mpr ⟨h v List.mem_cons_self, ih fun w hw => h w (List.mem_cons_of_mem v hw)⟩

theorem depthOfFields_le {room : Nat} {fields : List (String × Json)} (h : ∀ field ∈ fields, field.2.depth ≤ room) :
    depthOfFields fields ≤ room := by
  induction fields with
  | nil => exact Nat.zero_le room
  | cons field fields ih =>
      exact Nat.max_le.mpr ⟨h field List.mem_cons_self, ih fun w hw => h w (List.mem_cons_of_mem field hw)⟩

/-- What the reader takes, behind white space, is a text of the value that it reads, and there is room for the
value. -/
def TakesText (room : Nat) : Prop :=
  ∀ cs v rest, value room cs = .ok (v, rest) →
    ∃ taken, skipSpace cs = taken ++ rest ∧ ValueText v taken ∧ v.depth ≤ room

theorem gives_element {room : Nat} (h : TakesText room) :
    Gives (fun v cs => ElementText v cs ∧ v.depth ≤ room) (value room) := by
  intro cs v rest hread
  obtain ⟨space, hspace, hcs⟩ := exists_space cs
  obtain ⟨taken, htaken, htext, hdepth⟩ := h cs v rest hread
  refine ⟨space ++ taken, by rw [hcs, htaken, List.append_assoc], fun before after hbefore hafter => ⟨?_, hdepth⟩⟩
  have hpadded := ElementText.padded (hbefore.append hspace) htext hafter
  simpa only [List.append_assoc] using hpadded

theorem gives_field {room : Nat} (h : TakesText room) :
    Gives (fun field cs => FieldText field cs ∧ field.2.depth ≤ room) (Json.field (value room)) := by
  intro cs field rest hread
  rw [Json.field.eq_def] at hread
  split at hread
  case h_2 => cases hread
  case h_1 cs =>
    simp only [bind_eq_ok_iff, Prod.exists] at hread
    obtain ⟨name, behind, hname, hread⟩ := hread
    obtain ⟨chars, taken, rfl, rfl, hchars⟩ := string_sound hname
    obtain ⟨between, hbetween, hbehind⟩ := exists_space behind
    split at hread
    case h_1 | h_3 => cases hread
    case h_2 tail hskip =>
      simp only [bind_eq_ok_iff, Prod.exists] at hread
      obtain ⟨v, _, hvalue, hread⟩ := hread
      cases hread
      obtain ⟨element, rfl, htext⟩ := gives_element h _ _ _ hvalue
      rw [hskip] at hbehind
      refine ⟨'"' :: (taken ++ '"' :: (between ++ ':' :: element)), by simp [hbehind], ?_⟩
      intro before after hbefore hafter
      obtain ⟨helement, hdepth⟩ := htext [] after isSpace_nil hafter
      have hfield := FieldText.colon hbefore hchars hbetween helement
      exact ⟨by simpa using hfield, hdepth⟩

theorem literal_sound {es cs rest : List Char} {v w : Json}
    (h : (do .ok (v, ← expect es cs) : Except ReadError (Json × List Char)) = .ok (w, rest)) :
    w = v ∧ cs = es ++ rest := by
  rw [bind_eq_ok_iff] at h
  obtain ⟨_, hread, h⟩ := h
  cases h
  exact ⟨rfl, expect_sound hread⟩

theorem array_sound {room : Nat} (h : TakesText room) {cs rest : List Char} {vs : List Json}
    (hread : members ']' (value room) cs = .ok (vs, rest)) :
    ∃ taken, '[' :: cs = taken ++ rest ∧ ValueText (.arr vs) taken ∧ (Json.arr vs).depth ≤ room + 1 := by
  obtain ⟨inside, rfl, ⟨rfl, hspace⟩ | hinside⟩ := members_sound (gives_element h) hread
  · exact ⟨'[' :: (inside ++ [']']), by simp, .emptyArray hspace, Nat.succ_le_succ (Nat.zero_le room)⟩
  · obtain ⟨htext, hdepth⟩ := hinside.and
    exact ⟨'[' :: (inside ++ [']']), by simp, .array htext, Nat.succ_le_succ (depthOf_le hdepth)⟩

theorem object_sound {room : Nat} (h : TakesText room) {cs rest : List Char} {fields : List (String × Json)}
    (hread : members '\x7d' (Json.field (value room)) cs = .ok (fields, rest)) :
    ∃ taken, '\x7b' :: cs = taken ++ rest ∧ ValueText (.obj fields) taken ∧ (Json.obj fields).depth ≤ room + 1 := by
  obtain ⟨inside, rfl, ⟨rfl, hspace⟩ | hinside⟩ := members_sound (gives_field h) hread
  · exact ⟨'\x7b' :: (inside ++ ['\x7d']), by simp, .emptyObject hspace, Nat.succ_le_succ (Nat.zero_le room)⟩
  · obtain ⟨htext, hdepth⟩ := hinside.and
    exact ⟨'\x7b' :: (inside ++ ['\x7d']), by simp, .object htext, Nat.succ_le_succ (depthOfFields_le hdepth)⟩

/-- The reader takes texts of the grammar, by induction on the room: a bracket leaves less for what is inside. -/
theorem takesText (room : Nat) : TakesText room := by
  induction room using Nat.strongRecOn with
  | ind room ih =>
      intro cs v rest h
      rw [value.eq_def] at h
      dsimp only at h
      split at h
      case h_1 => cases h
      case h_2 tail hskip =>
        obtain ⟨rfl, rfl⟩ := literal_sound h
        exact ⟨['n', 'u', 'l', 'l'], hskip, .null, Nat.zero_le room⟩
      case h_3 tail hskip =>
        obtain ⟨rfl, rfl⟩ := literal_sound h
        exact ⟨['t', 'r', 'u', 'e'], hskip, .true, Nat.zero_le room⟩
      case h_4 tail hskip =>
        obtain ⟨rfl, rfl⟩ := literal_sound h
        exact ⟨['f', 'a', 'l', 's', 'e'], hskip, .false, Nat.zero_le room⟩
      case h_5 tail hskip =>
        simp only [bind_eq_ok_iff, Prod.exists] at h
        obtain ⟨s, _, hread, h⟩ := h
        cases h
        obtain ⟨chars, inside, rfl, rfl, htext⟩ := string_sound hread
        exact ⟨'"' :: (inside ++ ['"']), by simp [hskip], .string htext, Nat.zero_le room⟩
      case h_6 tail hskip =>
        obtain ⟨p, taken, hsign, hvalue, htext, rfl⟩ := Number.unsigned_sound h
        have hnumber := numberText_iff.mpr ⟨p, .negative hsign htext, hvalue⟩
        exact ⟨'-' :: taken, hskip, .number hnumber, hnumber.depth_eq_zero ▸ Nat.zero_le room⟩
      case h_7 tail hskip =>
        split at h
        case h_1 => cases h
        case h_2 inner =>
          simp only [bind_eq_ok_iff, Prod.exists] at h
          obtain ⟨vs, _, hread, h⟩ := h
          cases h
          rw [hskip]
          exact array_sound (ih inner (Nat.lt_succ_self inner)) hread
      case h_8 tail hskip =>
        split at h
        case h_1 => cases h
        case h_2 inner =>
          simp only [bind_eq_ok_iff, Prod.exists] at h
          obtain ⟨fields, _, hread, h⟩ := h
          cases h
          rw [hskip]
          exact object_sound (ih inner (Nat.lt_succ_self inner)) hread
      case h_9 c tail _ _ _ _ _ _ _ hskip =>
        split at h
        case isFalse => cases h
        case isTrue =>
          obtain ⟨p, taken, hsign, hvalue, htext, htail⟩ := Number.unsigned_sound h
          have hnumber := numberText_iff.mpr ⟨p, .positive hsign htext, hvalue⟩
          exact ⟨taken, hskip.trans htail, .number hnumber, hnumber.depth_eq_zero ▸ Nat.zero_le room⟩

theorem isSpace_of_atEnd {rest : List Char} (h : atEnd rest = .ok ()) : IsSpace rest := by
  obtain ⟨space, hspace, hrest⟩ := exists_space rest
  rw [atEnd] at h
  split at h
  case isFalse => cases h
  case isTrue hempty =>
    rw [List.isEmpty_iff.mp hempty, List.append_nil] at hrest
    exact hrest ▸ hspace

/-- The reader reads a value from a whole text, with at most so many containers open at a time, if and only if
the text is one of the value, and there is room for it. -/
theorem parse_eq_ok_iff {room : Nat} {text : String} {v : Json} :
    parse room text = .ok v ↔ ElementText v text.toList ∧ v.depth ≤ room := by
  constructor
  case mpr => exact fun h => parse_of_text h.1 h.2
  case mp =>
    intro h
    simp only [parse, bind_eq_ok_iff, Prod.exists] at h
    obtain ⟨w, rest, hread, _, hend, h⟩ := h
    cases h
    obtain ⟨taken, htaken, htext⟩ := gives_element (takesText room) _ _ _ hread
    have hspace : IsSpace rest := isSpace_of_atEnd hend
    rw [htaken]
    exact htext [] rest isSpace_nil hspace

/-- A text has one value at most. -/
theorem eq_of_elementText {v w : Json} {cs : List Char} (h : ElementText v cs) (h' : ElementText w cs) : v = w := by
  have hread : ∀ {u : Json}, ElementText u cs → u.depth ≤ max v.depth w.depth →
      parse (max v.depth w.depth) (String.ofList cs) = .ok u := fun htext hdepth =>
    parse_of_text (by rwa [String.toList_ofList]) hdepth
  exact Except.ok.inj ((hread h (Nat.le_max_left ..)).symm.trans (hread h' (Nat.le_max_right ..)))

end MarkdownNodes.Json
