import MarkdownNodes.Text.Entity

/-! Text that HTML takes as text. In guarded text there is no character that could end it, and every
ampersand begins something that is meant to begin with one. Inert text is guarded by the five entities;
escaping in full makes any text inert, and decoding the entities gives the text back. -/

namespace MarkdownNodes.Text

/-- The entities that stand for special characters. -/
def entities : List (List Char) :=
  [['&', 'a', 'm', 'p', ';'], ['&', 'l', 't', ';'], ['&', 'g', 't', ';'],
    ['&', 'q', 'u', 'o', 't', ';'], ['&', '#', '3', '9', ';']]

/-- None of the other special characters occurs, and every ampersand begins an entity. -/
def Inert (cs : List Char) : Prop :=
  (∀ c ∈ cs, c ∉ ['<', '>', '"', '\'']) ∧
    ∀ rest, '&' :: rest <:+ cs → ∃ entity ∈ entities, entity <+: '&' :: rest

/-- None of the other special characters occurs, and every ampersand begins a text of the given kind. -/
def Guarded (kind : List Char → Prop) (cs : List Char) : Prop :=
  (∀ c ∈ cs, c ∉ ['<', '>', '"', '\'']) ∧
    ∀ rest, '&' :: rest <:+ cs → ∃ start, kind start ∧ start <+: '&' :: rest

/-- The text with every entity replaced by the character it stands for, from left to right. -/
def decode : List Char → List Char
  | '&' :: 'a' :: 'm' :: 'p' :: ';' :: rest => '&' :: decode rest
  | '&' :: 'l' :: 't' :: ';' :: rest => '<' :: decode rest
  | '&' :: 'g' :: 't' :: ';' :: rest => '>' :: decode rest
  | '&' :: 'q' :: 'u' :: 'o' :: 't' :: ';' :: rest => '"' :: decode rest
  | '&' :: '#' :: '3' :: '9' :: ';' :: rest => '\'' :: decode rest
  | c :: rest => c :: decode rest
  | [] => []

/-! ### Guarded text -/

section Guarded

variable {kind : List Char → Prop}

theorem Guarded.mono {kind' : List Char → Prop} (hkind : ∀ start, kind start → kind' start) {cs : List Char}
    (h : Guarded kind cs) : Guarded kind' cs :=
  ⟨h.1, fun rest hrest => (h.2 rest hrest).imp fun _ hstart => ⟨hkind _ hstart.1, hstart.2⟩⟩

theorem guarded_of_plain {cs : List Char} (h : ∀ c ∈ cs, c ∉ ['<', '>', '"', '\'', '&']) : Guarded kind cs := by
  constructor
  · intro c hc hspecial
    exact h c hc (List.mem_append_left ['&'] hspecial)
  · intro rest hrest
    exact absurd (show '&' ∈ ['<', '>', '"', '\'', '&'] by decide) (h '&' (hrest.subset List.mem_cons_self))

theorem Guarded.append {a b : List Char} (ha : Guarded kind a) (hb : Guarded kind b) : Guarded kind (a ++ b) := by
  constructor
  · intro c hc
    exact (List.mem_append.mp hc).elim (ha.1 c) (hb.1 c)
  · rintro rest ⟨before, heq⟩
    rcases List.append_eq_append_iff.mp heq with ⟨a', rfl, htail⟩ | ⟨b', rfl, rfl⟩
    · cases a' with
      | nil => exact hb.2 rest ⟨[], htail⟩
      | cons c tail =>
          -- The ampersand stands in the first text, and so does what it begins.
          obtain ⟨rfl, rfl⟩ := List.cons.inj htail
          obtain ⟨start, hstart, hbegins⟩ := ha.2 tail (List.suffix_append before _)
          exact ⟨start, hstart, hbegins.trans (List.prefix_append _ b)⟩
    · exact hb.2 rest (List.suffix_append b' _)

/-- An ampersand in front of guarded text is guarded by what it begins. -/
theorem Guarded.amp {rest start : List Char} (hstart : kind start) (hbegins : start <+: '&' :: rest)
    (h : Guarded kind rest) : Guarded kind ('&' :: rest) := by
  constructor
  · intro c hc
    rcases List.mem_cons.mp hc with rfl | hc
    · decide
    · exact h.1 c hc
  · intro tail htail
    rcases List.suffix_cons_iff.mp htail with heq | hinside
    · exact heq ▸ ⟨start, hstart, hbegins⟩
    · exact h.2 tail hinside

theorem Guarded.tail {c : Char} {cs : List Char} (h : Guarded kind (c :: cs)) : Guarded kind cs :=
  ⟨fun d hd => h.1 d (List.mem_cons_of_mem c hd), fun rest hrest => h.2 rest (hrest.trans (List.suffix_cons c cs))⟩

end Guarded

/-! ### Inert text -/

theorem inert_of_plain {cs : List Char} (h : ∀ c ∈ cs, c ∉ ['<', '>', '"', '\'', '&']) : Inert cs :=
  guarded_of_plain h

theorem inert_nil : Inert [] := inert_of_plain (by simp)

theorem Inert.append {a b : List Char} (ha : Inert a) (hb : Inert b) : Inert (a ++ b) :=
  Guarded.append ha hb

theorem inert_flatMap {f : Char → List Char} {cs : List Char} (h : ∀ c ∈ cs, Inert (f c)) :
    Inert (cs.flatMap f) := by
  induction cs with
  | nil => exact inert_nil
  | cons c cs ih =>
      rw [List.flatMap_cons]
      exact (h c List.mem_cons_self).append (ih fun d hd => h d (List.mem_cons_of_mem c hd))

/-- An entity is inert: it has no ampersand but the one it begins with. -/
theorem inert_of_mem_entities {tail : List Char} (hentity : '&' :: tail ∈ entities)
    (htail : ∀ c ∈ tail, c ∉ ['<', '>', '"', '\'', '&']) : Inert ('&' :: tail) :=
  Guarded.amp hentity List.prefix_rfl (guarded_of_plain htail)

theorem inert_escapeChar (c : Char) : Inert (escapeChar c) := by
  unfold escapeChar entity?
  split
  case h_6 hamp hlt hgt hquot hapos =>
    refine inert_of_plain fun d hd => ?_
    rw [List.mem_singleton.mp hd]
    simp only [List.mem_cons, List.not_mem_nil, or_false, not_or]
    exact ⟨hlt, hgt, hquot, hapos, hamp⟩
  all_goals exact inert_of_mem_entities (by decide) (by simp)

theorem inert_escapeAll (cs : List Char) : Inert (escapeAll cs) := inert_flatMap fun c _ => inert_escapeChar c

theorem escapeAll_append (cs ds : List Char) : escapeAll (cs ++ ds) = escapeAll cs ++ escapeAll ds :=
  List.flatMap_append

theorem escapeChar_of_plain {c : Char} (h : c ∉ ['<', '>', '"', '\'', '&']) : escapeChar c = [c] := by
  simp only [List.mem_cons, List.not_mem_nil, or_false, not_or] at h
  obtain ⟨hlt, hgt, hquot, hapos, hamp⟩ := h
  unfold escapeChar entity?
  split
  case h_6 => rfl
  all_goals contradiction

/-- Text without special characters is escaped by leaving it as it is. -/
theorem escapeAll_of_plain {cs : List Char} (h : ∀ c ∈ cs, c ∉ ['<', '>', '"', '\'', '&']) : escapeAll cs = cs := by
  induction cs with
  | nil => rfl
  | cons c cs ih =>
      rw [escapeAll, List.flatMap_cons, ← escapeAll, escapeChar_of_plain (h c List.mem_cons_self),
        ih fun d hd => h d (List.mem_cons_of_mem c hd), List.singleton_append]

theorem length_pos_escapeChar (c : Char) : 0 < (escapeChar c).length := by
  unfold escapeChar entity?
  split <;> simp

theorem length_le_escapeAll (cs : List Char) : cs.length ≤ (escapeAll cs).length := by
  induction cs with
  | nil => exact Nat.le_refl 0
  | cons c cs ih =>
      have hc := length_pos_escapeChar c
      rw [escapeAll, List.flatMap_cons, ← escapeAll, List.length_append, List.length_cons]
      omega

/-- Only text without special characters is the same when it is escaped. -/
theorem escapeAll_eq_self_iff (cs : List Char) : escapeAll cs = cs ↔ ∀ c ∈ cs, c ∉ ['<', '>', '"', '\'', '&'] := by
  refine ⟨fun h => ?_, escapeAll_of_plain⟩
  induction cs with
  | nil => simp
  | cons c cs ih =>
      have hparts : escapeChar c ++ escapeAll cs = c :: cs := by
        rwa [escapeAll, List.flatMap_cons, ← escapeAll] at h
      have hc : c ∉ ['<', '>', '"', '\'', '&'] := by
        intro hspecial
        -- An entity is longer than the character it stands for, and no text gets shorter.
        have hlong : ∀ d ∈ ['<', '>', '"', '\'', '&'], 1 < (escapeChar d).length := by simp [escapeChar, entity?]
        have hlength := congrArg List.length hparts
        have hrest := length_le_escapeAll cs
        have hentity := hlong c hspecial
        rw [List.length_append, List.length_cons] at hlength
        omega
      rw [escapeChar_of_plain hc] at hparts
      exact List.forall_mem_cons.mpr ⟨hc, ih (List.cons.inj hparts).2⟩

/-! ### Decoding -/

theorem decode_cons_of_ne {c : Char} (h : c ≠ '&') (rest : List Char) : decode (c :: rest) = c :: decode rest := by
  rw [decode] <;> simp [h]

theorem decode_escapeChar_append (c : Char) (rest : List Char) :
    decode (escapeChar c ++ rest) = c :: decode rest := by
  unfold escapeChar entity?
  split
  case h_6 hamp _ _ _ _ => exact decode_cons_of_ne hamp rest
  all_goals rfl

theorem decode_escapeAll_append (cs rest : List Char) : decode (escapeAll cs ++ rest) = cs ++ decode rest := by
  induction cs with
  | nil => rfl
  | cons c cs ih =>
      rw [escapeAll, List.flatMap_cons, List.append_assoc, decode_escapeChar_append, ← escapeAll, ih,
        List.cons_append]

/-- Decoding undoes escaping. -/
theorem decode_escapeAll (cs : List Char) : decode (escapeAll cs) = cs := by
  simpa [decode] using decode_escapeAll_append cs []

theorem toList_escapeHtml_full (text : String) : (escapeHtml text true).toList = escapeAll text.toList := by
  rw [escapeHtml, if_pos rfl, String.toList_ofList]

theorem toList_escapeHtml_soft (text : String) : (escapeHtml text false).toList = escapeSoft text.toList := by
  rw [escapeHtml, if_neg Bool.false_ne_true, String.toList_ofList]

/-- Different texts are escaped differently. -/
theorem escapeAll_injective : Function.Injective escapeAll := Function.LeftInverse.injective decode_escapeAll

end MarkdownNodes.Text
