import MarkdownNodes.Proofs.Token.Spelling
import MarkdownNodes.Token.OfJson

/-! The kinds of tokens and how they are read. A name or a number of a built-in kind says that the token
is built in, and any other name that it is custom. The kind of a custom token that is itself the name of a
built-in kind does not fit: such a token has spellings, but they are read as something else. -/

namespace MarkdownNodes

namespace Token

/-- The names of the built-in kinds. -/
def builtInKinds : List String :=
  ["space", "hr", "heading", "code", "table", "blockquote", "list", "list_item", "html", "paragraph", "text",
    "escape", "link", "image", "strong", "em", "codespan", "br", "del"]

/-- The kind of the token says what the token is: that of a custom token is not built in. -/
def FitsKind (t : Token) : Prop := t.builtIn? = none → t.kind ∉ builtInKinds

/-- The kinds of the token and of all tokens inside fit. -/
def KindsFit (t : Token) : Prop := ∀ u ∈ t.all, u.FitsKind

theorem kindsFit_iff (t : Token) : t.KindsFit ↔ t.FitsKind ∧ ∀ u ∈ t.inner, u.KindsFit := by
  simp only [KindsFit, all_eq t, List.forall_mem_cons, allOf, List.forall_mem_flatMap]

theorem kindsFit_iff_fields (t : Token) :
    t.KindsFit ↔ t.FitsKind ∧ ∀ f ∈ t.fields, ∀ u ∈ f.2.inner, u.KindsFit := by
  rw [kindsFit_iff, inner_eq_flatMap_fields, List.forall_mem_flatMap]

theorem forall_kindsFit_iff {ts : List Token} : (∀ t ∈ ts, t.KindsFit) ↔ ∀ t ∈ allOf ts, t.FitsKind := by
  simp only [KindsFit, allOf, List.forall_mem_flatMap]

theorem kind_of_builtIn?_eq_some {t : Token} {kind : BuiltIn} (h : t.builtIn? = some kind) : t.kind = kind.name := by
  cases t <;> cases h <;> rfl

end Token

namespace BuiltIn

theorem ofName?_eq_some_iff {s : String} {kind : BuiltIn} : ofName? s = some kind ↔ s = kind.name := by
  constructor
  · intro h
    have hfound := List.find?_some (p := fun kind : BuiltIn => kind.name == s) h
    exact (beq_iff_eq.mp hfound).symm
  · rintro rfl
    cases kind <;> rfl

theorem ofName?_eq_none_iff {s : String} : ofName? s = none ↔ s ∉ Token.builtInKinds := by
  have hnames : Token.builtInKinds = all.map name := rfl
  simp [ofName?, hnames]

theorem ofNumber?_number (kind : BuiltIn) : ofNumber? kind.number = some kind := by
  cases kind <;> rfl

theorem ofNumber?_eq_some_iff {n : Nat} {kind : BuiltIn} : ofNumber? n = some kind ↔ n = kind.number := by
  constructor
  · intro h
    obtain ⟨hlt, -⟩ := List.getElem?_eq_some_iff.mp h
    exact (List.getElem?_inj hlt (by decide)).mp (h.trans (ofNumber?_number kind).symm)
  · rintro rfl
    exact ofNumber?_number kind

end BuiltIn

/-! ### Tags -/

namespace Tag

theorem ofJson?_eq_builtIn_iff {v : Json} {kind : BuiltIn} :
    ofJson? v = some (.builtIn kind) ↔ v = .str kind.name ∨ v = .int kind.number := by
  constructor
  · intro h
    unfold ofJson? at h
    split at h
    case h_1 s =>
      split at h
      case h_1 hfound => cases h; exact Or.inl (congrArg Json.str (BuiltIn.ofName?_eq_some_iff.mp hfound))
      case h_2 => cases h
    case h_2 n =>
      split at h
      case isTrue hnonneg =>
        obtain ⟨_, hfound, hsame⟩ := Option.map_eq_some_iff.mp h
        cases hsame
        have hn := BuiltIn.ofNumber?_eq_some_iff.mp hfound
        exact Or.inr (congrArg Json.int (by omega))
      case isFalse => cases h
    case h_3 => cases h
  · rintro (rfl | rfl)
    · simp [ofJson?, BuiltIn.ofName?_eq_some_iff.mpr rfl]
    · simp [ofJson?, BuiltIn.ofNumber?_number]

theorem ofJson?_eq_custom_iff {v : Json} {s : String} :
    ofJson? v = some (.custom s) ↔ v = .str s ∧ s ∉ Token.builtInKinds := by
  constructor
  · intro h
    unfold ofJson? at h
    split at h
    case h_1 =>
      split at h
      case h_1 => cases h
      case h_2 hnone => cases h; exact ⟨rfl, BuiltIn.ofName?_eq_none_iff.mp hnone⟩
    case h_2 => simp at h
    case h_3 => cases h
  · rintro ⟨rfl, hs⟩
    simp [ofJson?, BuiltIn.ofName?_eq_none_iff.mpr hs]

/-- The tag of a token is read from the spellings of its type, if its kind fits. -/
theorem ofJson?_eq_tag_iff {v : Json} {t : Token} :
    ofJson? v = some t.tag ↔ t.TypeSpelledBy v ∧ t.FitsKind := by
  cases hkind : t.builtIn? with
  | some kind =>
      have hfits : t.FitsKind := by
        intro hnone
        cases hkind.symm.trans hnone
      rw [Token.tag, hkind, ofJson?_eq_builtIn_iff, ← Token.kind_of_builtIn?_eq_some hkind]
      constructor
      · rintro (rfl | rfl)
        · exact ⟨.name t, hfits⟩
        · exact ⟨.number hkind, hfits⟩
      · rintro ⟨_ | hnumber, -⟩
        · exact Or.inl rfl
        · cases hkind.symm.trans hnumber
          exact Or.inr rfl
  | none =>
      rw [Token.tag, hkind, ofJson?_eq_custom_iff]
      constructor
      · rintro ⟨rfl, hs⟩
        exact ⟨.name t, fun _ => hs⟩
      · rintro ⟨_ | hnumber, hfits⟩
        · exact ⟨rfl, hfits hkind⟩
        · cases hkind.symm.trans hnumber

/-- The tag of an object is read from its only type. -/
theorem ofObject?_eq_some_iff {members : List (String × Json)} {tag : Tag} :
    ofObject? members = some tag ↔
      ∃ type, members.filter (·.1 == "type") = [("type", type)] ∧ ofJson? type = some tag := by
  have hname : ∀ m ∈ members.filter (·.1 == "type"), m.1 = "type" := fun m hm => by
    simpa using List.of_mem_filter hm
  rw [ofObject?]
  split
  case h_1 name type hone =>
    rw [hone] at hname ⊢
    cases hname _ List.mem_cons_self
    simp
  case h_2 hnot =>
    simp only [reduceCtorEq, false_iff, not_exists, not_and]
    exact fun type hone => absurd hone (hnot _ _)

end Tag
end MarkdownNodes
