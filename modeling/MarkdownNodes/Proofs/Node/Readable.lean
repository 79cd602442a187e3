import MarkdownNodes.Proofs.Node.Outline

/-! HTML can be read in one way. Where names have nothing in them that could end them, and there is no
trusted HTML, two outlines that are written alike are the same; so nodes are written alike just when they
have the same outline. -/

namespace MarkdownNodes

/-- Whether a character may stand in a name: an ASCII letter, a digit or a hyphen. -/
def isNameChar (c : Char) : Bool := c.isAlphanum || c == '-'

/-- A name is of ASCII letters, digits and hyphens and begins with a letter. -/
def IsName (s : String) : Prop := s.toList.head?.any Char.isAlpha = true ∧ s.toList.all isNameChar = true

instance : DecidablePred IsName := fun s =>
  inferInstanceAs (Decidable (s.toList.head?.any Char.isAlpha = true ∧ s.toList.all isNameChar = true))

theorem IsName.not_mem_kelvin {s : String} (h : IsName s) : '\u212a' ∉ s.toList := by
  intro hmem
  have hname : isNameChar '\u212a' = true := List.all_eq_true.mp h.2 _ hmem
  exact absurd hname (by decide)

/-- The trusted HTML of a node that contains it. -/
def Node.trusted? (n : Node) : Option String :=
  match n.content with
  | .html s => some s
  | _ => none

/-- A node, itself and not what is inside, has names for its tag and its attributes and no trusted HTML. -/
structure Node.Plain (n : Node) : Prop where
  tag : ∀ tag ∈ n.tag?, IsName tag
  attrs : ∀ name ∈ n.attrs.names, IsName name
  html : n.trusted? = none

instance : DecidablePred Node.Plain := fun n =>
  decidable_of_iff ((∀ tag ∈ n.tag?, IsName tag) ∧ (∀ name ∈ n.attrs.names, IsName name) ∧ n.trusted? = none)
    ⟨fun ⟨tag, attrs, html⟩ => ⟨tag, attrs, html⟩, fun ⟨tag, attrs, html⟩ => ⟨tag, attrs, html⟩⟩

/-! ### Where a text stops -/

/-- A text of some class is told from what follows it by the first character that is not of the class. -/
theorem append_inj_of_stop {p : Char → Bool} {a b s t : List Char} (ha : ∀ c ∈ a, p c = true)
    (hb : ∀ c ∈ b, p c = true) (hs : ∀ c ∈ s.head?, p c = false) (ht : ∀ c ∈ t.head?, p c = false)
    (h : a ++ s = b ++ t) : a = b ∧ s = t := by
  have htake : ∀ {l r : List Char}, (∀ c ∈ l, p c = true) → (∀ c ∈ r.head?, p c = false) →
      (l ++ r).takeWhile p = l := by
    intro l r hl hr
    rw [List.takeWhile_append_of_pos hl]
    cases r with
    | nil => simp
    | cons c r => rw [List.takeWhile_cons_of_neg (by simp [hr c rfl]), List.append_nil]
  have hab : a = b := by rw [← htake ha hs, h, htake hb ht]
  exact ⟨hab, List.append_cancel_left (hab ▸ h)⟩

theorem name_inj {s t : String} {rest rest' : List Char} (hs : IsName s) (ht : IsName t)
    (hrest : ∀ c ∈ rest.head?, isNameChar c = false) (hrest' : ∀ c ∈ rest'.head?, isNameChar c = false)
    (h : s.toList ++ rest = t.toList ++ rest') : s = t ∧ rest = rest' := by
  obtain ⟨hname, hrest⟩ := append_inj_of_stop (List.all_eq_true.mp hs.2) (List.all_eq_true.mp ht.2) hrest hrest' h
  exact ⟨String.toList_inj.mp hname, hrest⟩

/-- Escaped text is told from what follows it if that begins with a character that escaping replaces. -/
theorem escapeAll_append_inj (stop : Char) (hstop : stop ∈ ['<', '>', '"', '\'']) {a b rest rest' : List Char}
    (hrest : ∀ c ∈ rest.head?, c = stop) (hrest' : ∀ c ∈ rest'.head?, c = stop)
    (h : Text.escapeAll a ++ rest = Text.escapeAll b ++ rest') : a = b ∧ rest = rest' := by
  have hnone : ∀ text, ∀ c ∈ Text.escapeAll text, (c != stop) = true := by
    intro text c hc
    rw [bne_iff_ne]
    rintro rfl
    exact (Text.inert_escapeAll text).1 c hc hstop
  obtain ⟨htext, hrest⟩ := append_inj_of_stop (hnone a) (hnone b)
    (fun c hc => by simp [hrest c hc]) (fun c hc => by simp [hrest' c hc]) h
  exact ⟨Text.escapeAll_injective htext, hrest⟩

namespace Piece

/-! ### Attributes -/

/-- After an attribute comes the next one or the end of the start tag. -/
def Stops (rest : List Char) : Prop := ∃ more, rest = ' ' :: more ∨ rest = '>' :: more

theorem Stops.not_isNameChar {rest : List Char} (h : Stops rest) : ∀ c ∈ rest.head?, isNameChar c = false := by
  obtain ⟨more, rfl | rfl⟩ := h <;> simp [isNameChar]

theorem stops_attrs (attrs : List (String × Option String)) (rest : List Char) :
    Stops (attrs.flatMap attrChars ++ '>' :: rest) := by
  cases attrs with
  | nil => exact ⟨rest, Or.inr rfl⟩
  | cons attr attrs => rcases attr with ⟨name, _ | value⟩ <;> exact ⟨_, Or.inl rfl⟩

theorem attr_append_inj {attr attr' : String × Option String} (hname : IsName attr.1) (hname' : IsName attr'.1)
    {rest rest' : List Char} (hrest : Stops rest) (hrest' : Stops rest')
    (h : attrChars attr ++ rest = attrChars attr' ++ rest') : attr = attr' ∧ rest = rest' := by
  have hvalue : ∀ value more, ∀ c ∈ ('=' :: '"' :: (Text.escapeAll value ++ '"' :: more)).head?,
      isNameChar c = false := by simp [isNameChar]
  have hne : ∀ {rest more}, Stops rest → rest ≠ '=' :: more := by
    rintro _ _ ⟨more, rfl | rfl⟩ heq <;> cases heq
  rcases attr with ⟨name, _ | value⟩ <;> rcases attr' with ⟨name', _ | value'⟩ <;>
    simp only [attrChars, List.cons_append, List.append_assoc, List.cons.injEq, true_and, List.nil_append] at h
  case none.none =>
    obtain ⟨rfl, rfl⟩ := name_inj hname hname' hrest.not_isNameChar hrest'.not_isNameChar h
    exact ⟨rfl, rfl⟩
  case none.some => exact absurd (name_inj hname hname' hrest.not_isNameChar (hvalue _ _) h).2 (hne hrest)
  case some.none => exact absurd (name_inj hname hname' (hvalue _ _) hrest'.not_isNameChar h).2.symm (hne hrest')
  case some.some =>
    obtain ⟨rfl, htail⟩ := name_inj hname hname' (hvalue _ _) (hvalue _ _) h
    simp only [List.cons.injEq, true_and] at htail
    obtain ⟨hvalues, hquoted⟩ := escapeAll_append_inj '"' (by decide) (by simp) (by simp) htail
    cases String.toList_inj.mp hvalues
    exact ⟨rfl, (List.cons.inj hquoted).2⟩

theorem attrs_append_inj {attrs attrs' : List (String × Option String)} (h : ∀ attr ∈ attrs, IsName attr.1)
    (h' : ∀ attr ∈ attrs', IsName attr.1) {rest rest' : List Char}
    (heq : attrs.flatMap attrChars ++ '>' :: rest = attrs'.flatMap attrChars ++ '>' :: rest') :
    attrs = attrs' ∧ rest = rest' := by
  have hne : ∀ (attr : String × Option String) more tail, attrChars attr ++ more ≠ '>' :: tail := by
    rintro ⟨name, _ | value⟩ more tail <;> simp [attrChars]
  induction attrs generalizing attrs' with
  | nil =>
      cases attrs' with
      | nil => exact ⟨rfl, (List.cons.inj heq).2⟩
      | cons attr' attrs' =>
          rw [List.flatMap_cons, List.append_assoc] at heq
          exact absurd heq.symm (hne _ _ _)
  | cons attr attrs ih =>
      cases attrs' with
      | nil =>
          rw [List.flatMap_cons, List.append_assoc] at heq
          exact absurd heq (hne _ _ _)
      | cons attr' attrs' =>
          rw [List.flatMap_cons, List.flatMap_cons, List.append_assoc, List.append_assoc] at heq
          obtain ⟨rfl, hattrs⟩ := attr_append_inj (h attr List.mem_cons_self) (h' attr' List.mem_cons_self)
            (stops_attrs attrs rest) (stops_attrs attrs' rest') heq
          obtain ⟨rfl, hrest⟩ := ih (fun a ha => h a (List.mem_cons_of_mem _ ha))
            (fun a ha => h' a (List.mem_cons_of_mem _ ha)) hattrs
          exact ⟨rfl, hrest⟩

/-! ### Outlines -/

/-- Pieces as an outline of plain nodes has them: runs of text are not empty and do not touch, names are
names, and elements that stay empty are. -/
inductive Tidy : List Piece → Prop
  | nil : Tidy []
  | text {run : List Char} {rest : List Piece} :
      run ≠ [] → (∀ more tail, rest ≠ .text more :: tail) → Tidy rest → Tidy (.text run :: rest)
  | element {tag : String} {attrs : List (String × Option String)} {content rest : List Piece} :
      IsName tag → (∀ attr ∈ attrs, IsName attr.1) → (Node.staysEmpty tag = true → content = []) →
      Tidy content → Tidy rest → Tidy (.element tag attrs content :: rest)

theorem Tidy.join_text {ps : List Piece} (h : Tidy ps) (run : List Char) : Tidy ((Piece.text run).join ps) := by
  by_cases hrun : run = []
  · rwa [hrun, join_text_nil]
  · cases h with
    | text hmore htail hrest =>
        rw [join_text_text]
        exact .text (by simp [hrun]) htail hrest
    | nil =>
        rw [Piece.join_text hrun (by simp)]
        exact .text hrun (by simp) .nil
    | element htag hattrs hempty hcontent hrest =>
        rw [Piece.join_text hrun (by simp)]
        exact .text hrun (by simp) (.element htag hattrs hempty hcontent hrest)

/-- What comes after the pieces of an outline in HTML: nothing, or the end tag of an element around them. -/
def Ends (rest : List Char) : Prop := rest = [] ∨ ∃ more, rest = '<' :: '/' :: more

theorem ends_endTag (tag : String) (rest : List Char) : Ends (Node.endTag tag ++ rest) :=
  Or.inr ⟨tag.toList ++ '>' :: rest, by simp [Node.endTag]⟩

/-- What HTML begins with. -/
inductive Opening where
  | ending
  | startTag
  | text

def opening : List Char → Opening
  | [] => .ending
  | '<' :: '/' :: _ => .ending
  | '<' :: _ => .startTag
  | _ => .text

theorem head?_of_opening {cs : List Char} (h : opening cs ≠ .text) : ∀ c ∈ cs.head?, c = '<' := by
  unfold opening at h
  split at h <;> simp_all

/-- What an outline begins with. -/
def opensWith : List Piece → Opening
  | [] => .ending
  | .element .. :: _ => .startTag
  | _ => .text

theorem opening_text {run : List Char} (hrun : run ≠ []) (rest : List Char) :
    opening (Text.escapeAll run ++ rest) = .text := by
  have hescaped : Text.escapeAll run ≠ [] := fun h => hrun (Text.escapeAll_injective h)
  obtain ⟨c, cs, heq⟩ := List.exists_cons_of_ne_nil hescaped
  have hc : c ≠ '<' := by
    rintro rfl
    exact (Text.inert_escapeAll run).1 '<' (by simp [heq]) (by decide)
  rw [heq, List.cons_append, opening] <;> simp [hc]

theorem opening_tag {tag : String} (htag : IsName tag) (rest : List Char) :
    opening ('<' :: (tag.toList ++ rest)) = .startTag := by
  obtain ⟨c, hhead, hc⟩ := (Option.any_eq_true _ _).mp htag.1
  obtain ⟨cs, heq⟩ := List.head?_eq_some_iff.mp hhead
  have hslash : c ≠ '/' := by
    rintro rfl
    exact absurd hc (by decide)
  rw [heq, List.cons_append, opening]
  simp [hslash]

/-- Text, a start tag and the end of an outline are told apart by what HTML begins with. -/
theorem opening_charsOf {ps : List Piece} (h : Tidy ps) {rest : List Char} (hrest : Ends rest) :
    opening (charsOf ps ++ rest) = opensWith ps := by
  cases h with
  | nil => obtain rfl | ⟨more, rfl⟩ := hrest <;> rfl
  | text hrun _ _ =>
      rw [charsOf, chars, List.append_assoc]
      exact opening_text hrun _
  | element htag _ _ _ _ =>
      simp only [charsOf, chars, List.cons_append, List.append_assoc]
      exact opening_tag htag _

theorem opensWith_eq {ps qs : List Piece} (hps : Tidy ps) (hqs : Tidy qs) {rest rest' : List Char}
    (hrest : Ends rest) (hrest' : Ends rest') (h : charsOf ps ++ rest = charsOf qs ++ rest') :
    opensWith ps = opensWith qs := by
  rw [← opening_charsOf hps hrest, h, opening_charsOf hqs hrest']

theorem stops_head {ps : List Piece} (h : Tidy ps) (htext : ∀ run tail, ps ≠ .text run :: tail)
    {rest : List Char} (hrest : Ends rest) : ∀ c ∈ (charsOf ps ++ rest).head?, c = '<' := by
  apply head?_of_opening
  rw [opening_charsOf h hrest]
  cases h with
  | text _ _ _ => exact absurd rfl (htext _ _)
  | _ => simp [opensWith]

theorem element_append_inj {tag tag' : String} {attrs attrs' : List (String × Option String)}
    {content content' ps qs : List Piece} (htag : IsName tag) (htag' : IsName tag')
    (hattrs : ∀ attr ∈ attrs, IsName attr.1) (hattrs' : ∀ attr ∈ attrs', IsName attr.1)
    {rest rest' : List Char}
    (h : charsOf (element tag attrs content :: ps) ++ rest = charsOf (element tag' attrs' content' :: qs) ++ rest') :
    tag = tag' ∧ attrs = attrs' ∧
      (if Node.staysEmpty tag then [] else charsOf content ++ Node.endTag tag) ++ (charsOf ps ++ rest) =
        (if Node.staysEmpty tag then [] else charsOf content' ++ Node.endTag tag) ++ (charsOf qs ++ rest') := by
  simp only [charsOf, chars, List.cons_append, List.append_assoc, List.cons.injEq, true_and, List.nil_append] at h
  obtain ⟨rfl, hafter⟩ :=
    name_inj htag htag' (stops_attrs attrs _).not_isNameChar (stops_attrs attrs' _).not_isNameChar h
  obtain ⟨rfl, hinside⟩ := attrs_append_inj hattrs hattrs' hafter
  exact ⟨rfl, rfl, hinside⟩

/-- An outline is read back from HTML in one way only, whatever follows it. -/
theorem charsOf_append_inj {ps qs : List Piece} (hps : Tidy ps) (hqs : Tidy qs) {rest rest' : List Char}
    (hrest : Ends rest) (hrest' : Ends rest') (h : charsOf ps ++ rest = charsOf qs ++ rest') :
    ps = qs ∧ rest = rest' := by
  induction hps generalizing qs rest rest' with
  | nil =>
      have hopens := opensWith_eq .nil hqs hrest hrest' h
      cases hqs with
      | nil => exact ⟨rfl, h⟩
      | text _ _ _ => cases hopens
      | element _ _ _ _ _ => cases hopens
  | text hrun htail hps ih =>
      have hopens := opensWith_eq (.text hrun htail hps) hqs hrest hrest' h
      cases hqs with
      | nil => cases hopens
      | element _ _ _ _ _ => cases hopens
      | text hrun' htail' hqs =>
          simp only [charsOf, chars, List.append_assoc] at h
          obtain ⟨rfl, htails⟩ := escapeAll_append_inj '<' (by decide) (stops_head hps htail hrest)
            (stops_head hqs htail' hrest') h
          obtain ⟨rfl, hrests⟩ := ih hqs hrest hrest' htails
          exact ⟨rfl, hrests⟩
  | @element tag _ _ _ htag hattrs hempty hcontent hps ihcontent ih =>
      have hopens := opensWith_eq (.element htag hattrs hempty hcontent hps) hqs hrest hrest' h
      cases hqs with
      | nil => cases hopens
      | text _ _ _ => cases hopens
      | element htag' hattrs' hempty' hcontent' hqs =>
          obtain ⟨rfl, rfl, hinside⟩ := element_append_inj htag htag' hattrs hattrs' h
          by_cases hvoid : Node.staysEmpty tag = true
          · rw [if_pos hvoid, if_pos hvoid] at hinside
            obtain ⟨rfl, hrests⟩ := ih hqs hrest hrest' hinside
            rw [hempty hvoid, hempty' hvoid]
            exact ⟨rfl, hrests⟩
          · rw [if_neg hvoid, if_neg hvoid, List.append_assoc, List.append_assoc] at hinside
            obtain ⟨rfl, hends⟩ := ihcontent hcontent' (ends_endTag tag _) (ends_endTag tag _) hinside
            obtain ⟨rfl, hrests⟩ := ih hqs hrest hrest' (List.append_cancel_left hends)
            exact ⟨rfl, hrests⟩

end Piece

namespace Node

/-! ### Nodes -/

theorem isName_of_mem_shown {attrs : Entries AttrValue} (h : ∀ name ∈ attrs.names, IsName name) :
    ∀ attr ∈ attrs.filterMap AttrValue.shown?, IsName attr.1 := by
  intro attr hattr
  obtain ⟨⟨name, value⟩, hmem, hshown⟩ := List.mem_filterMap.mp hattr
  have hname : attr.1 = name := by
    rcases value with s | n | _ | _ <;> cases hshown <;> rfl
  rw [hname]
  exact h name (List.mem_map_of_mem hmem)

/-- The pieces of the node, put before any outline, make an outline. -/
def KeepsTidy (n : Node) : Prop := ∀ ps, Piece.Tidy ps → Piece.Tidy ((pieces n).foldr Piece.join ps)

theorem tidy_piecesOf {ns : List Node} (h : ∀ n ∈ ns, n.KeepsTidy) {ps : List Piece} (hps : Piece.Tidy ps) :
    Piece.Tidy ((piecesOf ns).foldr Piece.join ps) := by
  induction ns with
  | nil => exact hps
  | cons n ns ih =>
      rw [piecesOf, List.foldr_append]
      exact h n List.mem_cons_self _ (ih fun m hm => h m (List.mem_cons_of_mem n hm))

theorem tidy_contentPieces {n : Node} (hn : n.Plain) (h : ∀ m ∈ n.inner, m.KeepsTidy) {ps : List Piece}
    (hps : Piece.Tidy ps) : Piece.Tidy ((contentPieces n.content).foldr Piece.join ps) := by
  rcases n with ⟨kind, attrs, _ | s | s | ns⟩
  case empty => exact hps
  case text => exact hps.join_text s.toList
  case html => cases hn.html
  case nodes => exact tidy_piecesOf h hps

theorem keepsTidy (n : Node) (h : ∀ m ∈ n.all, m.Plain) : n.KeepsTidy := by
  induction n using induct with
  | step n ih =>
      intro ps hps
      rw [all_eq] at h
      have hn : n.Plain := h n List.mem_cons_self
      have hinner : ∀ m ∈ n.inner, m.KeepsTidy := fun m hm =>
        ih m hm fun k hk => h k (List.mem_cons_of_mem n (mem_allOf.mpr ⟨m, hm, hk⟩))
      have hcontent : ∀ ps, Piece.Tidy ps → Piece.Tidy ((contentPieces n.content).foldr Piece.join ps) := fun _ =>
        tidy_contentPieces hn hinner
      rcases n with ⟨tag | _, attrs, content⟩
      case fragment => exact hcontent ps hps
      case element =>
        rw [pieces, List.foldr_cons, List.foldr_nil, Piece.join_element]
        have htag : IsName tag := hn.tag tag rfl
        refine .element htag (isName_of_mem_shown hn.attrs) (fun hempty => ?_) ?_ hps
        · exact if_pos (isVoid_of_staysEmpty htag.not_mem_kelvin hempty)
        split
        · exact .nil
        · exact hcontent [] .nil

/-- The outline of plain nodes is tidy. -/
theorem tidy_outline {ns : List Node} (h : ∀ n ∈ allOf ns, n.Plain) : Piece.Tidy (outline ns) :=
  tidy_piecesOf (fun n hn => keepsTidy n fun m hm => h m (mem_allOf.mpr ⟨n, hn, hm⟩)) .nil

/-- Nodes without trusted HTML, with names for tags and attributes, are written alike if and only if they
have the same outline: their HTML tells their outline and nothing else. -/
theorem html_eq_iff_outline_eq {ns ms : List Node} (hns : ∀ n ∈ allOf ns, n.Plain)
    (hms : ∀ m ∈ allOf ms, m.Plain) : html ns = html ms ↔ outline ns = outline ms := by
  constructor
  · intro h
    have hchars : Piece.charsOf (outline ns) ++ [] = Piece.charsOf (outline ms) ++ [] := by
      rw [← htmlCharsOf_eq_charsOf_outline, ← htmlCharsOf_eq_charsOf_outline, String.ofList_inj.mp h]
    exact (Piece.charsOf_append_inj (tidy_outline hns) (tidy_outline hms) (Or.inl rfl) (Or.inl rfl) hchars).1
  · intro h
    rw [html, html, htmlCharsOf_eq_charsOf_outline, h, ← htmlCharsOf_eq_charsOf_outline]

/-- A paragraph with text that looks like a tag, in parts, and with content in an element that stays empty. -/
def dividedText : List Node :=
  [⟨.element "p", [("data-n", .int 5), ("off", .bool false)], .nodes
    [⟨.fragment, [("x", .bool true)], .text "a<"⟩, ⟨.fragment, [], .text "br>"⟩, ⟨.element "BR", [], .text "lost"⟩]⟩]

/-- The same paragraph with the text in one part and nothing that does not show. -/
def wholeText : List Node :=
  [fragment [⟨.element "p", [("data-n", .str "5")], .nodes
    [⟨.fragment, [], .text "a<br>"⟩, ⟨.element "BR", [], .empty⟩]⟩]]

theorem html_eq_iff_outline_eq_of_divided_text :
    (∀ n ∈ allOf dividedText, n.Plain) ∧ (∀ m ∈ allOf wholeText, m.Plain) ∧
      outline dividedText = outline wholeText ∧ html dividedText = html wholeText := by
  have hns : ∀ n ∈ allOf dividedText, n.Plain := by decide
  have hms : ∀ m ∈ allOf wholeText, m.Plain := by decide
  have houtline : outline dividedText = outline wholeText := rfl
  exact ⟨hns, hms, houtline, (html_eq_iff_outline_eq hns hms).mpr houtline⟩

end Node
end MarkdownNodes
