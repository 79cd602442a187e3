import MarkdownNodes.Proofs.Token.Reading

/-! The slots for tokens in a JSON value. What stands around a slot is a function of what stands in it. A
slot is found by the types of the fields on the way to it: a token has fields, a field holds tokens, or
items or cells with fields of their own. Every token that is read stands in such a slot, and nothing can be
read around a slot that holds no token. -/

namespace MarkdownNodes

/-- What stands around one element of an array. -/
def Json.among (before after : List Json) (v : Json) : Json := .arr (before ++ v :: after)

/-- The slots of the fields of a type, in an object or an array that a schema describes. -/
inductive Schema.Slot (schema : Schema) (type : FieldType) : (Json → Json) → Prop where
  | member {name : String} {before after : List (String × Json)} (hname : schema.type? name = some type) :
      Schema.Slot schema type fun v => .obj (before ++ (name, v) :: after)
  | element {before after : List Json} (htype : (schema.map Prod.snd)[before.length]? = some type) :
      Schema.Slot schema type (Json.among before after)

/-- The slots for tokens in the value of a field. -/
inductive FieldType.Slot : FieldType → (Json → Json) → Prop where
  | token {before after : List Json} : FieldType.Slot .tokens (Json.among before after)
  | maybeToken {before after : List Json} : FieldType.Slot .maybeTokens (Json.among before after)
  | item {before after : List Json} {field token : Json → Json} (hfield : Item.schema.Slot .tokens field)
      (htoken : FieldType.Slot .tokens token) : FieldType.Slot .items fun v => Json.among before after (field (token v))
  | cell {before after : List Json} {field token : Json → Json} (hfield : Cell.schema.Slot .tokens field)
      (htoken : FieldType.Slot .tokens token) : FieldType.Slot .cells fun v => Json.among before after (field (token v))
  | row {before after : List Json} {cell : Json → Json} (hcell : FieldType.Slot .cells cell) :
      FieldType.Slot .rows fun v => Json.among before after (cell v)

/-- The slots of the fields of a type in a token. The type of the token says what its fields are. -/
inductive Token.FieldSlot (type : FieldType) : (Json → Json) → Prop where
  | member {tag : Tag} {name : String} {before after : List (String × Json)}
      (htag : Tag.ofObject? (before ++ after) = some tag) (hname : tag.schema.type? name = some type) :
      Token.FieldSlot type fun v => .obj (before ++ (name, v) :: after)
  | element {tag : Tag} {kind : Json} {before after : List Json} (htag : Tag.ofJson? kind = some tag)
      (htype : (tag.schema.map Prod.snd)[before.length]? = some type) :
      Token.FieldSlot type (Json.among (kind :: before) after)

/-- The slots for tokens in a token, at every depth. -/
inductive Token.Slot : (Json → Json) → Prop where
  | self : Token.Slot fun v => v
  | inner {type : FieldType} {field token slot : Json → Json} (hfield : Token.FieldSlot type field)
      (htoken : type.Slot token) (hslot : Token.Slot slot) : Token.Slot fun v => field (token (slot v))

/-- The slots for tokens in a token list. -/
inductive Token.ListSlot : (Json → Json) → Prop where
  | mk {before after : List Json} {slot : Json → Json} (hslot : Token.Slot slot) :
      Token.ListSlot fun v => Json.among before after (slot v)

/-! ### What cannot be read -/

theorem mapM_among_eq_none {α β : Type} {f : α → Option β} {before after : List α} {a : α} (h : f a = none) :
    (before ++ a :: after).mapM f = none := by
  induction before with
  | nil => simp [List.mapM_cons, h]
  | cons b before ih => simp [List.mapM_cons, ih]

theorem givenFields?_eq_none {schema : Schema} {type : FieldType} {name : String} {v : Json}
    (hname : schema.type? name = some type) (h : fieldValue? type v = none) (before after : List (String × Json)) :
    givenFields? schema (before ++ (name, v) :: after) = none := by
  induction before with
  | nil => simp [givenFields?, hname, h]
  | cons m before ih =>
      rw [List.cons_append, givenFields?]
      split <;> simp [ih]

theorem orderedFields?_eq_none {type : FieldType} {v : Json} (h : fieldValue? type v = none)
    {types : List FieldType} {before : List Json} (htype : types[before.length]? = some type) (after : List Json) :
    orderedFields? types (before ++ v :: after) = none := by
  induction before generalizing types with
  | nil =>
      cases types with
      | nil => cases htype
      | cons first types =>
          cases htype
          simp [orderedFields?, h]
  | cons w before ih =>
      cases types with
      | nil => cases htype
      | cons first types => simp [orderedFields?, ih htype]

theorem Schema.Slot.record?_eq_none {schema : Schema} {type : FieldType} {field : Json → Json}
    (hfield : schema.Slot type field) {v : Json} (h : fieldValue? type v = none) :
    record? schema (field v) = none := by
  cases hfield with
  | member hname => simp [record?, givenFields?_eq_none hname h]
  | element htype => rw [Json.among, record?, orderedFields?_eq_none h htype]

theorem FieldType.Slot.tokens_eq_none {token : Json → Json} (htoken : FieldType.Slot .tokens token) {v : Json}
    (h : Token.ofJson? v = none) : fieldValue? .tokens (token v) = none := by
  cases htoken with
  | token => simp [Json.among, fieldValue?, Token.listOfJson?_eq_mapM, mapM_among_eq_none h]

/-- A field that holds no token where it should hold one has no value. -/
theorem FieldType.Slot.fieldValue?_eq_none {type : FieldType} {token : Json → Json} (htoken : type.Slot token)
    {v : Json} (h : Token.ofJson? v = none) : fieldValue? type (token v) = none := by
  cases htoken with
  | token => exact tokens_eq_none .token h
  | maybeToken => simp [Json.among, fieldValue?, Token.listOfJson?_eq_mapM, mapM_among_eq_none h]
  | item hfield htoken =>
      have hitem := hfield.record?_eq_none (htoken.tokens_eq_none h)
      simp [Json.among, fieldValue?, records?_eq_mapM, mapM_among_eq_none hitem]
  | cell hfield htoken =>
      have hcell := hfield.record?_eq_none (htoken.tokens_eq_none h)
      simp [Json.among, fieldValue?, records?_eq_mapM, mapM_among_eq_none hcell]
  | row hcell =>
      cases hcell with
      | cell hfield htoken =>
          have hcell := hfield.record?_eq_none (htoken.tokens_eq_none h)
          simp only [Json.among, fieldValue?, recordRows?_eq_mapM]
          rw [mapM_among_eq_none]
          · rfl
          · simp only [records?_eq_mapM, mapM_among_eq_none hcell]

/-- No token has a field with the name of the type. -/
theorem Tag.type?_type (tag : Tag) : tag.schema.type? "type" = none := by
  cases tag with
  | builtIn kind => cases kind <;> rfl
  | custom kind => rfl

/-- The tag does not depend on the other fields. -/
theorem Tag.ofObject?_insert {name : String} (hname : name ≠ "type") (v : Json)
    (before after : List (String × Json)) :
    ofObject? (before ++ (name, v) :: after) = ofObject? (before ++ after) := by
  simp [ofObject?, List.filter_cons_of_neg, hname]

theorem Token.FieldSlot.ofJson?_eq_none {type : FieldType} {field : Json → Json}
    (hfield : Token.FieldSlot type field) {v : Json} (h : fieldValue? type v = none) :
    Token.ofJson? (field v) = none := by
  cases hfield with
  | @member tag name before after htag hname =>
      have hother : name ≠ "type" := by
        rintro rfl
        cases tag.type?_type.symm.trans hname
      rw [← Tag.ofObject?_insert hother v] at htag
      simp [Token.ofJson?, htag, givenFields?_eq_none hname h]
  | element htag htype => simp [Json.among, Token.ofJson?, htag, orderedFields?_eq_none h htype]

theorem Token.Slot.ofJson?_eq_none {slot : Json → Json} (hslot : Token.Slot slot) {v : Json}
    (h : Token.ofJson? v = none) : Token.ofJson? (slot v) = none := by
  induction hslot with
  | self => exact h
  | inner hfield htoken _ ih => exact hfield.ofJson?_eq_none (htoken.fieldValue?_eq_none ih)

/-! ### Where tokens are read -/

theorem exists_among_of_mem {α : Type} {R : α → Json → Prop} {as : List α} {vs : List Json}
    (h : List.Forall₂ R as vs) {a : α} (ha : a ∈ as) :
    ∃ before after v, Json.arr vs = Json.among before after v ∧ R a v := by
  induction h with
  | nil => cases ha
  | @cons b v as vs hfirst _ ih =>
      rcases List.mem_cons.mp ha with rfl | ha
      · exact ⟨[], vs, v, rfl, hfirst⟩
      · obtain ⟨before, after, w, hvs, hw⟩ := ih ha
        cases hvs
        exact ⟨v :: before, after, w, rfl, hw⟩

section Fields

variable {fields : List (String × FieldValue)} {f : String × FieldValue}

theorem Field.NamedIn.exists_member {members : List (String × Json)} (h : Field.NamedIn f members)
    (hgiven : ¬ f.2.IsDefault) : ∃ before after v, members = before ++ (f.1, v) :: after ∧ f.2.SpelledBy v := by
  cases h with
  | omitted _ hvalue => exact absurd hvalue hgiven
  | @given name value v members only hvalue =>
      have hmem : (name, v) ∈ members.filter (·.1 == name) := only ▸ List.mem_cons_self
      obtain ⟨before, after, hmembers⟩ := List.append_of_mem (List.mem_filter.mp hmem).1
      exact ⟨before, after, v, hmembers, hvalue⟩

theorem Fields.InOrder.exists_element {values : List FieldValue} {vs : List Json} (h : Fields.InOrder values vs)
    {value : FieldValue} (hvalue : value ∈ values) (hgiven : ¬ value.IsDefault) :
    ∃ before after v, vs = before ++ v :: after ∧ values[before.length]? = some value ∧ value.SpelledBy v := by
  induction vs generalizing values with
  | nil =>
      cases h with
      | omitted hvalues => exact absurd (hvalues value hvalue) hgiven
  | cons v vs ih =>
      cases h with
      | @given first values _ _ hfirst hrest =>
          rcases List.mem_cons.mp hvalue with rfl | hvalue
          · exact ⟨[], vs, v, rfl, rfl, hfirst⟩
          · obtain ⟨before, after, w, hvs, hindex, hw⟩ := ih hrest hvalue
            exact ⟨v :: before, after, w, by rw [hvs, List.cons_append], hindex, hw⟩

theorem Schema.element_type {before : List Json} (h : (fields.map Prod.snd)[before.length]? = some f.2) :
    ((Schema.ofFields fields).map Prod.snd)[before.length]? = some f.2.type := by
  rw [Schema.types_ofFields, List.getElem?_map, h, Option.map_some]

/-- A field that does not go without saying stands in one of its slots. -/
theorem Fields.SpelledBy.exists_slot {v : Json} (h : Fields.SpelledBy fields v) (hf : f ∈ fields)
    (hnodup : (fields.map Prod.fst).Nodup) (hgiven : ¬ f.2.IsDefault) :
    ∃ field w, (Schema.ofFields fields).Slot f.2.type field ∧ v = field w ∧ f.2.SpelledBy w := by
  cases h with
  | object hfields =>
      obtain ⟨before, after, w, rfl, hw⟩ := (hfields f hf).exists_member hgiven
      exact ⟨_, w, .member (Schema.type?_of_mem hnodup hf), rfl, hw⟩
  | array hfields =>
      obtain ⟨before, after, w, rfl, hindex, hw⟩ := hfields.exists_element (List.mem_map_of_mem hf) hgiven
      exact ⟨_, w, .element (Schema.element_type hindex), rfl, hw⟩

theorem Token.SpelledBy.exists_fieldSlot {t : Token} {v : Json} (h : t.SpelledBy v) (hfits : t.FitsKind)
    (hf : f ∈ t.fields) (hgiven : ¬ f.2.IsDefault) :
    ∃ field w, Token.FieldSlot f.2.type field ∧ v = field w ∧ f.2.SpelledBy w := by
  have hname : t.tag.schema.type? f.1 = some f.2.type := by
    rw [schema_tag, Schema.type?_of_mem t.nodup_names_fields hf]
  cases h with
  | object only htype hfields =>
      obtain ⟨before, after, w, rfl, hw⟩ := (hfields f hf).exists_member hgiven
      have hother : f.1 ≠ "type" := by
        intro hsame
        cases (hsame ▸ t.tag.type?_type).symm.trans hname
      have htag := Tag.ofObject?_eq_some_iff.mpr ⟨_, only, Tag.ofJson?_eq_tag_iff.mpr ⟨htype, hfits⟩⟩
      rw [Tag.ofObject?_insert hother] at htag
      exact ⟨_, w, .member htag hname, rfl, hw⟩
  | array htype hfields =>
      obtain ⟨before, after, w, rfl, hindex, hw⟩ := hfields.exists_element (List.mem_map_of_mem hf) hgiven
      refine ⟨_, w, .element (Tag.ofJson?_eq_tag_iff.mpr ⟨htype, hfits⟩) ?_, rfl, hw⟩
      rw [schema_tag]
      exact Schema.element_type hindex

end Fields

theorem FieldValue.not_isDefault_of_mem_inner {value : FieldValue} {u : Token} (hu : u ∈ value.inner) :
    ¬ value.IsDefault := by
  intro h
  rw [inner_of_isDefault h] at hu
  cases hu

theorem exists_slot_of_mem_tokens {ts : List Token} {vs : List Json} (h : List.Forall₂ Token.SpelledBy ts vs)
    {u : Token} (hu : u ∈ ts) :
    ∃ token w, FieldType.Slot .tokens token ∧ Json.arr vs = token w ∧ u.SpelledBy w := by
  obtain ⟨before, after, w, hvs, hw⟩ := exists_among_of_mem h hu
  exact ⟨_, w, .token, hvs, hw⟩

theorem Fields.SpelledBy.exists_tokenSlot {fields : List (String × FieldValue)} {v : Json}
    (h : Fields.SpelledBy fields v) (hnodup : (fields.map Prod.fst).Nodup) {ts : List Token}
    (hf : ("tokens", .tokens ts) ∈ fields) {u : Token} (hu : u ∈ ts) :
    ∃ field token w, (Schema.ofFields fields).Slot .tokens field ∧ FieldType.Slot .tokens token ∧
      v = field (token w) ∧ u.SpelledBy w := by
  have hgiven : ¬ (FieldValue.tokens ts).IsDefault := FieldValue.not_isDefault_of_mem_inner hu
  obtain ⟨field, x, hfield, rfl, hx⟩ := h.exists_slot hf hnodup hgiven
  cases hx with
  | tokens hts =>
      obtain ⟨token, w, htoken, hvs, hw⟩ := exists_slot_of_mem_tokens hts hu
      exact ⟨field, token, w, hfield, htoken, by rw [hvs], hw⟩

theorem exists_slot_of_mem_cells {cells : List (Cell Token)} {vs : List Json}
    (h : List.Forall₂ (fun cell v => Fields.SpelledBy cell.fields v) cells vs) {u : Token}
    (hu : u ∈ cells.flatMap Cell.tokens) :
    ∃ token w, FieldType.Slot .cells token ∧ Json.arr vs = token w ∧ u.SpelledBy w := by
  obtain ⟨cell, hcell, hu⟩ := List.mem_flatMap.mp hu
  obtain ⟨before, after, v, hvs, hv⟩ := exists_among_of_mem h hcell
  obtain ⟨field, token, w, hfield, htoken, rfl, hw⟩ :=
    hv.exists_tokenSlot (Cell.layout.nodup_names cell) (by simp [Cell.fields]) hu
  exact ⟨_, w, .cell hfield htoken, hvs, hw⟩

/-- A token in the value of a field stands in one of the slots for it. -/
theorem FieldValue.SpelledBy.exists_slot {value : FieldValue} {v : Json} (h : value.SpelledBy v) {u : Token}
    (hu : u ∈ value.inner) : ∃ token w, value.type.Slot token ∧ v = token w ∧ u.SpelledBy w := by
  cases h with
  | tokens hts => exact exists_slot_of_mem_tokens hts hu
  | someTokens hts =>
      obtain ⟨before, after, w, hvs, hw⟩ := exists_among_of_mem hts hu
      exact ⟨_, w, .maybeToken, hvs, hw⟩
  | items hitems =>
      obtain ⟨item, hitem, hu⟩ := List.mem_flatMap.mp hu
      obtain ⟨before, after, v, hvs, hv⟩ := exists_among_of_mem hitems hitem
      obtain ⟨field, token, w, hfield, htoken, rfl, hw⟩ :=
        hv.exists_tokenSlot (Item.layout.nodup_names item) (by simp [Item.fields]) hu
      exact ⟨_, w, .item hfield htoken, hvs, hw⟩
  | cells hcells => exact exists_slot_of_mem_cells hcells hu
  | rows hrows =>
      obtain ⟨cell, hcell, hu⟩ := List.mem_flatMap.mp hu
      obtain ⟨row, hrow, hcell⟩ := List.mem_flatten.mp hcell
      obtain ⟨before, after, v, hvs, hv⟩ := exists_among_of_mem hrows hrow
      cases hv with
      | cells hcells =>
          obtain ⟨token, w, htoken, hv, hw⟩ :=
            exists_slot_of_mem_cells hcells (List.mem_flatMap.mpr ⟨cell, hcell, hu⟩)
          exact ⟨_, w, .row htoken, by rw [hvs, hv], hw⟩
  | _ => cases hu

namespace Token

/-- A token at any depth of a token stands in a slot. -/
theorem SpelledBy.exists_slot {t : Token} {v : Json} (h : t.SpelledBy v) (hfits : t.KindsFit) {u : Token}
    (hu : u ∈ t.all) : ∃ slot w, Token.Slot slot ∧ v = slot w ∧ Token.ofJson? w = some u := by
  induction t using Token.induct generalizing v with
  | step t ih =>
      rw [all_eq] at hu
      rcases List.mem_cons.mp hu with rfl | hu
      · exact ⟨_, v, .self, rfl, (u.readsBack v).mpr ⟨h, hfits⟩⟩
      · obtain ⟨hfit, hinner⟩ := (kindsFit_iff t).mp hfits
        -- The slot in the child is put into that of the child, and this into that of its field.
        obtain ⟨child, hchild, hu⟩ := List.mem_flatMap.mp hu
        obtain ⟨f, hf, hmem⟩ := List.mem_flatMap.mp (t.inner_eq_flatMap_fields ▸ hchild)
        obtain ⟨field, x, hfield, rfl, hx⟩ :=
          h.exists_fieldSlot hfit hf (FieldValue.not_isDefault_of_mem_inner hmem)
        obtain ⟨token, y, htoken, rfl, hy⟩ := hx.exists_slot hmem
        obtain ⟨slot, w, hslot, rfl, hw⟩ := ih child hchild hy (hinner child hchild) hu
        exact ⟨_, w, .inner hfield htoken hslot, rfl, hw⟩

/-- Every token of a list that was read was read in a slot; and once a value that is no token stands in any
slot of the list, the list cannot be read. -/
theorem listOfJson_of_malformed {v : Json} {ts : List Token} (hread : Token.listOfJson v = .ok ts) :
    (∀ t ∈ allOf ts, ∃ slot w, Token.ListSlot slot ∧ v = slot w ∧ Token.ofJson? w = some t) ∧
      ∀ slot w, Token.ListSlot slot → v = slot w → ∀ malformed, Token.ofJson? malformed = none →
        Token.listOfJson (slot malformed) = .error .badToken ∧
          ReadError.badToken.message =
            "Invalid token JSON: data did not match any variant of untagged enum Token" := by
  obtain ⟨vs, rfl, hspelled, hfits⟩ := listOfJson_eq_ok_iff.mp hread
  constructor
  · intro u hu
    obtain ⟨t, ht, hu⟩ := List.mem_flatMap.mp hu
    obtain ⟨before, after, x, hvs, hx⟩ := exists_among_of_mem hspelled ht
    obtain ⟨slot, w, hslot, rfl, hw⟩ := hx.exists_slot (hfits t ht) hu
    exact ⟨_, w, .mk hslot, hvs, hw⟩
  · rintro _ _ ⟨hslot⟩ - malformed hmalformed
    refine ⟨?_, rfl⟩
    have hnone := hslot.ofJson?_eq_none hmalformed
    simp only [Json.among, Token.listOfJson, listOfJson?_eq_mapM, mapM_among_eq_none hnone]

/-- A break with a number for a source is no break and no custom token either, in a quote as anywhere. -/
theorem listOfJson_of_malformed_break_in_quote :
    Token.listOfJson (.arr [.arr [.str "blockquote", .str "> -", .str "-", .arr [.obj [("type", .str "hr")]]]]) =
        .ok [.blockquote "> -" "-" [.hr ""]] ∧
      Token.listOfJson (.arr [.arr [.str "blockquote", .str "> -", .str "-",
        .arr [.obj [("type", .str "br"), ("raw", .int 1)]]]]) = .error .badToken := by
  have hread : Token.listOfJson
      (.arr [.arr [.str "blockquote", .str "> -", .str "-", .arr [.obj [("type", .str "hr")]]]]) =
        .ok [.blockquote "> -" "-" [.hr ""]] := by rfl
  have hfield : Token.FieldSlot .tokens (Json.among [.str "blockquote", .str "> -", .str "-"] []) :=
    .element (show Tag.ofJson? (.str "blockquote") = some (.builtIn .blockquote) from rfl) rfl
  have hslot : Token.ListSlot fun v =>
      Json.among [] [] (Json.among [.str "blockquote", .str "> -", .str "-"] [] (Json.among [] [] v)) :=
    .mk (.inner hfield .token .self)
  have hmalformed : Token.ofJson? (.obj [("type", .str "br"), ("raw", .int 1)]) = none := by rfl
  exact ⟨hread, ((listOfJson_of_malformed hread).2 _ _ hslot rfl _ hmalformed).1⟩

end Token
end MarkdownNodes
