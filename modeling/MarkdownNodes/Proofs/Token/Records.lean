import MarkdownNodes.Proofs.Token.Kinds

/-! The fields of an object or an array, read with a schema. If each value of a field is read from its
spellings and from nothing else, then so are all fields together. -/

namespace MarkdownNodes

/-! ### Fields that hold lists

The value is read whole, once the elements are. -/

theorem fieldValue?_tokens (vs : List Json) :
    fieldValue? .tokens (.arr vs) = (Token.listOfJson? vs).map .tokens := by
  simp only [fieldValue?, Option.bind_eq_bind, Option.map_eq_bind, Function.comp_def]

theorem fieldValue?_maybeTokens (vs : List Json) :
    fieldValue? .maybeTokens (.arr vs) = (Token.listOfJson? vs).map fun ts => .maybeTokens (some ts) := by
  simp only [fieldValue?, Option.bind_eq_bind, Option.map_eq_bind, Function.comp_def]

theorem fieldValue?_items (vs : List Json) :
    fieldValue? .items (.arr vs) =
      ((records? Item.schema vs).bind fun rs => rs.mapM Item.ofFields?).map .items := by
  simp only [fieldValue?, Option.bind_eq_bind, Option.map_eq_bind, Option.bind_assoc, Function.comp_def]

theorem fieldValue?_cells (vs : List Json) :
    fieldValue? .cells (.arr vs) =
      ((records? Cell.schema vs).bind fun rs => rs.mapM Cell.ofFields?).map .cells := by
  simp only [fieldValue?, Option.bind_eq_bind, Option.map_eq_bind, Option.bind_assoc, Function.comp_def]

theorem fieldValue?_rows (vs : List Json) :
    fieldValue? .rows (.arr vs) = ((recordRows? Cell.schema vs).bind fun rows =>
      rows.mapM fun row => row.mapM Cell.ofFields?).map .rows := by
  simp only [fieldValue?, Option.bind_eq_bind, Option.map_eq_bind, Option.bind_assoc, Function.comp_def]

/-! ### Lists element by element -/

section Lists

variable {α β γ : Type}

theorem mapM_eq_some_iff {f : α → Option β} {as : List α} {bs : List β} :
    as.mapM f = some bs ↔ List.Forall₂ (fun b a => f a = some b) bs as := by
  induction as generalizing bs with
  | nil => cases bs <;> simp
  | cons a as ih =>
      cases bs with
      | nil => simp [List.mapM_cons, Option.bind_eq_some_iff]
      | cons b bs =>
          simp only [List.mapM_cons, List.forall₂_cons, ← ih]
          cases f a <;> cases as.mapM f <;> simp

/-- Elements may be treated in two passes or each at once. -/
theorem mapM_bind_mapM_eq_some_iff {f : α → Option β} {g : β → Option γ} {as : List α} {cs : List γ} :
    ((as.mapM f).bind fun bs => bs.mapM g) = some cs ↔
      List.Forall₂ (fun c a => (f a).bind g = some c) cs as := by
  rw [← mapM_eq_some_iff]
  induction as generalizing cs with
  | nil => simp
  | cons a as ih =>
      have hrest : ((as.mapM f).bind fun bs => bs.mapM g) = as.mapM fun a => (f a).bind g :=
        Option.ext fun cs => ih
      simp only [List.mapM_cons, ← hrest]
      cases f a with
      | none => simp
      | some b => cases as.mapM f <;> cases hb : g b <;> simp [hb]

theorem forall₂_congr_of_mem {R S : α → β → Prop} {as : List α} {bs : List β}
    (h : ∀ a ∈ as, ∀ b, R a b ↔ S a b) : List.Forall₂ R as bs ↔ List.Forall₂ S as bs := by
  induction as generalizing bs with
  | nil => simp
  | cons a as ih =>
      rw [List.forall₂_cons_left_iff, List.forall₂_cons_left_iff]
      simp only [h a List.mem_cons_self, ih fun b hb => h b (List.mem_cons_of_mem a hb)]

end Lists

/-! ### Fields by name -/

namespace Schema

variable {fields : List (String × FieldValue)}

theorem type?_ofFields_eq_some_iff (hnodup : (fields.map Prod.fst).Nodup) {name : String} {type : FieldType} :
    (ofFields fields).type? name = some type ↔ ∃ f ∈ fields, f.1 = name ∧ f.2.type = type := by
  induction fields with
  | nil => simp [ofFields, type?]
  | cons f fields ih =>
      rw [List.map_cons, List.nodup_cons] at hnodup
      have hrest := ih hnodup.2
      by_cases hname : name = f.1
      · subst hname
        have habsent : ¬ ∃ g ∈ fields, g.1 = f.1 ∧ g.2.type = type := by
          rintro ⟨g, hg, hsame, -⟩
          exact hnodup.1 (hsame ▸ List.mem_map_of_mem hg)
        simp [ofFields, type?, habsent]
      · have hlookup : (ofFields (f :: fields)).type? name = (ofFields fields).type? name := by
          simp [ofFields, type?, List.lookup_cons, beq_false_of_ne hname]
        rw [hlookup, hrest]
        simp [Ne.symm hname]

theorem type?_of_mem (hnodup : (fields.map Prod.fst).Nodup) {f : String × FieldValue} (hf : f ∈ fields) :
    (ofFields fields).type? f.1 = some f.2.type :=
  (type?_ofFields_eq_some_iff hnodup).mpr ⟨f, hf, rfl, rfl⟩

/-- What is given under a known name is what the members under that name read as. -/
theorem filter_givenFields? {schema : Schema} {members : List (String × Json)}
    {given : List (String × FieldValue)} (h : givenFields? schema members = some given) {name : String}
    {type : FieldType} (hname : schema.type? name = some type) :
    List.Forall₂ (fun m g => m.1 = name ∧ g.1 = name ∧ fieldValue? type m.2 = some g.2)
      (members.filter (·.1 == name)) (given.filter (·.1 == name)) := by
  induction members generalizing given with
  | nil =>
      cases h
      exact List.Forall₂.nil
  | cons m members ih =>
      rw [givenFields?] at h
      split at h
      case h_1 known hknown =>
        obtain ⟨value, hvalue, h⟩ := Option.bind_eq_some_iff.mp h
        obtain ⟨rest, hrest, h⟩ := Option.bind_eq_some_iff.mp h
        cases h
        by_cases hsame : m.1 = name
        · cases hsame
          cases hname.symm.trans hknown
          simpa using ⟨hvalue, ih hrest⟩
        · simpa [hsame] using ih hrest
      case h_2 hunknown =>
        have hother : m.1 ≠ name := fun hsame => by simp [← hsame, hunknown] at hname
        simpa [hother] using ih h

theorem exists_givenFields? {schema : Schema} {members : List (String × Json)}
    (h : ∀ m ∈ members, ∀ type, schema.type? m.1 = some type → ∃ value, fieldValue? type m.2 = some value) :
    ∃ given, givenFields? schema members = some given := by
  induction members with
  | nil => exact ⟨[], rfl⟩
  | cons m members ih =>
      obtain ⟨given, hgiven⟩ := ih fun n hn => h n (List.mem_cons_of_mem m hn)
      rw [givenFields?]
      split
      case h_1 type htype =>
        obtain ⟨value, hvalue⟩ := h m List.mem_cons_self type htype
        exact ⟨(m.1, value) :: given, by simp [hvalue, hgiven]⟩
      case h_2 => exact ⟨given, hgiven⟩

theorem complete?_ofFields_iff {given : List (String × FieldValue)} :
    (ofFields fields).complete? given = some (fields.map Prod.snd) ↔
      ∀ f ∈ fields, (∃ g, given.filter (·.1 == f.1) = [g] ∧ g.2 = f.2) ∨
        (given.filter (·.1 == f.1) = [] ∧ f.2.IsDefault) := by
  rw [complete?, mapM_eq_some_iff, ofFields, List.forall₂_map_left_iff, List.forall₂_map_right_iff,
    List.forall₂_same]
  refine forall₂_congr fun f _ => ?_
  dsimp only
  split
  case h_1 hnone =>
    rw [hnone]
    simp [FieldValue.isDefault_iff]
  case h_2 name value hone =>
    rw [hone]
    simp
  case h_3 hnot hnotone =>
    simp only [reduceCtorEq, false_iff, not_or]
    refine ⟨?_, fun h => hnot h.1⟩
    rintro ⟨g, hg, -⟩
    exact hnotone g.1 g.2 hg
end Schema

/-! ### Reading back -/

/-- The kinds of all tokens in the value fit. -/
def FieldValue.KindsFit (value : FieldValue) : Prop := ∀ u ∈ value.inner, u.KindsFit

theorem FieldValue.kindsFit_of_isDefault {value : FieldValue} (h : value.IsDefault) : value.KindsFit := by
  simp [KindsFit, inner_of_isDefault h]

/-- The token is read from its spellings and from nothing else, if the kinds of its tokens fit. -/
def Token.ReadsBack (t : Token) : Prop := ∀ v, Token.ofJson? v = some t ↔ t.SpelledBy v ∧ t.KindsFit

/-- The same of the value of a field. -/
def FieldValue.ReadsBack (value : FieldValue) : Prop :=
  ∀ v, fieldValue? value.type v = some value ↔ value.SpelledBy v ∧ value.KindsFit

section Records

variable {fields : List (String × FieldValue)}

theorem givenFields?_complete?_iff (hnodup : (fields.map Prod.fst).Nodup) (hreads : ∀ f ∈ fields, f.2.ReadsBack)
    {members : List (String × Json)} :
    ((givenFields? (.ofFields fields) members).bind fun given => (Schema.ofFields fields).complete? given) =
        some (fields.map Prod.snd) ↔
      (∀ f ∈ fields, Field.NamedIn f members) ∧ ∀ f ∈ fields, f.2.KindsFit := by
  rw [Option.bind_eq_some_iff]
  -- Field by field: the members under its name and the values given under its name correspond, so there
  -- is one of each or none of either.
  constructor
  · rintro ⟨given, hgiven, hcomplete⟩
    rw [← forall₂_and]
    intro f hf
    have hfilter := Schema.filter_givenFields? hgiven (Schema.type?_of_mem hnodup hf)
    rcases Schema.complete?_ofFields_iff.mp hcomplete f hf with ⟨g, hg, hvalue⟩ | ⟨hnone, hdefault⟩
    · rw [hg, List.forall₂_cons_right_iff] at hfilter
      obtain ⟨⟨name, v⟩, rest, ⟨hname, -, hread⟩, hrest, hmembers⟩ := hfilter
      rw [List.forall₂_nil_right_iff.mp hrest] at hmembers
      cases hname
      rw [hvalue] at hread
      obtain ⟨hspelled, hfits⟩ := (hreads f hf v).mp hread
      exact ⟨.given hmembers hspelled, hfits⟩
    · rw [hnone, List.forall₂_nil_right_iff] at hfilter
      exact ⟨.omitted hfilter hdefault, FieldValue.kindsFit_of_isDefault hdefault⟩
  · rintro ⟨hnamed, hfits⟩
    -- A known member is the only one of its name, so it spells the field and is read.
    have hreadable : ∀ m ∈ members, ∀ type, (Schema.ofFields fields).type? m.1 = some type →
        ∃ value, fieldValue? type m.2 = some value := by
      intro m hm type htype
      obtain ⟨f, hf, hname, rfl⟩ := (Schema.type?_ofFields_eq_some_iff hnodup).mp htype
      have hmem : m ∈ members.filter (·.1 == f.1) := by simp [hm, hname]
      cases hnamed f hf with
      | omitted absent => simp [absent] at hmem
      | given only hvalue =>
          rw [only, List.mem_singleton] at hmem
          subst hmem
          exact ⟨_, (hreads _ hf _).mpr ⟨hvalue, hfits _ hf⟩⟩
    obtain ⟨given, hgiven⟩ := Schema.exists_givenFields? hreadable
    refine ⟨given, hgiven, Schema.complete?_ofFields_iff.mpr fun f hf => ?_⟩
    have hfilter := Schema.filter_givenFields? hgiven (Schema.type?_of_mem hnodup hf)
    cases hnamed f hf with
    | omitted absent hdefault =>
        rw [absent, List.forall₂_nil_left_iff] at hfilter
        exact Or.inr ⟨hfilter, hdefault⟩
    | given only hvalue =>
        rw [only, List.forall₂_cons_left_iff] at hfilter
        obtain ⟨g, rest, ⟨-, -, hread⟩, hrest, hg⟩ := hfilter
        rw [List.forall₂_nil_left_iff.mp hrest] at hg
        rw [(hreads _ hf _).mpr ⟨hvalue, hfits _ hf⟩] at hread
        exact Or.inl ⟨g, hg, (Option.some.inj hread).symm⟩

theorem orderedFields?_nil_iff {values : List FieldValue} :
    orderedFields? (values.map FieldValue.type) [] = some values ↔ ∀ value ∈ values, value.IsDefault := by
  have hdefaults : orderedFields? (values.map FieldValue.type) [] =
      some (values.map fun value => value.type.default) := by
    cases values <;> simp [orderedFields?]
  rw [hdefaults, Option.some_inj]
  calc values.map (fun value => value.type.default) = values
      ↔ values.map (fun value => value.type.default) = values.map id := by rw [List.map_id]
    _ ↔ ∀ value ∈ values, value.type.default = id value := List.map_inj_left
    _ ↔ ∀ value ∈ values, value.IsDefault := by simp only [FieldValue.isDefault_iff, id]

theorem orderedFields?_iff {values : List FieldValue} (hreads : ∀ value ∈ values, value.ReadsBack)
    {vs : List Json} :
    orderedFields? (values.map FieldValue.type) vs = some values ↔
      Fields.InOrder values vs ∧ ∀ value ∈ values, value.KindsFit := by
  induction vs generalizing values with
  | nil =>
      rw [orderedFields?_nil_iff]
      constructor
      · intro h
        exact ⟨.omitted h, fun value hvalue => FieldValue.kindsFit_of_isDefault (h value hvalue)⟩
      · rintro ⟨⟨h⟩, -⟩
        exact h
  | cons v vs ih =>
      cases values with
      | nil =>
          simp only [List.map_nil, orderedFields?, reduceCtorEq, false_iff, not_and]
          intro h
          cases h
      | cons value values =>
          have hfirst := hreads value List.mem_cons_self v
          have hrest := ih fun other hother => hreads other (List.mem_cons_of_mem value hother)
          rw [List.map_cons, orderedFields?]
          constructor
          · intro h
            obtain ⟨_, hread, h⟩ := Option.bind_eq_some_iff.mp h
            obtain ⟨_, hreadRest, h⟩ := Option.bind_eq_some_iff.mp h
            cases h
            obtain ⟨hspelled, hfits⟩ := hfirst.mp hread
            obtain ⟨hspelledRest, hfitsRest⟩ := hrest.mp hreadRest
            exact ⟨.given hspelled hspelledRest, List.forall_mem_cons.mpr ⟨hfits, hfitsRest⟩⟩
          · rintro ⟨⟨⟩ | ⟨hspelled, hspelledRest⟩, hfits⟩
            obtain ⟨hfit, hfitsRest⟩ := List.forall_mem_cons.mp hfits
            simp [hfirst.mpr ⟨hspelled, hfit⟩, hrest.mpr ⟨hspelledRest, hfitsRest⟩]

theorem orderedFields?_fields_iff (hreads : ∀ f ∈ fields, f.2.ReadsBack) {vs : List Json} :
    orderedFields? ((fields.map Prod.snd).map FieldValue.type) vs = some (fields.map Prod.snd) ↔
      Fields.InOrder (fields.map Prod.snd) vs ∧ ∀ f ∈ fields, f.2.KindsFit := by
  rw [orderedFields?_iff (List.forall_mem_map.mpr hreads), List.forall_mem_map]

theorem record?_iff (hnodup : (fields.map Prod.fst).Nodup) (hreads : ∀ f ∈ fields, f.2.ReadsBack) {v : Json} :
    record? (.ofFields fields) v = some (fields.map Prod.snd) ↔
      Fields.SpelledBy fields v ∧ ∀ f ∈ fields, f.2.KindsFit := by
  cases v with
  | obj members =>
      simp only [record?]
      refine (givenFields?_complete?_iff hnodup hreads).trans (and_congr_left fun _ => ?_)
      exact ⟨.object, fun h => by cases h with | object hfields => exact hfields⟩
  | arr values =>
      rw [record?, Schema.types_ofFields, orderedFields?_fields_iff hreads]
      refine and_congr_left fun _ => ?_
      exact ⟨.array, fun h => by cases h with | array hfields => exact hfields⟩
  | _ =>
      simp only [record?, reduceCtorEq, false_iff, not_and]
      intro h
      cases h

end Records

/-! ### Lists of records -/

theorem records?_eq_mapM (schema : Schema) (vs : List Json) : records? schema vs = vs.mapM (record? schema) := by
  induction vs with
  | nil => rfl
  | cons v vs ih => simp [records?, List.mapM_cons, ih]

/-- Rows are arrays of records. -/
theorem recordRows?_eq_mapM (schema : Schema) (vs : List Json) :
    recordRows? schema vs = vs.mapM fun
      | .arr ws => records? schema ws
      | _ => none := by
  induction vs with
  | nil => rfl
  | cons v vs ih => cases v <;> simp [recordRows?, List.mapM_cons, ih]

theorem Layout.records?_iff {α : Type} (layout : Layout α) {as : List α}
    (h : ∀ a ∈ as, ∀ f ∈ layout.fields a, f.2.ReadsBack) {vs : List Json} :
    ((records? layout.schema vs).bind fun rs => rs.mapM layout.ofFields?) = some as ↔
      List.Forall₂ (fun a v => Fields.SpelledBy (layout.fields a) v) as vs ∧
        ∀ a ∈ as, ∀ f ∈ layout.fields a, f.2.KindsFit := by
  rw [records?_eq_mapM, mapM_bind_mapM_eq_some_iff, and_comm, ← List.forall₂_and_left]
  refine forall₂_congr_of_mem fun a ha v => ?_
  calc (record? layout.schema v).bind layout.ofFields? = some a
      ↔ record? (.ofFields (layout.fields a)) v = some ((layout.fields a).map Prod.snd) := by
        simp [Option.bind_eq_some_iff, layout.ofFields?_eq_some_iff, ← layout.schema_eq a]
    _ ↔ _ := (record?_iff (layout.nodup_names a) (h a ha)).trans and_comm

end MarkdownNodes
