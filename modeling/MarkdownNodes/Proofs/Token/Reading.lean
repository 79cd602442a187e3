import MarkdownNodes.Proofs.Token.Records

/-! Reading tokens back. The reader accepts the spellings of a token list and nothing else, and what it
reads is the list that is spelled; only a custom token of a built-in kind cannot be read. By induction
over the token, through the values of its fields. -/

namespace MarkdownNodes

theorem Align.ofName?_eq_some_iff {s : String} {align : Align} : Align.ofName? s = some align ↔ s = align.name := by
  constructor
  · intro h
    unfold Align.ofName? at h
    split at h <;> cases h <;> rfl
  · rintro rfl
    cases align <;> rfl

theorem Align.ofJson?_eq_some_iff {v : Json} {align : Option Align} :
    Align.ofJson? v = some align ↔ Align.SpelledBy align v := by
  constructor
  · intro h
    unfold Align.ofJson? at h
    split at h
    case h_1 => cases h; exact .absent
    case h_5 => cases h
    all_goals
      obtain ⟨a, ha, rfl⟩ := Option.map_eq_some_iff.mp h
      cases Align.ofName?_eq_some_iff.mp ha
      constructor
  · rintro (_ | a | a | a)
    · rfl
    all_goals simp [Align.ofJson?, Align.ofName?_eq_some_iff]

theorem Token.listOfJson?_eq_mapM (vs : List Json) : Token.listOfJson? vs = vs.mapM Token.ofJson? := by
  induction vs with
  | nil => rfl
  | cons v vs ih => simp [Token.listOfJson?, List.mapM_cons, ih]

theorem Token.listOfJson?_eq_some_iff {ts : List Token} (h : ∀ t ∈ ts, t.ReadsBack) {vs : List Json} :
    Token.listOfJson? vs = some ts ↔ List.Forall₂ Token.SpelledBy ts vs ∧ ∀ t ∈ ts, t.KindsFit := by
  rw [Token.listOfJson?_eq_mapM, mapM_eq_some_iff, and_comm, ← List.forall₂_and_left]
  exact forall₂_congr_of_mem fun t ht v => (h t ht v).trans and_comm

/-! ### Values of fields -/

namespace FieldValue

theorem spelledBy_depth_iff {n : UInt8} {v : Json} :
    fieldValue? .depth v = some (.depth n) ↔ (depth n).SpelledBy v := by
  constructor
  · intro h
    cases v with
    | int m =>
        simp only [fieldValue?] at h
        split at h
        case isTrue hm =>
          have hn : (UInt8.ofNat m.toNat).toNat = m.toNat :=
            UInt8.toNat_ofNat_of_lt' ((Int.toNat_lt hm.1).mpr hm.2)
          cases h
          have hspelled := SpelledBy.depth (UInt8.ofNat m.toNat)
          rwa [hn, Int.toNat_of_nonneg hm.1] at hspelled
        case isFalse => cases h
    | _ => cases h
  · rintro ⟨⟩
    have hrange : (0 : Int) ≤ n.toNat ∧ (n.toNat : Int) < UInt8.size :=
      ⟨Int.natCast_nonneg _, Int.ofNat_lt.mpr n.toNat_lt_size⟩
    rw [fieldValue?, if_pos hrange, Int.toNat_natCast, UInt8.ofNat_toNat]

theorem spelledBy_start_iff {n : UInt32} {v : Json} :
    fieldValue? .start v = some (.start n) ↔ (start n).SpelledBy v := by
  constructor
  · intro h
    cases v with
    | int m =>
        simp only [fieldValue?] at h
        split at h
        case isTrue hm =>
          have hn : (UInt32.ofNat m.toNat).toNat = m.toNat :=
            UInt32.toNat_ofNat_of_lt' ((Int.toNat_lt hm.1).mpr hm.2)
          cases h
          have hspelled := SpelledBy.start (UInt32.ofNat m.toNat)
          rwa [hn, Int.toNat_of_nonneg hm.1] at hspelled
        case isFalse => cases h
    | str s => cases h; exact .startText s
    | null => cases h; exact .startNull
    | _ => cases h
  · intro h
    cases h with
    | start =>
        have hrange : (0 : Int) ≤ n.toNat ∧ (n.toNat : Int) < UInt32.size :=
          ⟨Int.natCast_nonneg _, Int.ofNat_lt.mpr n.toNat_lt_size⟩
        rw [fieldValue?, if_pos hrange, Int.toNat_natCast, UInt32.ofNat_toNat]
    | startText => rfl
    | startNull => rfl

/-- A value without tokens is read from its spellings. -/
theorem readsBack_of_inner_eq_nil {value : FieldValue} (hinner : value.inner = [])
    (h : ∀ v, fieldValue? value.type v = some value ↔ value.SpelledBy v) : value.ReadsBack := by
  intro v
  have hfits : value.KindsFit := by simp [KindsFit, hinner]
  rw [h v, and_iff_left hfits]

theorem readsBack_text (s : String) : (text s).ReadsBack := by
  refine readsBack_of_inner_eq_nil rfl fun v => ⟨fun h => ?_, fun h => by cases h; rfl⟩
  cases v <;> cases h
  exact .text s

theorem readsBack_flag (b : Bool) : (flag b).ReadsBack := by
  refine readsBack_of_inner_eq_nil rfl fun v => ⟨fun h => ?_, fun h => by cases h; rfl⟩
  cases v <;> cases h
  exact .flag b

theorem readsBack_maybeText (s : Option String) : (maybeText s).ReadsBack := by
  refine readsBack_of_inner_eq_nil rfl fun v => ⟨fun h => ?_, fun h => by cases h <;> rfl⟩
  cases v <;> cases h
  · exact .noText
  · exact .someText _

theorem readsBack_maybeFlag (b : Option Bool) : (maybeFlag b).ReadsBack := by
  refine readsBack_of_inner_eq_nil rfl fun v => ⟨fun h => ?_, fun h => by cases h <;> rfl⟩
  cases v <;> cases h
  · exact .noFlag
  · exact .someFlag _

theorem readsBack_maybeAlign (align : Option Align) : (maybeAlign align).ReadsBack := by
  refine readsBack_of_inner_eq_nil rfl fun v => ?_
  have hread : fieldValue? .maybeAlign v = (Align.ofJson? v).map maybeAlign := by cases v <;> rfl
  rw [type, hread, Option.map_eq_some_iff]
  constructor
  · rintro ⟨_, h, hsame⟩
    cases hsame
    exact .align (Align.ofJson?_eq_some_iff.mp h)
  · intro h
    cases h with
    | align h => exact ⟨align, Align.ofJson?_eq_some_iff.mpr h, rfl⟩

theorem readsBack_aligns (columns : List (Option Align)) : (aligns columns).ReadsBack := by
  have hread : ∀ vs : List Json,
      vs.mapM Align.ofJson? = some columns ↔ List.Forall₂ Align.SpelledBy columns vs := by
    intro vs
    simp only [mapM_eq_some_iff, Align.ofJson?_eq_some_iff]
  refine readsBack_of_inner_eq_nil rfl fun v => ⟨fun h => ?_, fun h => ?_⟩
  · cases v with
    | arr vs =>
        obtain ⟨_, hcolumns, hsame⟩ := Option.map_eq_some_iff.mp h
        cases hsame
        exact .aligns ((hread vs).mp hcolumns)
    | _ => cases h
  · cases h with
    | aligns h => rw [type, fieldValue?, (hread _).mpr h, Option.map_some]

theorem readsBack_tokens {ts : List Token} (h : ∀ t ∈ ts, t.ReadsBack) : (tokens ts).ReadsBack := by
  intro v
  cases v with
  | arr vs =>
      have hspelled : (tokens ts).SpelledBy (.arr vs) ↔ List.Forall₂ Token.SpelledBy ts vs :=
        ⟨fun h => by cases h with | tokens h => exact h, .tokens⟩
      rw [type, fieldValue?_tokens, hspelled]
      simp only [Option.map_eq_some_iff, tokens.injEq, exists_eq_right, Token.listOfJson?_eq_some_iff h,
        KindsFit, inner]
  | _ =>
      refine iff_of_false (fun h => ?_) fun h => ?_
      · cases h
      · cases h.1

theorem readsBack_maybeTokens {ts : Option (List Token)} (h : ∀ t ∈ ts.getD [], t.ReadsBack) :
    (maybeTokens ts).ReadsBack := by
  intro v
  cases ts with
  | none =>
      have hfits : (maybeTokens none).KindsFit := by simp [KindsFit, inner]
      cases v with
      | null => exact iff_of_true rfl ⟨.noTokens, hfits⟩
      | arr vs =>
          refine iff_of_false (fun h => ?_) fun h => ?_
          · obtain ⟨_, _, hsome⟩ := Option.bind_eq_some_iff.mp h
            cases hsome
          · cases h.1
      | _ =>
          refine iff_of_false (fun h => ?_) fun h => ?_
          · cases h
          · cases h.1
  | some ts =>
      cases v with
      | arr vs =>
          have hspelled : (maybeTokens (some ts)).SpelledBy (.arr vs) ↔ List.Forall₂ Token.SpelledBy ts vs :=
            ⟨fun h => by cases h with | someTokens h => exact h, .someTokens⟩
          rw [type, fieldValue?_maybeTokens, hspelled]
          simp only [Option.map_eq_some_iff, maybeTokens.injEq, Option.some.injEq, exists_eq_right]
          exact Token.listOfJson?_eq_some_iff h
      | _ =>
          refine iff_of_false (fun h => ?_) fun h => ?_
          · cases h
          · cases h.1

theorem readsBack_fields_item {item : Item Token} (h : ∀ u ∈ item.tokens, u.ReadsBack) :
    ∀ f ∈ item.fields, f.2.ReadsBack := by
  simp [Item.fields, readsBack_text, readsBack_flag, readsBack_maybeFlag, readsBack_tokens h]

theorem readsBack_fields_cell {cell : Cell Token} (h : ∀ u ∈ cell.tokens, u.ReadsBack) :
    ∀ f ∈ cell.fields, f.2.ReadsBack := by
  simp [Cell.fields, readsBack_text, readsBack_flag, readsBack_maybeAlign, readsBack_tokens h]

theorem kindsFit_fields_item {item : Item Token} :
    (∀ f ∈ item.fields, f.2.KindsFit) ↔ ∀ u ∈ item.tokens, u.KindsFit := by
  simp [Item.fields, KindsFit, inner]

theorem kindsFit_fields_cell {cell : Cell Token} :
    (∀ f ∈ cell.fields, f.2.KindsFit) ↔ ∀ u ∈ cell.tokens, u.KindsFit := by
  simp [Cell.fields, KindsFit, inner]

theorem records?_items_iff {is : List (Item Token)} (h : ∀ item ∈ is, ∀ u ∈ item.tokens, u.ReadsBack)
    {vs : List Json} : ((records? Item.schema vs).bind fun rs => rs.mapM Item.ofFields?) = some is ↔
      List.Forall₂ (fun item v => Fields.SpelledBy item.fields v) is vs ∧
        ∀ item ∈ is, ∀ u ∈ item.tokens, u.KindsFit := by
  simp only [← kindsFit_fields_item]
  exact Item.layout.records?_iff fun item hitem => readsBack_fields_item (h item hitem)

theorem records?_cells_iff {cs : List (Cell Token)} (h : ∀ cell ∈ cs, ∀ u ∈ cell.tokens, u.ReadsBack)
    {vs : List Json} : ((records? Cell.schema vs).bind fun rs => rs.mapM Cell.ofFields?) = some cs ↔
      List.Forall₂ (fun cell v => Fields.SpelledBy cell.fields v) cs vs ∧
        ∀ cell ∈ cs, ∀ u ∈ cell.tokens, u.KindsFit := by
  simp only [← kindsFit_fields_cell]
  exact Cell.layout.records?_iff fun cell hcell => readsBack_fields_cell (h cell hcell)

theorem recordRows?_cells_iff {rs : List (List (Cell Token))}
    (h : ∀ row ∈ rs, ∀ cell ∈ row, ∀ u ∈ cell.tokens, u.ReadsBack) {vs : List Json} :
    ((recordRows? Cell.schema vs).bind fun rows => rows.mapM fun row => row.mapM Cell.ofFields?) = some rs ↔
      List.Forall₂ Row.SpelledBy rs vs ∧ ∀ row ∈ rs, ∀ cell ∈ row, ∀ u ∈ cell.tokens, u.KindsFit := by
  rw [recordRows?_eq_mapM, mapM_bind_mapM_eq_some_iff, and_comm, ← List.forall₂_and_left]
  refine forall₂_congr_of_mem fun row hrow v => ?_
  cases v with
  | arr vs =>
      refine (records?_cells_iff (h row hrow)).trans (and_comm.trans (and_congr_right fun _ => ?_))
      exact ⟨.cells, fun h => by cases h with | cells h => exact h⟩
  | _ =>
      simp only [Option.bind_none, reduceCtorEq, false_iff, not_and]
      intro _ h
      cases h

theorem readsBack_items {is : List (Item Token)} (h : ∀ item ∈ is, ∀ u ∈ item.tokens, u.ReadsBack) :
    (items is).ReadsBack := by
  intro v
  cases v with
  | arr vs =>
      have hspelled : (items is).SpelledBy (.arr vs) ↔
          List.Forall₂ (fun item v => Fields.SpelledBy item.fields v) is vs :=
        ⟨fun h => by cases h with | items h => exact h, .items⟩
      rw [type, fieldValue?_items, hspelled]
      simp only [Option.map_eq_some_iff, items.injEq, exists_eq_right, records?_items_iff h, KindsFit, inner,
        List.forall_mem_flatMap]
  | _ =>
      refine iff_of_false (fun h => ?_) fun h => ?_
      · cases h
      · cases h.1

theorem readsBack_cells {cs : List (Cell Token)} (h : ∀ cell ∈ cs, ∀ u ∈ cell.tokens, u.ReadsBack) :
    (cells cs).ReadsBack := by
  intro v
  cases v with
  | arr vs =>
      have hspelled : (cells cs).SpelledBy (.arr vs) ↔
          List.Forall₂ (fun cell v => Fields.SpelledBy cell.fields v) cs vs :=
        ⟨fun h => by cases h with | cells h => exact h, .cells⟩
      rw [type, fieldValue?_cells, hspelled]
      simp only [Option.map_eq_some_iff, cells.injEq, exists_eq_right, records?_cells_iff h, KindsFit, inner,
        List.forall_mem_flatMap]
  | _ =>
      refine iff_of_false (fun h => ?_) fun h => ?_
      · cases h
      · cases h.1

theorem readsBack_rows {rs : List (List (Cell Token))}
    (h : ∀ row ∈ rs, ∀ cell ∈ row, ∀ u ∈ cell.tokens, u.ReadsBack) : (rows rs).ReadsBack := by
  intro v
  cases v with
  | arr vs =>
      have hspelled : (rows rs).SpelledBy (.arr vs) ↔ List.Forall₂ Row.SpelledBy rs vs :=
        ⟨fun h => by cases h with | rows h => exact h, .rows⟩
      have hfits : (rows rs).KindsFit ↔ ∀ row ∈ rs, ∀ cell ∈ row, ∀ u ∈ cell.tokens, u.KindsFit := by
        simp only [KindsFit, inner, List.forall_mem_flatMap, List.forall_mem_flatten]
      rw [type, fieldValue?_rows, hspelled, hfits]
      simp only [Option.map_eq_some_iff, rows.injEq, exists_eq_right, recordRows?_cells_iff h]
  | _ =>
      refine iff_of_false (fun h => ?_) fun h => ?_
      · cases h
      · cases h.1

/-- The value of a field is read from its spellings, if the tokens in it are. -/
theorem readsBack (value : FieldValue) (h : ∀ u ∈ value.inner, u.ReadsBack) : value.ReadsBack := by
  cases value with
  | text s => exact readsBack_text s
  | flag b => exact readsBack_flag b
  | depth n => exact readsBack_of_inner_eq_nil rfl fun v => spelledBy_depth_iff
  | start n => exact readsBack_of_inner_eq_nil rfl fun v => spelledBy_start_iff
  | maybeText s => exact readsBack_maybeText s
  | maybeFlag b => exact readsBack_maybeFlag b
  | maybeAlign align => exact readsBack_maybeAlign align
  | aligns columns => exact readsBack_aligns columns
  | tokens ts => exact readsBack_tokens h
  | maybeTokens ts => exact readsBack_maybeTokens h
  | items is => exact readsBack_items fun item hitem u hu => h u (List.mem_flatMap.mpr ⟨item, hitem, hu⟩)
  | cells cs => exact readsBack_cells fun cell hcell u hu => h u (List.mem_flatMap.mpr ⟨cell, hcell, hu⟩)
  | rows rs =>
      exact readsBack_rows fun row hrow cell hcell u hu =>
        h u (List.mem_flatMap.mpr ⟨cell, List.mem_flatten.mpr ⟨row, hrow, hcell⟩, hu⟩)

end FieldValue

/-! ### Tokens -/

namespace Token

/-- A token is read from an object that has its type and its fields. -/
theorem ofJson?_obj_eq_some_iff {members : List (String × Json)} {t : Token} :
    ofJson? (.obj members) = some t ↔ Tag.ofObject? members = some t.tag ∧
      ((givenFields? (.ofFields t.fields) members).bind fun given =>
        (Schema.ofFields t.fields).complete? given) = some (t.fields.map Prod.snd) := by
  rw [ofJson?]
  constructor
  · intro h
    obtain ⟨tag, htag, h⟩ := Option.bind_eq_some_iff.mp h
    obtain ⟨given, hgiven, h⟩ := Option.bind_eq_some_iff.mp h
    obtain ⟨values, hvalues, h⟩ := Option.bind_eq_some_iff.mp h
    obtain ⟨rfl, rfl⟩ := token?_eq_some_iff.mp h
    rw [schema_tag] at hgiven hvalues
    exact ⟨htag, Option.bind_eq_some_iff.mpr ⟨given, hgiven, hvalues⟩⟩
  · rintro ⟨htag, h⟩
    obtain ⟨given, hgiven, hvalues⟩ := Option.bind_eq_some_iff.mp h
    rw [← schema_tag] at hgiven hvalues
    simp [htag, hgiven, hvalues, token?_eq_some_iff]

/-- A token is read from an array of its type and its fields. -/
theorem ofJson?_arr_eq_some_iff {type : Json} {values : List Json} {t : Token} :
    ofJson? (.arr (type :: values)) = some t ↔ Tag.ofJson? type = some t.tag ∧
      orderedFields? ((t.fields.map Prod.snd).map FieldValue.type) values = some (t.fields.map Prod.snd) := by
  rw [ofJson?]
  constructor
  · intro h
    obtain ⟨tag, htag, h⟩ := Option.bind_eq_some_iff.mp h
    obtain ⟨found, hfound, h⟩ := Option.bind_eq_some_iff.mp h
    obtain ⟨rfl, rfl⟩ := token?_eq_some_iff.mp h
    exact ⟨htag, by rwa [types_tag] at hfound⟩
  · rintro ⟨htag, hfound⟩
    rw [← types_tag] at hfound
    simp [htag, hfound, token?_eq_some_iff]

theorem readsBack_of_fields {t : Token} (h : ∀ f ∈ t.fields, f.2.ReadsBack) : t.ReadsBack := by
  intro v
  rw [kindsFit_iff_fields]
  cases v with
  | obj members =>
      rw [ofJson?_obj_eq_some_iff, givenFields?_complete?_iff t.nodup_names_fields h,
        Tag.ofObject?_eq_some_iff]
      constructor
      · rintro ⟨⟨type, hone, htype⟩, hnamed, hfits⟩
        obtain ⟨hspelled, hfit⟩ := Tag.ofJson?_eq_tag_iff.mp htype
        exact ⟨.object hone hspelled hnamed, hfit, hfits⟩
      · rintro ⟨hspelled, hfit, hfits⟩
        cases hspelled with
        | object only htype hnamed =>
            exact ⟨⟨_, only, Tag.ofJson?_eq_tag_iff.mpr ⟨htype, hfit⟩⟩, hnamed, hfits⟩
  | arr vs =>
      cases vs with
      | nil =>
          refine iff_of_false (fun h => ?_) fun h => ?_
          · cases h
          · cases h.1
      | cons type values =>
          rw [ofJson?_arr_eq_some_iff, orderedFields?_fields_iff h, Tag.ofJson?_eq_tag_iff]
          constructor
          · rintro ⟨⟨htype, hfit⟩, hspelled, hfits⟩
            exact ⟨.array htype hspelled, hfit, hfits⟩
          · rintro ⟨hspelled, hfit, hfits⟩
            cases hspelled with
            | array htype hspelled => exact ⟨⟨htype, hfit⟩, hspelled, hfits⟩
  | _ =>
      refine iff_of_false (fun h => ?_) fun h => ?_
      · cases h
      · cases h.1

/-- A token is read from its spellings and from nothing else, if its kinds fit. -/
theorem readsBack (t : Token) : t.ReadsBack := by
  induction t using Token.induct with
  | step t ih =>
      exact readsBack_of_fields fun f hf => f.2.readsBack fun u hu => ih u (mem_inner_of_mem_fields hf hu)

/-- The reader accepts exactly the lists of spellings of tokens whose kinds fit. -/
theorem listOfJson_eq_ok_iff {v : Json} {ts : List Token} :
    Token.listOfJson v = .ok ts ↔
      ∃ vs, v = .arr vs ∧ List.Forall₂ Token.SpelledBy ts vs ∧ ∀ t ∈ ts, t.KindsFit := by
  cases v with
  | arr vs =>
      have hlist : Token.listOfJson? vs = some ts ↔
          List.Forall₂ Token.SpelledBy ts vs ∧ ∀ t ∈ ts, t.KindsFit :=
        listOfJson?_eq_some_iff fun t _ => t.readsBack
      simp only [Json.arr.injEq, exists_eq_left', ← hlist]
      cases h : Token.listOfJson? vs <;> simp [Token.listOfJson, h]
  | _ => simp [Token.listOfJson]

/-- Every array of spellings of the tokens of a list, one of each, is read as that list, and no other array
is, if no custom token at any depth has the kind of a built-in one. -/
theorem listOfJson_arr_eq_ok_iff {ts : List Token} {vs : List Json} (hkinds : ∀ t ∈ allOf ts, t.FitsKind) :
    Token.listOfJson (.arr vs) = .ok ts ↔ List.Forall₂ Token.SpelledBy ts vs := by
  constructor
  · intro h
    obtain ⟨_, hvs, hspelled, -⟩ := listOfJson_eq_ok_iff.mp h
    cases hvs
    exact hspelled
  · intro h
    exact listOfJson_eq_ok_iff.mpr ⟨vs, rfl, h, forall_kindsFit_iff.mpr hkinds⟩

/-- A list in object form, its item under a skipped type, and a custom token in array form. -/
theorem listOfJson_spelled_list_and_note :
    (∀ t ∈ allOf [.list "" true 1 false [{ tokens := [.hr "-"] }], .custom "note" "!" "" []], t.FitsKind) ∧
      Token.listOfJson (.arr
        [.obj [("items", .arr [.obj [("type", .int 7), ("tokens", .arr [.arr [.int 1, .str "-"]])]]),
          ("start", .null), ("ordered", .bool true), ("type", .str "list")], .arr [.str "note", .str "!"]]) =
        .ok [.list "" true 1 false [{ tokens := [.hr "-"] }], .custom "note" "!" "" []] := by
  have hkinds : ∀ t ∈ allOf [.list "" true 1 false [{ tokens := [.hr "-"] }], .custom "note" "!" "" []],
      t.FitsKind := by
    simp [allOf, all_eq, inner, children, items, header, rows, FitsKind, builtIn?, kind, builtInKinds]
  have hhr : (Token.hr "-").SpelledBy (.arr [.int 1, .str "-"]) :=
    .array (show TypeSpelledBy _ (.int BuiltIn.hr.number) from .number rfl)
      (.given (.text "-") (.omitted (List.forall_mem_nil _)))
  have hitem : Fields.SpelledBy (Item.fields { tokens := [.hr "-"] })
      (.obj [("type", .int 7), ("tokens", .arr [.arr [.int 1, .str "-"]])]) := by
    refine .object ?_
    simp only [Item.fields, List.forall_mem_cons]
    exact ⟨.omitted rfl rfl, .omitted rfl rfl, .omitted rfl rfl, .omitted rfl rfl, .omitted rfl rfl,
      .given rfl (.tokens (.cons hhr .nil)), List.forall_mem_nil _⟩
  have hlist : (Token.list "" true 1 false [{ tokens := [.hr "-"] }]).SpelledBy
      (.obj [("items", .arr [.obj [("type", .int 7), ("tokens", .arr [.arr [.int 1, .str "-"]])]]),
        ("start", .null), ("ordered", .bool true), ("type", .str "list")]) := by
    refine .object rfl (.name _) ?_
    simp only [fields, List.forall_mem_cons]
    exact ⟨.omitted rfl rfl, .given rfl (.flag true), .given rfl .startNull, .omitted rfl rfl,
      .given rfl (.items (.cons hitem .nil)), List.forall_mem_nil _⟩
  have hnote : (Token.custom "note" "!" "" []).SpelledBy (.arr [.str "note", .str "!"]) :=
    .array (.name _) (.given (.text "!") (.omitted (by simp [FieldValue.IsDefault])))
  exact ⟨hkinds, (listOfJson_arr_eq_ok_iff hkinds).mpr (.cons hlist (.cons hnote .nil))⟩

end Token
end MarkdownNodes
