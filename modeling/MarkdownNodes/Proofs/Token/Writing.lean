import MarkdownNodes.Proofs.Token.Reading

/-! Writing tokens as JSON. Every token is written as an object of its type and all its fields by name.
What is written is a spelling of the token, whatever its kind, so a list that was read once is read again
from what is written of it; and the lists that can be read are those in which every kind fits. -/

namespace MarkdownNodes

def Align.toJson : Option Align → Json
  | none => .null
  | some align => .str align.name

def jsonOfText : Option String → Json
  | none => .null
  | some s => .str s

def jsonOfFlag : Option Bool → Json
  | none => .null
  | some b => .bool b

mutual

/-- The fields of a token, by name. -/
def Token.fieldsToJson : Token → List (String × Json)
  | .space raw | .hr raw | .br raw => [("raw", .str raw)]
  | .heading raw depth s ts =>
      [("raw", .str raw), ("depth", .int depth.toNat), ("text", .str s), ("tokens", .arr (Token.listToJson ts))]
  | .code raw s lang escaped =>
      [("raw", .str raw), ("text", .str s), ("lang", jsonOfText lang), ("escaped", .bool escaped)]
  | .table raw align header rows =>
      [("raw", .str raw), ("align", .arr (align.map Align.toJson)), ("header", .arr (Cell.listToJson header)),
        ("rows", .arr (Cell.rowsToJson rows))]
  | .list raw ordered start loose items =>
      [("raw", .str raw), ("ordered", .bool ordered), ("start", .int start.toNat), ("loose", .bool loose),
        ("items", .arr (Item.listToJson items))]
  | .listItem item => Item.fieldsToJson item
  | .html raw s block pre => [("raw", .str raw), ("text", .str s), ("block", .bool block), ("pre", .bool pre)]
  | .text raw s none escaped => [("raw", .str raw), ("text", .str s), ("tokens", .null), ("escaped", .bool escaped)]
  | .text raw s (some ts) escaped =>
      [("raw", .str raw), ("text", .str s), ("tokens", .arr (Token.listToJson ts)), ("escaped", .bool escaped)]
  | .escape raw s | .codespan raw s => [("raw", .str raw), ("text", .str s)]
  | .link raw href title s ts =>
      [("raw", .str raw), ("href", .str href), ("title", jsonOfText title), ("text", .str s),
        ("tokens", .arr (Token.listToJson ts))]
  | .image raw href title s =>
      [("raw", .str raw), ("href", .str href), ("title", jsonOfText title), ("text", .str s)]
  | .blockquote raw s ts | .paragraph raw s ts | .strong raw s ts | .em raw s ts | .del raw s ts
  | .custom _ raw s ts => [("raw", .str raw), ("text", .str s), ("tokens", .arr (Token.listToJson ts))]

/-- Each token as an object of its type and its fields. -/
def Token.listToJson : List Token → List Json
  | [] => []
  | t :: ts => .obj (("type", .str t.kind) :: Token.fieldsToJson t) :: Token.listToJson ts

def Item.fieldsToJson : Item Token → List (String × Json)
  | ⟨raw, s, task, checked, loose, ts⟩ =>
      [("raw", .str raw), ("text", .str s), ("task", .bool task), ("checked", jsonOfFlag checked),
        ("loose", .bool loose), ("tokens", .arr (Token.listToJson ts))]

def Item.listToJson : List (Item Token) → List Json
  | [] => []
  | item :: items => .obj (Item.fieldsToJson item) :: Item.listToJson items

def Cell.fieldsToJson : Cell Token → List (String × Json)
  | ⟨s, ts, header, align⟩ =>
      [("text", .str s), ("tokens", .arr (Token.listToJson ts)), ("header", .bool header),
        ("align", Align.toJson align)]

def Cell.listToJson : List (Cell Token) → List Json
  | [] => []
  | cell :: cells => .obj (Cell.fieldsToJson cell) :: Cell.listToJson cells

def Cell.rowsToJson : List (List (Cell Token)) → List Json
  | [] => []
  | cells :: rows => .arr (Cell.listToJson cells) :: Cell.rowsToJson rows

end

def Token.toJson (t : Token) : Json := .obj (("type", .str t.kind) :: t.fieldsToJson)

theorem Token.listToJson_eq (ts : List Token) : Token.listToJson ts = ts.map Token.toJson := by
  induction ts with
  | nil => rfl
  | cons t ts ih => rw [listToJson, ih, List.map_cons, toJson]

theorem Item.listToJson_eq (items : List (Item Token)) :
    Item.listToJson items = items.map fun item => .obj item.fieldsToJson := by
  induction items with
  | nil => rfl
  | cons item items ih => rw [listToJson, ih, List.map_cons]

theorem Cell.listToJson_eq (cells : List (Cell Token)) :
    Cell.listToJson cells = cells.map fun cell => .obj cell.fieldsToJson := by
  induction cells with
  | nil => rfl
  | cons cell cells ih => rw [listToJson, ih, List.map_cons]

theorem Cell.rowsToJson_eq (rows : List (List (Cell Token))) :
    Cell.rowsToJson rows = rows.map fun row => .arr (Cell.listToJson row) := by
  induction rows with
  | nil => rfl
  | cons row rows ih => rw [rowsToJson, ih, List.map_cons]

/-! ### What is written is a spelling -/

def FieldValue.toJson : FieldValue → Json
  | .text s => .str s
  | .flag b => .bool b
  | .depth n => .int n.toNat
  | .start n => .int n.toNat
  | .maybeText s => jsonOfText s
  | .maybeFlag b => jsonOfFlag b
  | .maybeAlign align => Align.toJson align
  | .aligns columns => .arr (columns.map Align.toJson)
  | .tokens ts => .arr (Token.listToJson ts)
  | .maybeTokens none => .null
  | .maybeTokens (some ts) => .arr (Token.listToJson ts)
  | .items is => .arr (Item.listToJson is)
  | .cells cs => .arr (Cell.listToJson cs)
  | .rows rs => .arr (Cell.rowsToJson rs)

def Fields.toJson (fields : List (String × FieldValue)) : List (String × Json) :=
  fields.map fun f => (f.1, f.2.toJson)

theorem Item.fieldsToJson_eq (item : Item Token) : item.fieldsToJson = Fields.toJson item.fields := by
  cases item
  rfl

theorem Cell.fieldsToJson_eq (cell : Cell Token) : cell.fieldsToJson = Fields.toJson cell.fields := by
  cases cell
  rfl

theorem Token.fieldsToJson_eq (t : Token) : t.fieldsToJson = Fields.toJson t.fields := by
  cases t with
  | listItem item => exact item.fieldsToJson_eq
  | text raw s ts escaped => cases ts <;> rfl
  | _ => rfl

/-- Among members of different names, each stands once. -/
theorem filter_name_eq_singleton {members : List (String × Json)} (hnodup : (members.map Prod.fst).Nodup)
    {m : String × Json} (hm : m ∈ members) : members.filter (·.1 == m.1) = [m] := by
  induction members with
  | nil => cases hm
  | cons n members ih =>
      rw [List.map_cons, List.nodup_cons] at hnodup
      rcases List.mem_cons.mp hm with rfl | hm
      · have hrest : members.filter (·.1 == m.1) = [] := by
          rw [List.filter_eq_nil_iff]
          intro other hother hsame
          exact hnodup.1 (beq_iff_eq.mp hsame ▸ List.mem_map_of_mem hother)
        simp [hrest]
      · have hname : n.1 ≠ m.1 := fun hsame => hnodup.1 (hsame ▸ List.mem_map_of_mem hm)
        simp [hname, ih hnodup.2 hm]

section Fields

variable {fields : List (String × FieldValue)} (hspelled : ∀ f ∈ fields, f.2.SpelledBy f.2.toJson)
include hspelled

theorem Fields.namedIn_of_mem {members : List (String × Json)} (hnodup : (members.map Prod.fst).Nodup)
    (hmembers : Fields.toJson fields ⊆ members) {f : String × FieldValue} (hf : f ∈ fields) :
    Field.NamedIn f members :=
  .given (filter_name_eq_singleton hnodup (hmembers (List.mem_map_of_mem hf))) (hspelled f hf)

theorem Fields.spelledBy_toJson (hnodup : (fields.map Prod.fst).Nodup) :
    Fields.SpelledBy fields (.obj (Fields.toJson fields)) := by
  have hnames : ((Fields.toJson fields).map Prod.fst).Nodup := by
    simpa [Fields.toJson, Function.comp_def] using hnodup
  exact .object fun f hf => Fields.namedIn_of_mem hspelled hnames (List.Subset.refl _) hf

end Fields

theorem Align.spelledBy_toJson (align : Option Align) : Align.SpelledBy align (Align.toJson align) := by
  cases align with
  | none => exact .absent
  | some align => exact .name align

theorem forall₂_map_right {α β : Type} {R : α → β → Prop} {f : α → β} {as : List α}
    (h : ∀ a ∈ as, R a (f a)) :
    List.Forall₂ R as (as.map f) := by
  rw [List.forall₂_map_right_iff, List.forall₂_same]
  exact h

theorem forall₂_spelledBy_listToJson {ts : List Token} (h : ∀ u ∈ ts, u.SpelledBy u.toJson) :
    List.Forall₂ Token.SpelledBy ts (Token.listToJson ts) := by
  rw [Token.listToJson_eq]
  exact forall₂_map_right h

theorem Item.spelledBy_toJson {item : Item Token} (h : ∀ u ∈ item.tokens, u.SpelledBy u.toJson) :
    Fields.SpelledBy item.fields (.obj item.fieldsToJson) := by
  rw [Item.fieldsToJson_eq]
  refine Fields.spelledBy_toJson ?_ (Item.layout.nodup_names item)
  simp only [Item.fields, List.forall_mem_cons]
  exact ⟨.text _, .text _, .flag _, by cases item.checked <;> constructor, .flag _,
    .tokens (forall₂_spelledBy_listToJson h), List.forall_mem_nil _⟩

theorem Cell.spelledBy_toJson {cell : Cell Token} (h : ∀ u ∈ cell.tokens, u.SpelledBy u.toJson) :
    Fields.SpelledBy cell.fields (.obj cell.fieldsToJson) := by
  rw [Cell.fieldsToJson_eq]
  refine Fields.spelledBy_toJson ?_ (Cell.layout.nodup_names cell)
  simp only [Cell.fields, List.forall_mem_cons]
  exact ⟨.text _, .tokens (forall₂_spelledBy_listToJson h), .flag _, .align (Align.spelledBy_toJson _),
    List.forall_mem_nil _⟩

theorem Cell.forall₂_spelledBy_listToJson {cells : List (Cell Token)}
    (h : ∀ cell ∈ cells, ∀ u ∈ cell.tokens, u.SpelledBy u.toJson) :
    List.Forall₂ (fun cell v => Fields.SpelledBy cell.fields v) cells (Cell.listToJson cells) := by
  rw [Cell.listToJson_eq]
  exact forall₂_map_right fun cell hcell => Cell.spelledBy_toJson (h cell hcell)

/-- A value is written as one of its spellings, if the tokens in it are. -/
theorem FieldValue.spelledBy_toJson (value : FieldValue) (h : ∀ u ∈ value.inner, u.SpelledBy u.toJson) :
    value.SpelledBy value.toJson := by
  cases value with
  | text s => exact .text s
  | flag b => exact .flag b
  | depth n => exact .depth n
  | start n => exact .start n
  | maybeText s => cases s <;> constructor
  | maybeFlag b => cases b <;> constructor
  | maybeAlign align => exact .align (Align.spelledBy_toJson align)
  | aligns columns => exact .aligns (forall₂_map_right fun align _ => Align.spelledBy_toJson align)
  | tokens ts => exact .tokens (forall₂_spelledBy_listToJson h)
  | maybeTokens ts =>
      cases ts with
      | none => exact .noTokens
      | some ts => exact .someTokens (forall₂_spelledBy_listToJson h)
  | items is =>
      rw [toJson, Item.listToJson_eq]
      exact .items (forall₂_map_right fun item hitem =>
        Item.spelledBy_toJson fun u hu => h u (List.mem_flatMap.mpr ⟨item, hitem, hu⟩))
  | cells cs =>
      exact .cells (Cell.forall₂_spelledBy_listToJson fun cell hcell u hu =>
        h u (List.mem_flatMap.mpr ⟨cell, hcell, hu⟩))
  | rows rs =>
      rw [toJson, Cell.rowsToJson_eq]
      refine .rows (forall₂_map_right fun row hrow => .cells (Cell.forall₂_spelledBy_listToJson ?_))
      exact fun cell hcell u hu =>
        h u (List.mem_flatMap.mpr ⟨cell, List.mem_flatten.mpr ⟨row, hrow, hcell⟩, hu⟩)

namespace Token

/-- No field of a token is named as its type is. -/
theorem nodup_names_type_fields (t : Token) : ("type" :: t.fields.map Prod.fst).Nodup := by
  cases t <;> simp [fields, Item.fields]

theorem spelledBy_toJson (t : Token) : t.SpelledBy t.toJson := by
  induction t using Token.induct with
  | step t ih =>
      have hspelled : ∀ f ∈ t.fields, f.2.SpelledBy f.2.toJson := fun f hf =>
        f.2.spelledBy_toJson fun u hu => ih u (mem_inner_of_mem_fields hf hu)
      have hnodup : ((("type", Json.str t.kind) :: Fields.toJson t.fields).map Prod.fst).Nodup := by
        simpa [Fields.toJson, Function.comp_def] using t.nodup_names_type_fields
      rw [toJson, fieldsToJson_eq]
      refine .object (filter_name_eq_singleton hnodup List.mem_cons_self) (.name t) fun f hf => ?_
      exact Fields.namedIn_of_mem hspelled hnodup (List.subset_cons_self _ _) hf

/-- A token is custom if and only if its kind is not built in, once its kind fits. -/
theorem fitsKind_iff (t : Token) : t.FitsKind ↔ (t.builtIn? = none ↔ t.kind ∉ builtInKinds) := by
  have hbuiltIn : t.kind ∉ builtInKinds → t.builtIn? = none := by
    intro hkind
    cases h : t.builtIn? with
    | none => rfl
    | some kind =>
        rw [kind_of_builtIn?_eq_some h, ← BuiltIn.ofName?_eq_none_iff, BuiltIn.ofName?_eq_some_iff.mpr rfl] at hkind
        cases hkind
  exact ⟨fun h => ⟨h, hbuiltIn⟩, fun h => h.mp⟩

/-- A token list can be read from some value if and only if the kind of each of its tokens, at any depth,
says what the token is; and what is written of a list that was read is read as that list. -/
theorem listOfJson_image (ts : List Token) :
    ((∃ v, Token.listOfJson v = .ok ts) ↔ ∀ t ∈ allOf ts, (t.builtIn? = none ↔ t.kind ∉ builtInKinds)) ∧
      (∀ t ∈ allOf ts, ∀ kind, t.builtIn? = some kind → t.kind = kind.name) ∧
      ∀ v, Token.listOfJson v = .ok ts → Token.listOfJson (.arr (ts.map toJson)) = .ok ts := by
  have hwritten : (∀ t ∈ ts, t.KindsFit) → Token.listOfJson (.arr (ts.map toJson)) = .ok ts := fun hfit =>
    listOfJson_eq_ok_iff.mpr ⟨_, rfl, forall₂_map_right fun t _ => t.spelledBy_toJson, hfit⟩
  have hread : ∀ v, Token.listOfJson v = .ok ts → ∀ t ∈ ts, t.KindsFit := by
    intro v h
    obtain ⟨_, _, _, hfit⟩ := listOfJson_eq_ok_iff.mp h
    exact hfit
  refine ⟨?_, fun t _ kind => kind_of_builtIn?_eq_some, fun v h => hwritten (hread v h)⟩
  simp only [← fitsKind_iff, ← forall_kindsFit_iff]
  constructor
  · rintro ⟨v, h⟩
    exact hread v h
  · intro hfit
    exact ⟨_, hwritten hfit⟩

/-- A quote in array form, by number, around a custom token in object form. -/
theorem listOfJson_image_of_note_in_quote :
    Token.listOfJson (.arr [.arr [.int 5, .str "", .str "", .arr [.obj [("x", .null), ("type", .str "note")]]]]) =
        .ok [.blockquote "" "" [.custom "note" "" "" []]] ∧
      Token.listOfJson (.arr [.obj [("type", .str "blockquote"), ("raw", .str ""), ("text", .str ""),
        ("tokens", .arr [.obj [("type", .str "note"), ("raw", .str ""), ("text", .str ""), ("tokens", .arr [])]])]]) =
        .ok [.blockquote "" "" [.custom "note" "" "" []]] := by
  have hread : Token.listOfJson
      (.arr [.arr [.int 5, .str "", .str "", .arr [.obj [("x", .null), ("type", .str "note")]]]]) =
        .ok [.blockquote "" "" [.custom "note" "" "" []]] := by rfl
  exact ⟨hread, (listOfJson_image [.blockquote "" "" [.custom "note" "" "" []]]).2.2 _ hread⟩

end Token
end MarkdownNodes
