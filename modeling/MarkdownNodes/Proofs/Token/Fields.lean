import MarkdownNodes.Entries
import MarkdownNodes.Proofs.Token.Descent
import MarkdownNodes.Token.Schema

/-! The fields of tokens, items and cells. Each has its fields by name, in the order in which they are
declared. Kind and fields make up the whole token, the schema of its kind says what its fields are, and
the tokens one level down are those in its fields. -/

namespace MarkdownNodes

/-! ### Values of fields -/

namespace FieldValue

/-- The type of the fields that the value fits. -/
def type : FieldValue → FieldType
  | .text _ => .text
  | .flag _ => .flag
  | .depth _ => .depth
  | .start _ => .start
  | .maybeText _ => .maybeText
  | .maybeFlag _ => .maybeFlag
  | .maybeAlign _ => .maybeAlign
  | .aligns _ => .aligns
  | .tokens _ => .tokens
  | .maybeTokens _ => .maybeTokens
  | .items _ => .items
  | .cells _ => .cells
  | .rows _ => .rows

/-- The value may go without saying. It is empty, zero, unset or absent; a list starts from one. -/
def IsDefault : FieldValue → Prop
  | .text s => s = ""
  | .flag b => b = false
  | .depth n => n = 0
  | .start n => n = 1
  | .maybeText s => s = none
  | .maybeFlag b => b = none
  | .maybeAlign align => align = none
  | .aligns columns => columns = []
  | .tokens ts => ts = []
  | .maybeTokens ts => ts = none
  | .items is => is = []
  | .cells cs => cs = []
  | .rows rs => rs = []

theorem isDefault_iff (value : FieldValue) : value.IsDefault ↔ value.type.default = value := by
  cases value <;> simp [IsDefault, type, FieldType.default, eq_comm]

/-- The tokens that stand in the value, in document order. -/
def inner : FieldValue → List Token
  | .tokens ts => ts
  | .maybeTokens ts => ts.getD []
  | .items is => is.flatMap Item.tokens
  | .cells cs => cs.flatMap Cell.tokens
  | .rows rs => rs.flatten.flatMap Cell.tokens
  | _ => []

/-- Nothing stands in a value that goes without saying. -/
theorem inner_of_isDefault {value : FieldValue} (h : value.IsDefault) : value.inner = [] := by
  cases value <;> simp_all [IsDefault, inner]

end FieldValue

/-- The schema that fields follow. -/
def Schema.ofFields (fields : List (String × FieldValue)) : Schema := fields.map fun f => (f.1, f.2.type)

theorem Schema.types_ofFields (fields : List (String × FieldValue)) :
    (Schema.ofFields fields).map Prod.snd = (fields.map Prod.snd).map FieldValue.type := by
  simp [Schema.ofFields]

/-! ### Items and cells -/

def Item.fields (item : Item Token) : List (String × FieldValue) :=
  [("raw", .text item.raw), ("text", .text item.text), ("task", .flag item.task),
    ("checked", .maybeFlag item.checked), ("loose", .flag item.loose), ("tokens", .tokens item.tokens)]

def Cell.fields (cell : Cell Token) : List (String × FieldValue) :=
  [("text", .text cell.text), ("tokens", .tokens cell.tokens), ("header", .flag cell.header),
    ("align", .maybeAlign cell.align)]

theorem Item.ofFields?_eq_some_iff {values : List FieldValue} {item : Item Token} :
    Item.ofFields? values = some item ↔ values = item.fields.map Prod.snd := by
  constructor
  · intro h
    unfold Item.ofFields? at h
    split at h <;> cases h
    rfl
  · rintro rfl
    rfl

theorem Cell.ofFields?_eq_some_iff {values : List FieldValue} {cell : Cell Token} :
    Cell.ofFields? values = some cell ↔ values = cell.fields.map Prod.snd := by
  constructor
  · intro h
    unfold Cell.ofFields? at h
    split at h <;> cases h
    rfl
  · rintro rfl
    rfl

/-- A way of laying things out. The fields of a thing follow the schema, no two have one name, and a thing
is made of the values of its fields and of nothing else. -/
structure Layout (α : Type) where
  schema : Schema
  fields : α → List (String × FieldValue)
  ofFields? : List FieldValue → Option α
  schema_eq : ∀ a, schema = .ofFields (fields a)
  nodup_names : ∀ a, ((fields a).map Prod.fst).Nodup
  ofFields?_eq_some_iff : ∀ {values a}, ofFields? values = some a ↔ values = (fields a).map Prod.snd

def Item.layout : Layout (Item Token) where
  schema := Item.schema
  fields := Item.fields
  ofFields? := Item.ofFields?
  schema_eq _ := rfl
  nodup_names item := by simp [Item.fields]
  ofFields?_eq_some_iff := Item.ofFields?_eq_some_iff

def Cell.layout : Layout (Cell Token) where
  schema := Cell.schema
  fields := Cell.fields
  ofFields? := Cell.ofFields?
  schema_eq _ := rfl
  nodup_names cell := by simp [Cell.fields]
  ofFields?_eq_some_iff := Cell.ofFields?_eq_some_iff

/-! ### Tokens -/

namespace Token

/-- The built-in kind of a token that has one. -/
def builtIn? : Token → Option BuiltIn
  | .space .. => some .space
  | .hr .. => some .hr
  | .heading .. => some .heading
  | .code .. => some .code
  | .table .. => some .table
  | .blockquote .. => some .blockquote
  | .list .. => some .list
  | .listItem .. => some .listItem
  | .html .. => some .html
  | .paragraph .. => some .paragraph
  | .text .. => some .text
  | .escape .. => some .escape
  | .link .. => some .link
  | .image .. => some .image
  | .strong .. => some .strong
  | .em .. => some .em
  | .codespan .. => some .codespan
  | .br .. => some .br
  | .del .. => some .del
  | .custom .. => none

/-- The tag of a token: its built-in kind, or the kind that an extension knows. -/
def tag (t : Token) : Tag :=
  match t.builtIn? with
  | some kind => .builtIn kind
  | none => .custom t.kind

def fields : Token → List (String × FieldValue)
  | .space raw | .hr raw | .br raw => [("raw", .text raw)]
  | .heading raw depth s ts => [("raw", .text raw), ("depth", .depth depth), ("text", .text s), ("tokens", .tokens ts)]
  | .code raw s lang escaped =>
      [("raw", .text raw), ("text", .text s), ("lang", .maybeText lang), ("escaped", .flag escaped)]
  | .table raw align header rows =>
      [("raw", .text raw), ("align", .aligns align), ("header", .cells header), ("rows", .rows rows)]
  | .list raw ordered start loose items =>
      [("raw", .text raw), ("ordered", .flag ordered), ("start", .start start), ("loose", .flag loose),
        ("items", .items items)]
  | .listItem item => item.fields
  | .html raw s block pre => [("raw", .text raw), ("text", .text s), ("block", .flag block), ("pre", .flag pre)]
  | .text raw s ts escaped =>
      [("raw", .text raw), ("text", .text s), ("tokens", .maybeTokens ts), ("escaped", .flag escaped)]
  | .escape raw s | .codespan raw s => [("raw", .text raw), ("text", .text s)]
  | .link raw href title s ts =>
      [("raw", .text raw), ("href", .text href), ("title", .maybeText title), ("text", .text s),
        ("tokens", .tokens ts)]
  | .image raw href title s =>
      [("raw", .text raw), ("href", .text href), ("title", .maybeText title), ("text", .text s)]
  | .blockquote raw s ts | .paragraph raw s ts | .strong raw s ts | .em raw s ts | .del raw s ts
  | .custom _ raw s ts => [("raw", .text raw), ("text", .text s), ("tokens", .tokens ts)]

theorem schema_tag (t : Token) : t.tag.schema = .ofFields t.fields := by
  cases t <;> rfl

theorem types_tag (t : Token) : t.tag.schema.map Prod.snd = (t.fields.map Prod.snd).map FieldValue.type := by
  rw [schema_tag, Schema.types_ofFields]

theorem nodup_names_fields (t : Token) : (t.fields.map Prod.fst).Nodup := by
  cases t <;> simp [fields, Item.fields]

/-- A token is made of its tag and the values of its fields, and of nothing else. -/
theorem token?_eq_some_iff {tag : Tag} {values : List FieldValue} {t : Token} :
    tag.token? values = some t ↔ tag = t.tag ∧ values = t.fields.map Prod.snd := by
  constructor
  · intro h
    unfold Tag.token? at h
    split at h
    case h_8 =>
      obtain ⟨item, hitem, rfl⟩ := Option.map_eq_some_iff.mp h
      exact ⟨rfl, Item.ofFields?_eq_some_iff.mp hitem⟩
    all_goals cases h
    all_goals exact ⟨rfl, rfl⟩
  · rintro ⟨rfl, rfl⟩
    cases t <;> rfl

theorem inner_eq_flatMap_fields (t : Token) : t.inner = t.fields.flatMap fun f => f.2.inner := by
  cases t <;> simp [inner, children, items, header, rows, fields, Item.fields, FieldValue.inner]

theorem mem_inner_of_mem_fields {t u : Token} {f : String × FieldValue} (hf : f ∈ t.fields)
    (hu : u ∈ f.2.inner) : u ∈ t.inner := by
  rw [inner_eq_flatMap_fields]
  exact List.mem_flatMap.mpr ⟨f, hf, hu⟩

/-- The value of the field of the name `text`, if it is a text; a token without such a field has no text in it. -/
def textField (t : Token) : String :=
  match Entries.get? t.fields "text" with
  | some (.text s) => s
  | _ => ""

end Token
end MarkdownNodes
