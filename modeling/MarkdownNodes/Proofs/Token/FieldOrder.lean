import MarkdownNodes.Proofs.Json.SameValue
import MarkdownNodes.Proofs.Token.Reading

/-! The order of fields. Values that are the same but for the order of fields spell the same tokens, since the
fields of a token are found by their names; so they are read alike. -/

namespace MarkdownNodes

/-- Whatever is spelled by the one value is spelled by the other. -/
structure SpellsAll (v w : Json) : Prop where
  type {t : Token} : t.TypeSpelledBy v → t.TypeSpelledBy w
  token {t : Token} : t.SpelledBy v → t.SpelledBy w
  fields {fields : List (String × FieldValue)} : Fields.SpelledBy fields v → Fields.SpelledBy fields w
  value {value : FieldValue} : value.SpelledBy v → value.SpelledBy w
  align {align : Option Align} : Align.SpelledBy align v → Align.SpelledBy align w
  row {cells : List (Cell Token)} : Row.SpelledBy cells v → Row.SpelledBy cells w
  null : v = .null → w = .null
  empty : v = .obj [] → w = .obj []

namespace SpellsAll

theorem refl (v : Json) : SpellsAll v v := ⟨id, id, id, id, id, id, id, id⟩

theorem trans {u v w : Json} (h : SpellsAll u v) (h' : SpellsAll v w) : SpellsAll u w where
  type := h'.type ∘ h.type
  token := h'.token ∘ h.token
  fields := h'.fields ∘ h.fields
  value := h'.value ∘ h.value
  align := h'.align ∘ h.align
  row := h'.row ∘ h.row
  null := h'.null ∘ h.null
  empty := h'.empty ∘ h.empty

section Elem

variable {before after : List Json} {v w : Json}

theorem inOrder_exchange (h : SpellsAll v w) {values : List FieldValue}
    (hvalues : Fields.InOrder values (before ++ v :: after)) : Fields.InOrder values (before ++ w :: after) := by
  induction before generalizing values with
  | nil =>
      cases hvalues with
      | given hvalue hvalues => exact .given (h.value hvalue) hvalues
  | cons u before ih =>
      cases hvalues with
      | given hvalue hvalues => exact .given hvalue (ih hvalues)

/-- An element may be exchanged for one that spells the same. -/
theorem elem (h : SpellsAll v w) (before after : List Json) :
    SpellsAll (.arr (before ++ v :: after)) (.arr (before ++ w :: after)) where
  type := nofun
  token := by
    intro t ht
    cases before with
    | nil =>
        cases ht with
        | array htype hfields => exact .array (h.type htype) hfields
    | cons type before =>
        cases ht with
        | array htype hfields => exact .array htype (inOrder_exchange h hfields)
  fields := by
    intro fields hfields
    cases hfields with
    | array hfields => exact .array (inOrder_exchange h hfields)
  value := by
    intro value hvalue
    cases hvalue with
    | align halign => cases halign
    | aligns hvs => exact .aligns (forall₂_exchange (fun _ => h.align) hvs)
    | tokens hvs => exact .tokens (forall₂_exchange (fun _ => h.token) hvs)
    | someTokens hvs => exact .someTokens (forall₂_exchange (fun _ => h.token) hvs)
    | items hvs => exact .items (forall₂_exchange (fun _ => h.fields) hvs)
    | cells hvs => exact .cells (forall₂_exchange (fun _ => h.fields) hvs)
    | rows hvs => exact .rows (forall₂_exchange (fun _ => h.row) hvs)
  align := nofun
  row := by
    intro cells hcells
    cases hcells with
    | cells hvs => exact .cells (forall₂_exchange (fun _ => h.fields) hvs)
  null := nofun
  empty := nofun

end Elem

section Field

variable {before after : List (String × Json)} {key : String} {v w : Json}

theorem namedIn_exchange (h : SpellsAll v w) {f : String × FieldValue}
    (hf : Field.NamedIn f (before ++ (key, v) :: after)) : Field.NamedIn f (before ++ (key, w) :: after) := by
  cases hf with
  | given only hvalue =>
      obtain ⟨u, honly, rfl | ⟨rfl, rfl⟩⟩ := Json.only_exchange w only
      · exact .given honly hvalue
      · exact .given honly (h.value hvalue)
  | omitted absent hvalue => exact .omitted (Json.absent_exchange w absent) hvalue

theorem align_exchange (h : SpellsAll v w) {align : Option Align}
    (halign : Align.SpelledBy align (.obj (before ++ (key, v) :: after))) :
    Align.SpelledBy align (.obj (before ++ (key, w) :: after)) := by
  generalize hfields : before ++ (key, v) :: after = fields at halign
  cases halign with
  | null a =>
      obtain ⟨hexchanged, hv⟩ := Json.alone_exchange w hfields
      rw [hexchanged, h.null hv]
      exact .null a
  | empty a =>
      obtain ⟨hexchanged, hv⟩ := Json.alone_exchange w hfields
      rw [hexchanged, h.empty hv]
      exact .empty a

/-- The value of a field may be exchanged for one that spells the same. -/
theorem field (h : SpellsAll v w) (before after : List (String × Json)) (key : String) :
    SpellsAll (.obj (before ++ (key, v) :: after)) (.obj (before ++ (key, w) :: after)) where
  type := nofun
  token := by
    intro t ht
    cases ht with
    | object only htype hfields =>
        have hnamed := fun f hf => namedIn_exchange h (hfields f hf)
        obtain ⟨u, honly, rfl | ⟨rfl, rfl⟩⟩ := Json.only_exchange w only
        · exact .object honly htype hnamed
        · exact .object honly (h.type htype) hnamed
  fields := by
    intro fields hfields
    cases hfields with
    | object hfields => exact .object fun f hf => namedIn_exchange h (hfields f hf)
  value := by
    intro value hvalue
    cases hvalue with
    | align halign => exact .align (align_exchange h halign)
  align := align_exchange h
  row := nofun
  null := nofun
  empty := fun hempty => by simp at hempty

end Field

section Order

variable {fields fields' : List (String × Json)} (hnames : (fields.map Prod.fst).Nodup) (hperm : fields.Perm fields')
include hnames hperm

theorem namedIn_order {f : String × FieldValue} (hf : Field.NamedIn f fields) : Field.NamedIn f fields' := by
  cases hf with
  | given only hvalue => exact .given (Json.filter_name_eq_of_perm hnames hperm _ ▸ only) hvalue
  | omitted absent hvalue => exact .omitted (Json.filter_name_eq_of_perm hnames hperm _ ▸ absent) hvalue

theorem align_order {align : Option Align} (halign : Align.SpelledBy align (.obj fields)) :
    Align.SpelledBy align (.obj fields') := by
  cases halign with
  | null a => exact hperm.singleton_eq ▸ .null a
  | empty a => exact hperm.singleton_eq ▸ .empty a

theorem order : SpellsAll (.obj fields) (.obj fields') where
  type := nofun
  token := by
    intro t ht
    cases ht with
    | object only htype hfields =>
        rw [Json.filter_name_eq_of_perm hnames hperm] at only
        exact .object only htype fun f hf => namedIn_order hnames hperm (hfields f hf)
  fields := by
    intro fields hfields
    cases hfields with
    | object hfields => exact .object fun f hf => namedIn_order hnames hperm (hfields f hf)
  value := by
    intro value hvalue
    cases hvalue with
    | align halign => exact .align (align_order hnames hperm halign)
  align := align_order hnames hperm
  row := nofun
  null := nofun
  empty := by
    intro hempty
    cases hempty
    rw [hperm.nil_eq]

end Order

end SpellsAll

/-- Values that are the same but for the order of fields spell the same. -/
theorem Json.SameValue.spellsAll {v w : Json} (h : v.SameValue w) : SpellsAll v w := by
  induction h with
  | refl v => exact .refl v
  | elem before after h ih => exact ih.elem before after
  | field before after name h ih => exact ih.field before after name
  | order hnames h => exact .order hnames h
  | trans huv hvw ihuv ihvw => exact ihuv.trans ihvw

namespace Token

theorem listOfJson?_eq_some_of_spellsAll {vs ws : List Json} (h : SpellsAll (.arr vs) (.arr ws)) {ts : List Token}
    (hread : listOfJson? vs = some ts) : listOfJson? ws = some ts := by
  have hback : ∀ t ∈ ts, t.ReadsBack := fun t _ => t.readsBack
  obtain ⟨hspelled, hkinds⟩ := (listOfJson?_eq_some_iff hback).mp hread
  refine (listOfJson?_eq_some_iff hback).mpr ⟨?_, hkinds⟩
  cases h.value (.tokens hspelled) with
  | tokens hspelled => exact hspelled

theorem listOfJson_of_shape_ne {v : Json} (h : v.shape ≠ .arr) : listOfJson v = .error (.notList v.shape) := by
  cases v with
  | arr vs => exact absurd rfl h
  | _ => rfl

theorem exists_eq_arr {v : Json} (h : v.shape = .arr) : ∃ vs, v = .arr vs := by
  cases v with
  | arr vs => exact ⟨vs, rfl⟩
  | _ => cases h

/-- Values that are the same but for the order of fields are read as the same token list, or refused alike. -/
theorem listOfJson_eq_of_sameValue {v w : Json} (h : v.SameValue w) : listOfJson v = listOfJson w := by
  by_cases hshape : v.shape = .arr
  case pos =>
    obtain ⟨vs, rfl⟩ := exists_eq_arr hshape
    obtain ⟨ws, rfl⟩ := exists_eq_arr (h.shape_eq ▸ hshape)
    have hread : listOfJson? vs = listOfJson? ws := Option.ext fun ts =>
      ⟨listOfJson?_eq_some_of_spellsAll h.spellsAll, listOfJson?_eq_some_of_spellsAll h.symm.spellsAll⟩
    rw [listOfJson, listOfJson, hread]
  case neg =>
    rw [listOfJson_of_shape_ne hshape, listOfJson_of_shape_ne (h.shape_eq ▸ hshape), h.shape_eq]

end Token
end MarkdownNodes
