import MarkdownNodes.Json.Basic
import MarkdownNodes.Proofs.Entries

/-! Values that are the same but for the order of fields. An object in which no name comes twice may keep its
fields in any order; whoever looks for a name finds the same. Arrays are the same element by element, and objects
with the same names in the same order are the same field by field. -/

namespace MarkdownNodes

/-- What is related to an element may be related to another in its place. -/
theorem forall₂_exchange {α β : Type} {R : α → β → Prop} {before after : List β} {b c : β}
    (h : ∀ x, R x b → R x c) {xs : List α} (hxs : List.Forall₂ R xs (before ++ b :: after)) :
    List.Forall₂ R xs (before ++ c :: after) := by
  induction before generalizing xs with
  | nil =>
      cases hxs with
      | cons hx hxs => exact .cons (h _ hx) hxs
  | cons u before ih =>
      cases hxs with
      | cons hx hxs => exact .cons hx (ih hxs)

namespace Json

/-- The values differ at most in the order of fields, in objects where no name comes twice. -/
inductive SameValue : Json → Json → Prop where
  | refl (v : Json) : SameValue v v
  | elem (before after : List Json) {v w : Json} (h : SameValue v w) :
      SameValue (.arr (before ++ v :: after)) (.arr (before ++ w :: after))
  | field (before after : List (String × Json)) (name : String) {v w : Json} (h : SameValue v w) :
      SameValue (.obj (before ++ (name, v) :: after)) (.obj (before ++ (name, w) :: after))
  | order {fields fields' : List (String × Json)} (hnames : (fields.map Prod.fst).Nodup)
      (h : fields.Perm fields') : SameValue (.obj fields) (.obj fields')
  | trans {u v w : Json} (huv : SameValue u v) (hvw : SameValue v w) : SameValue u w

theorem SameValue.symm {v w : Json} (h : v.SameValue w) : w.SameValue v := by
  induction h with
  | refl v => exact .refl v
  | elem before after h ih => exact .elem before after ih
  | field before after name h ih => exact .field before after name ih
  | order hnames h => exact .order ((h.map Prod.fst).nodup_iff.mp hnames) h.symm
  | trans huv hvw ihuv ihvw => exact ihvw.trans ihuv

theorem SameValue.shape_eq {v w : Json} (h : v.SameValue w) : v.shape = w.shape := by
  induction h with
  | trans huv hvw ihuv ihvw => exact ihuv.trans ihvw
  | _ => rfl

theorem sameValue_str_iff {s s' : String} : (str s).SameValue (str s') ↔ s = s' :=
  ⟨fun h => by simpa [shape] using h.shape_eq, fun h => h ▸ .refl _⟩

/-- A name that comes at most once is found alike in whatever order. -/
theorem filter_name_eq_of_perm {fields fields' : List (String × Json)} (hnames : (fields.map Prod.fst).Nodup)
    (h : fields.Perm fields') (name : String) : fields.filter (·.1 == name) = fields'.filter (·.1 == name) := by
  have hfilter := h.filter (·.1 == name)
  have hnodup : ((fields.filter (·.1 == name)).map Prod.fst).Nodup :=
    hnames.sublist (List.filter_sublist.map Prod.fst)
  have hname : ∀ f ∈ fields.filter (·.1 == name), f.1 = name := fun f hf => by simpa using List.of_mem_filter hf
  rcases hfound : fields.filter (·.1 == name) with _ | ⟨f, _ | ⟨g, more⟩⟩ <;> rw [hfound] at hfilter hnodup hname
  · exact hfound.trans hfilter.nil_eq
  · exact hfound.trans hfilter.singleton_eq
  · have hsame : f.1 = g.1 := (hname f (by simp)).trans (hname g (by simp)).symm
    simp [hsame] at hnodup

/-- The fields of a name, with the value of one field exchanged. -/
theorem filter_name_exchange (before after : List (String × Json)) (key name : String) (v w : Json) :
    (before ++ (key, w) :: after).filter (·.1 == name) = if key = name
      then before.filter (·.1 == name) ++ (key, w) :: after.filter (·.1 == name)
      else (before ++ (key, v) :: after).filter (·.1 == name) := by
  by_cases hkey : key = name <;> simp [List.filter_append, hkey]

theorem only_exchange {before after : List (String × Json)} {key name : String} {u v : Json} (w : Json)
    (h : (before ++ (key, v) :: after).filter (·.1 == name) = [(name, u)]) :
    ∃ u', (before ++ (key, w) :: after).filter (·.1 == name) = [(name, u')] ∧ (u' = u ∨ u = v ∧ u' = w) := by
  rw [filter_name_exchange before after key name v w]
  split
  case isTrue hkey =>
    rw [filter_name_exchange before after key name v v, if_pos hkey] at h
    cases hbefore : before.filter (·.1 == name) <;> rw [hbefore] at h
    case nil =>
      obtain ⟨hfirst, hafter⟩ := List.cons.inj h
      cases hfirst
      exact ⟨w, by rw [hafter, List.nil_append], Or.inr ⟨rfl, rfl⟩⟩
    case cons => simp at h
  case isFalse => exact ⟨u, h, Or.inl rfl⟩

theorem absent_exchange {before after : List (String × Json)} {key name : String} {v : Json} (w : Json)
    (h : (before ++ (key, v) :: after).filter (·.1 == name) = []) :
    (before ++ (key, w) :: after).filter (·.1 == name) = [] := by
  rw [filter_name_exchange before after key name v w]
  split
  case isTrue hkey => simp [hkey] at h
  case isFalse => exact h

theorem alone_exchange {before after : List (String × Json)} {key name : String} {u v : Json} (w : Json)
    (h : before ++ (key, v) :: after = [(name, u)]) : before ++ (key, w) :: after = [(name, w)] ∧ v = u := by
  cases before with
  | nil =>
      cases h
      exact ⟨rfl, rfl⟩
  | cons f before => simp at h

/-! ### Containers that are the same -/

/-- The first field of an object under a name. -/
def field? (name : String) : Json → Option Json
  | .obj fields => Entries.get? fields name
  | _ => none

/-- The elements of an array. -/
def elems : Json → List Json
  | .arr vs => vs
  | _ => []

section Containers

variable {v w : Json} {vs ws : List Json} {fields others : List (String × Json)}

theorem rel_sameValue_refl (found : Option Json) : Option.Rel SameValue found found := by
  cases found with
  | none => exact .none
  | some v => exact .some (.refl v)

/-- What is the same as the field of one value is the same as the field of the other. -/
theorem SameValue.rel_field? (h : v.SameValue w) (name : String) {found : Option Json}
    (hfound : Option.Rel SameValue found (v.field? name)) : Option.Rel SameValue found (w.field? name) := by
  induction h with
  | refl v => exact hfound
  | elem before after h ih => exact hfound
  | @field before after key v w h ih =>
      simp only [field?, Entries.get?_append] at hfound ⊢
      cases hbefore : Entries.get? before name with
      | some u => simpa [hbefore] using hfound
      | none =>
          by_cases hkey : key = name
          · rw [hbefore, Option.none_or, Entries.get?, if_pos hkey] at hfound
            rw [Option.none_or, Entries.get?, if_pos hkey]
            cases hfound with
            | some hu => exact .some (hu.trans h)
          · simpa [hbefore, Entries.get?, hkey] using hfound
  | order hnames hperm =>
      rw [field?, Entries.get?_eq_of_perm hnames hperm] at hfound
      exact hfound
  | trans _ _ ihuv ihvw => exact ihvw (ihuv hfound)

/-- What is the same as the elements of one value is the same as the elements of the other. -/
theorem SameValue.forall₂_elems (h : v.SameValue w) (hvs : List.Forall₂ SameValue vs v.elems) :
    List.Forall₂ SameValue vs w.elems := by
  induction h with
  | elem before after h ih => exact forall₂_exchange (fun _ hu => hu.trans h) hvs
  | trans _ _ ihuv ihvw => exact ihvw (ihuv hvs)
  | _ => exact hvs

/-- Values may be exchanged one by one, behind values that stay. -/
theorem SameValue.arr_of_forall₂ (h : List.Forall₂ SameValue vs ws) (before : List Json) :
    (arr (before ++ vs)).SameValue (arr (before ++ ws)) := by
  induction h generalizing before with
  | nil => exact .refl _
  | @cons v w vs ws hv _ ih =>
      have hrest := ih (before ++ [w])
      rw [List.append_assoc, List.append_assoc] at hrest
      exact (SameValue.elem before vs hv).trans hrest

theorem SameValue.obj_of_forall₂ (h : List.Forall₂ (fun f g => f.1 = g.1 ∧ f.2.SameValue g.2) fields others)
    (before : List (String × Json)) : (obj (before ++ fields)).SameValue (obj (before ++ others)) := by
  induction h generalizing before with
  | nil => exact .refl _
  | @cons f g fields others hf _ ih =>
      obtain ⟨hname, hvalue⟩ := hf
      have hrest := ih (before ++ [g])
      rw [List.append_assoc, List.append_assoc] at hrest
      rcases f with ⟨name, v⟩
      obtain rfl : name = g.1 := hname
      exact (SameValue.field before fields g.1 hvalue).trans hrest

/-- Arrays are the same element by element. -/
theorem sameValue_arr_iff : (arr vs).SameValue (arr ws) ↔ List.Forall₂ SameValue vs ws :=
  ⟨fun h => h.forall₂_elems (List.forall₂_same.mpr fun v _ => .refl v), fun h => .arr_of_forall₂ h []⟩

/-- Objects that list the same names, each once, are the same field by field. -/
theorem sameValue_obj_iff (hnodup : (Entries.names fields).Nodup)
    (hnames : Entries.names fields = Entries.names others) :
    (obj fields).SameValue (obj others) ↔ List.Forall₂ (fun f g => f.1 = g.1 ∧ f.2.SameValue g.2) fields others :=
  ⟨fun h => Entries.forall₂_of_rel_get? hnodup hnames fun name => h.rel_field? name (rel_sameValue_refl _),
    fun h => .obj_of_forall₂ h []⟩

end Containers

end Json
end MarkdownNodes
