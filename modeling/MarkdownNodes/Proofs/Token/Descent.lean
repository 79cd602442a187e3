import MarkdownNodes.Token.Basic

/-! The tokens inside a token. A token holds tokens directly, or in its items and cells; `inner` lists
the tokens one level down in document order and `all` those at every depth, the token itself first.
What holds of a token whenever it holds of the tokens one level down holds of every token. -/

namespace MarkdownNodes.Token

/-- The tokens one level down, wherever they stand, in document order. -/
def inner (t : Token) : List Token :=
  t.children ++ t.items.flatMap Item.tokens ++ (t.header ++ t.rows.flatten).flatMap Cell.tokens

theorem mem_inner_of_mem_children {t u : Token} (h : u ∈ t.children) : u ∈ t.inner := by
  simp [inner, h]

theorem mem_inner_of_mem_items {t u : Token} {item : Item Token} (hitem : item ∈ t.items)
    (hu : u ∈ item.tokens) : u ∈ t.inner := by
  simp only [inner, List.mem_append, List.mem_flatMap]
  exact Or.inl (Or.inr ⟨item, hitem, hu⟩)

theorem mem_inner_of_mem_header {t u : Token} {cell : Cell Token} (hcell : cell ∈ t.header)
    (hu : u ∈ cell.tokens) : u ∈ t.inner := by
  simp only [inner, List.mem_append, List.mem_flatMap]
  exact Or.inr ⟨cell, Or.inl hcell, hu⟩

theorem mem_inner_of_mem_rows {t u : Token} {row : List (Cell Token)} {cell : Cell Token}
    (hrow : row ∈ t.rows) (hcell : cell ∈ row) (hu : u ∈ cell.tokens) : u ∈ t.inner := by
  simp only [inner, List.mem_append, List.mem_flatMap]
  exact Or.inr ⟨cell, Or.inr (List.mem_flatten.mpr ⟨row, hrow, hcell⟩), hu⟩

private theorem sizeOf_lt_of_mem_cell {u : Token} {cell : Cell Token} (h : u ∈ cell.tokens) :
    sizeOf u < sizeOf cell := by
  have hu := List.sizeOf_lt_of_mem h
  rcases cell with ⟨text, tokens, header, align⟩
  simp only [Cell.mk.sizeOf_spec] at hu ⊢
  omega

private theorem sizeOf_lt_of_mem_item {u : Token} {item : Item Token} (h : u ∈ item.tokens) :
    sizeOf u < sizeOf item := by
  have hu := List.sizeOf_lt_of_mem h
  rcases item with ⟨raw, text, task, checked, loose, tokens⟩
  simp only [Item.mk.sizeOf_spec] at hu ⊢
  omega

private theorem sizeOf_children_le (t : Token) : sizeOf t.children ≤ sizeOf t := by
  rcases t with _ | _ | _ | _ | _ | _ | _ | ⟨_, _, _, _, _, _⟩ | _ | _ | ⟨_, _, _ | _, _⟩ <;>
    simp [children] <;> omega

private theorem sizeOf_items_le (t : Token) : sizeOf t.items ≤ sizeOf t := by
  cases t <;> simp [items] <;> omega

private theorem sizeOf_header_le (t : Token) : sizeOf t.header ≤ sizeOf t := by
  cases t <;> simp [header] <;> omega

private theorem sizeOf_rows_le (t : Token) : sizeOf t.rows ≤ sizeOf t := by
  cases t <;> simp [rows] <;> omega

/-- Tokens get smaller on the way down. -/
theorem sizeOf_lt_of_mem_inner {t u : Token} (h : u ∈ t.inner) : sizeOf u < sizeOf t := by
  simp only [inner, List.mem_append, List.mem_flatMap, List.mem_flatten] at h
  rcases h with (h | ⟨item, hitem, h⟩) | ⟨cell, hcell | ⟨row, hrow, hcell⟩, h⟩
  · have hu := List.sizeOf_lt_of_mem h
    have ht := sizeOf_children_le t
    omega
  · have hu := sizeOf_lt_of_mem_item h
    have hi := List.sizeOf_lt_of_mem hitem
    have ht := sizeOf_items_le t
    omega
  · have hu := sizeOf_lt_of_mem_cell h
    have hc := List.sizeOf_lt_of_mem hcell
    have ht := sizeOf_header_le t
    omega
  · have hu := sizeOf_lt_of_mem_cell h
    have hc := List.sizeOf_lt_of_mem hcell
    have hr := List.sizeOf_lt_of_mem hrow
    have ht := sizeOf_rows_le t
    omega

/-- Induction over tokens: the tokens one level down come first. -/
theorem induct {P : Token → Prop} (step : ∀ t, (∀ u ∈ t.inner, P u) → P t) (t : Token) : P t :=
  step t fun u _ => induct step u
termination_by t
decreasing_by exact sizeOf_lt_of_mem_inner ‹_›

/-- A list that is walked with proofs of membership is walked as it is. -/
theorem flatMap_attach {α β : Type} (l : List α) (f : α → List β) :
    (l.attach.flatMap fun a => f a.val) = l.flatMap f := by
  rw [List.flatMap_subtype (g := f) fun _ _ => rfl, List.unattach_attach]

/-- The token and the tokens at every depth inside it, in document order. -/
def all (t : Token) : List Token := t :: t.inner.attach.flatMap fun u => all u.val
termination_by t
decreasing_by exact sizeOf_lt_of_mem_inner u.property

/-- The tokens at every depth of a forest, in document order. -/
def allOf (ts : List Token) : List Token := ts.flatMap all

theorem all_eq (t : Token) : t.all = t :: allOf t.inner := by
  rw [all, allOf, flatMap_attach]

theorem mem_all_self (t : Token) : t ∈ t.all := by
  rw [all_eq]
  exact List.mem_cons_self

theorem mem_all_of_mem_inner {t u v : Token} (hu : u ∈ t.inner) (hv : v ∈ u.all) : v ∈ t.all := by
  rw [all_eq]
  exact List.mem_cons_of_mem _ (List.mem_flatMap.mpr ⟨u, hu, hv⟩)

end MarkdownNodes.Token
