import MarkdownNodes.Proofs.Token.Place

/-! Edits of forests. An edit says what stands in the place of a token whose inside has been edited:
the token itself, other tokens or none. All else about the tokens around it is kept. Pruning is the
edit that deletes the misfits. -/

namespace MarkdownNodes

section Edit

variable (f : Place → Token → List Token)

mutual

/-- Edits the inside of a token. What a custom token holds stands nowhere and is kept. -/
def Token.edit : Token → Token
  | .heading raw depth s ts => .heading raw depth s (Token.editOf .inline ts)
  | .table raw align header rows => .table raw align (Cell.editEach header) (Cell.editRows rows)
  | .blockquote raw s ts => .blockquote raw s (Token.editOf .block ts)
  | .list raw ordered start loose items => .list raw ordered start loose (Item.editEach items)
  | .listItem ⟨raw, s, task, checked, loose, ts⟩ =>
      .listItem ⟨raw, s, task, checked, loose, Token.editOf .block ts⟩
  | .paragraph raw s ts => .paragraph raw s (Token.editOf .inline ts)
  | .text raw s (some ts) escaped => .text raw s (some (Token.editOf .inline ts)) escaped
  | .link raw href title s ts => .link raw href title s (Token.editOf .inline ts)
  | .strong raw s ts => .strong raw s (Token.editOf .inline ts)
  | .em raw s ts => .em raw s (Token.editOf .inline ts)
  | .del raw s ts => .del raw s (Token.editOf .inline ts)
  | t => t

/-- Edits a forest that stands in a place. -/
def Token.editOf (place : Place) : List Token → List Token
  | [] => []
  | t :: ts => f place (Token.edit t) ++ Token.editOf place ts

def Item.editEach : List (Item Token) → List (Item Token)
  | [] => []
  | ⟨raw, s, task, checked, loose, ts⟩ :: items =>
      ⟨raw, s, task, checked, loose, Token.editOf .block ts⟩ :: Item.editEach items

def Cell.editEach : List (Cell Token) → List (Cell Token)
  | [] => []
  | ⟨s, ts, header, align⟩ :: cells => ⟨s, Token.editOf .inline ts, header, align⟩ :: Cell.editEach cells

def Cell.editRows : List (List (Cell Token)) → List (List (Cell Token))
  | [] => []
  | row :: rows => Cell.editEach row :: Cell.editRows rows

end

def Item.edit (item : Item Token) : Item Token := { item with tokens := Token.editOf f .block item.tokens }

def Cell.edit (cell : Cell Token) : Cell Token := { cell with tokens := Token.editOf f .inline cell.tokens }

@[simp] theorem Item.editEach_eq (items : List (Item Token)) : Item.editEach f items = items.map (Item.edit f) := by
  induction items with
  | nil => rw [Item.editEach, List.map_nil]
  | cons item items ih =>
      rcases item with ⟨raw, s, task, checked, loose, ts⟩
      rw [Item.editEach, ih, List.map_cons]
      rfl

@[simp] theorem Cell.editEach_eq (cells : List (Cell Token)) : Cell.editEach f cells = cells.map (Cell.edit f) := by
  induction cells with
  | nil => rw [Cell.editEach, List.map_nil]
  | cons cell cells ih =>
      rcases cell with ⟨s, ts, header, align⟩
      rw [Cell.editEach, ih, List.map_cons]
      rfl

@[simp] theorem Cell.editRows_eq (rows : List (List (Cell Token))) :
    Cell.editRows f rows = rows.map (List.map (Cell.edit f)) := by
  induction rows with
  | nil => rw [Cell.editRows, List.map_nil]
  | cons row rows ih => rw [Cell.editRows, ih, Cell.editEach_eq, List.map_cons]

namespace Token

variable (place : Place) (t : Token)

@[simp] theorem editOf_nil : editOf f place [] = [] := by rw [editOf]

@[simp] theorem editOf_cons (ts : List Token) :
    editOf f place (t :: ts) = f place (t.edit f) ++ editOf f place ts := by rw [editOf]

@[simp] theorem editOf_append (ts us : List Token) :
    editOf f place (ts ++ us) = editOf f place ts ++ editOf f place us := by
  induction ts with
  | nil => simp
  | cons t ts ih => simp [ih]

theorem editOf_eq_flatMap (ts : List Token) : editOf f place ts = ts.flatMap fun t => f place (t.edit f) := by
  induction ts with
  | nil => simp
  | cons t ts ih => simp [ih]

theorem editOf_flatMap {α : Type} (l : List α) (g : α → List Token) :
    editOf f place (l.flatMap g) = l.flatMap fun a => editOf f place (g a) := by
  simp only [editOf_eq_flatMap, List.flatMap_assoc]

theorem admits_edit : place.admits (t.edit f) = place.admits t := by
  rcases t with _ | _ | _ | _ | _ | _ | _ | _ | _ | _ | ⟨_, _, _ | _, _⟩ <;> cases place <;>
    simp [edit, Place.admits]

theorem innerPlace_edit : (t.edit f).innerPlace = t.innerPlace := by
  rcases t with _ | _ | _ | _ | _ | _ | _ | _ | _ | _ | ⟨_, _, _ | _, _⟩ <;> simp [edit, innerPlace]

theorem items_edit : (t.edit f).items = t.items.map (Item.edit f) := by
  rcases t with _ | _ | _ | _ | _ | _ | _ | _ | _ | _ | ⟨_, _, _ | _, _⟩ <;> simp [edit, items]

theorem header_edit : (t.edit f).header = t.header.map (Cell.edit f) := by
  rcases t with _ | _ | _ | _ | _ | _ | _ | _ | _ | _ | ⟨_, _, _ | _, _⟩ <;> simp [edit, header]

theorem rows_edit : (t.edit f).rows = t.rows.map (List.map (Cell.edit f)) := by
  rcases t with _ | _ | _ | _ | _ | _ | _ | _ | _ | _ | ⟨_, _, _ | _, _⟩ <;> simp [edit, rows]

variable {place t}

theorem children_edit (h : place.admits t = true) : (t.edit f).children = editOf f t.innerPlace t.children := by
  rcases t with _ | _ | _ | _ | _ | _ | _ | _ | _ | _ | ⟨_, _, _ | _, _⟩ <;>
    simp [edit, children, innerPlace, Place.admits] at h ⊢

theorem inner_edit (h : place.admits t = true) : (t.edit f).inner = editOf f t.innerPlace t.inner := by
  have hitems : ∀ items : List (Item Token), (items.map (Item.edit f)).flatMap Item.tokens =
      editOf f .block (items.flatMap Item.tokens) := fun items => by
    rw [editOf_flatMap, List.flatMap_map]
    rfl
  have hcells : ∀ cells : List (Cell Token), (cells.map (Cell.edit f)).flatMap Cell.tokens =
      editOf f .inline (cells.flatMap Cell.tokens) := fun cells => by
    rw [editOf_flatMap, List.flatMap_map]
    rfl
  rw [inner, children_edit f h, items_edit, header_edit, rows_edit, ← List.map_flatten, ← List.map_append,
    hitems, hcells]
  cases t <;> simp [inner, items, header, rows, innerPlace]

/-! ### Pruning -/

/-- The token itself where it may stand, and nothing elsewhere. -/
def keepAdmitted (place : Place) (t : Token) : List Token := if place.admits t then [t] else []

/-- The forest without its misfits. -/
def prune (place : Place) (ts : List Token) : List Token := editOf keepAdmitted place ts

private theorem misfitsOf_prune_of {place : Place} {ts : List Token}
    (h : ∀ t ∈ ts, place.admits t = true → (t.edit keepAdmitted).misfits place = []) :
    misfitsOf place (prune place ts) = [] := by
  rw [prune, editOf_eq_flatMap]
  simp only [misfitsOf, List.flatMap_assoc, List.flatMap_eq_nil_iff]
  intro t ht
  by_cases hadmits : place.admits t = true
  · simp [keepAdmitted, admits_edit, hadmits, h t ht hadmits]
  · simp [keepAdmitted, admits_edit, hadmits]

theorem misfits_edit_keepAdmitted (t : Token) :
    ∀ place : Place, place.admits t = true → (t.edit keepAdmitted).misfits place = [] := by
  induction t using induct with
  | step t ih =>
      intro place h
      rw [misfits_of_admits (by rwa [admits_edit]), inner_edit _ h, innerPlace_edit]
      exact misfitsOf_prune_of fun u hu hadmits => ih u hu t.innerPlace hadmits

/-- A pruned forest has no misfits left. -/
theorem misfitsOf_prune (place : Place) (ts : List Token) : misfitsOf place (prune place ts) = [] :=
  misfitsOf_prune_of fun t _ hadmits => misfits_edit_keepAdmitted t place hadmits

end Token
end Edit
end MarkdownNodes
