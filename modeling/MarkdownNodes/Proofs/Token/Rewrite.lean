import MarkdownNodes.Proofs.Token.Descent

/-! Rewritten tokens. A function of tokens is applied to the tokens one level down, which keeps all else
about the token that holds them, or to the tokens at every depth, from the inside out. -/

namespace MarkdownNodes

variable {τ υ : Type}

def Item.map (f : τ → υ) (item : Item τ) : Item υ := { item with tokens := item.tokens.map f }

def Cell.map (f : τ → υ) (cell : Cell τ) : Cell υ := { cell with tokens := cell.tokens.map f }

@[simp] theorem Item.map_id (item : Item τ) : item.map id = item := by simp [Item.map]

@[simp] theorem Cell.map_id (cell : Cell τ) : cell.map id = cell := by simp [Cell.map]

namespace Token

/-- Rewrites the tokens one level down, wherever they stand. -/
def mapInner (f : Token → Token) : Token → Token
  | .heading raw depth s ts => .heading raw depth s (ts.map f)
  | .table raw align header rows => .table raw align (header.map (Cell.map f)) (rows.map (List.map (Cell.map f)))
  | .blockquote raw s ts => .blockquote raw s (ts.map f)
  | .list raw ordered start loose items => .list raw ordered start loose (items.map (Item.map f))
  | .listItem item => .listItem (item.map f)
  | .paragraph raw s ts => .paragraph raw s (ts.map f)
  | .text raw s ts escaped => .text raw s (ts.map (List.map f)) escaped
  | .link raw href title s ts => .link raw href title s (ts.map f)
  | .strong raw s ts => .strong raw s (ts.map f)
  | .em raw s ts => .em raw s (ts.map f)
  | .del raw s ts => .del raw s (ts.map f)
  | .custom kind raw s ts => .custom kind raw s (ts.map f)
  | t => t

section MapInner

variable (f : Token → Token) (t : Token)

@[simp] theorem kind_mapInner : (t.mapInner f).kind = t.kind := by cases t <;> rfl

@[simp] theorem children_mapInner : (t.mapInner f).children = t.children.map f := by
  rcases t with _ | _ | _ | _ | _ | _ | _ | _ | _ | _ | ⟨_, _, _ | _, _⟩ <;> rfl

@[simp] theorem items_mapInner : (t.mapInner f).items = t.items.map (Item.map f) := by cases t <;> rfl

@[simp] theorem header_mapInner : (t.mapInner f).header = t.header.map (Cell.map f) := by cases t <;> rfl

@[simp] theorem rows_mapInner : (t.mapInner f).rows = t.rows.map (List.map (Cell.map f)) := by cases t <;> rfl

@[simp] theorem mapInner_id : t.mapInner id = t := by
  have hitem : (Item.map id : Item Token → Item Token) = id := funext Item.map_id
  have hcell : (Cell.map id : Cell Token → Cell Token) = id := funext Cell.map_id
  cases t <;> simp [mapInner, hitem, hcell]

end MapInner

end Token

section Rewrite

variable (f : Token → Token)

mutual

/-- Rewrites the tokens at every depth inside a token. -/
def Token.rewriteInner : Token → Token
  | .heading raw depth s ts => .heading raw depth s (Token.rewriteEach ts)
  | .table raw align header rows => .table raw align (Cell.rewriteEach header) (Cell.rewriteRows rows)
  | .blockquote raw s ts => .blockquote raw s (Token.rewriteEach ts)
  | .list raw ordered start loose items => .list raw ordered start loose (Item.rewriteEach items)
  | .listItem ⟨raw, s, task, checked, loose, ts⟩ => .listItem ⟨raw, s, task, checked, loose, Token.rewriteEach ts⟩
  | .paragraph raw s ts => .paragraph raw s (Token.rewriteEach ts)
  | .text raw s (some ts) escaped => .text raw s (some (Token.rewriteEach ts)) escaped
  | .link raw href title s ts => .link raw href title s (Token.rewriteEach ts)
  | .strong raw s ts => .strong raw s (Token.rewriteEach ts)
  | .em raw s ts => .em raw s (Token.rewriteEach ts)
  | .del raw s ts => .del raw s (Token.rewriteEach ts)
  | .custom kind raw s ts => .custom kind raw s (Token.rewriteEach ts)
  | t => t

def Token.rewriteEach : List Token → List Token
  | [] => []
  | t :: ts => f (Token.rewriteInner t) :: Token.rewriteEach ts

def Item.rewriteEach : List (Item Token) → List (Item Token)
  | [] => []
  | ⟨raw, s, task, checked, loose, ts⟩ :: items =>
      ⟨raw, s, task, checked, loose, Token.rewriteEach ts⟩ :: Item.rewriteEach items

def Cell.rewriteEach : List (Cell Token) → List (Cell Token)
  | [] => []
  | ⟨s, ts, header, align⟩ :: cells => ⟨s, Token.rewriteEach ts, header, align⟩ :: Cell.rewriteEach cells

def Cell.rewriteRows : List (List (Cell Token)) → List (List (Cell Token))
  | [] => []
  | row :: rows => Cell.rewriteEach row :: Cell.rewriteRows rows

end

/-- Rewrites the tokens at every depth, the token itself last. -/
def Token.rewrite (t : Token) : Token := f (Token.rewriteInner f t)

@[simp] theorem Token.rewriteEach_eq (ts : List Token) : Token.rewriteEach f ts = ts.map (Token.rewrite f) := by
  induction ts with
  | nil => rw [Token.rewriteEach, List.map_nil]
  | cons t ts ih =>
      rw [Token.rewriteEach, ih, List.map_cons]
      rfl

@[simp] theorem Item.rewriteEach_eq (items : List (Item Token)) :
    Item.rewriteEach f items = items.map (Item.map (Token.rewrite f)) := by
  induction items with
  | nil => rw [Item.rewriteEach, List.map_nil]
  | cons item items ih =>
      rcases item with ⟨raw, s, task, checked, loose, ts⟩
      rw [Item.rewriteEach, ih, Token.rewriteEach_eq, List.map_cons]
      rfl

@[simp] theorem Cell.rewriteEach_eq (cells : List (Cell Token)) :
    Cell.rewriteEach f cells = cells.map (Cell.map (Token.rewrite f)) := by
  induction cells with
  | nil => rw [Cell.rewriteEach, List.map_nil]
  | cons cell cells ih =>
      rcases cell with ⟨s, ts, header, align⟩
      rw [Cell.rewriteEach, ih, Token.rewriteEach_eq, List.map_cons]
      rfl

@[simp] theorem Cell.rewriteRows_eq (rows : List (List (Cell Token))) :
    Cell.rewriteRows f rows = rows.map (List.map (Cell.map (Token.rewrite f))) := by
  induction rows with
  | nil => rw [Cell.rewriteRows, List.map_nil]
  | cons row rows ih => rw [Cell.rewriteRows, ih, Cell.rewriteEach_eq, List.map_cons]

/-- To rewrite a token is to rewrite the tokens one level down and then the token itself. -/
theorem Token.rewrite_eq (t : Token) : t.rewrite f = f (t.mapInner (Token.rewrite f)) := by
  rw [Token.rewrite]
  congr 1
  rcases t with _ | _ | _ | _ | _ | _ | _ | _ | _ | _ | ⟨_, _, _ | _, _⟩ <;>
    simp [Token.rewriteInner, Token.mapInner, Item.map]

end Rewrite
end MarkdownNodes
