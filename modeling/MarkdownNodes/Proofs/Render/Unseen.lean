import MarkdownNodes.Proofs.Render.Edited
import MarkdownNodes.Proofs.Render.Strictness

/-! What does not show. Much of a token is there for other readers than the renderer: its source, the text
that its children repeat, the notes of the lexer. Blank lines among blocks do not show at all. Two forests
that differ in nothing else are rendered alike, and the flag of the blocks at the top makes no difference
either. -/

namespace MarkdownNodes

/-! ### Edits that do not show -/

namespace Token

/-- An edit that neither the drawing of a token shows nor the kinds of its misfits. -/
structure Unseen (policy : Policy) (f : Place → Token → List Token) : Prop where
  drawn (place : Place) (t : Token) : Renderer.drawOf policy place (f place t) = Renderer.draw policy place t
  kinds (place : Place) (t : Token) :
    (misfitsOf place (f place t)).map (·.token.kind) = (t.misfits place).map (·.token.kind)

/-- An edit that no single token shows does not show in a forest: the runs are the same. -/
theorem Unseen.renderTokens_editOf {policy : Policy} {f : Place → Token → List Token} (hf : Unseen policy f)
    (silent top : Bool) (place : Place) (ts : List Token) :
    (Renderer.ofPolicy policy silent).renderTokens (place.level top) (editOf f place ts) =
      (Renderer.ofPolicy policy silent).renderTokens (place.level top) ts := by
  have hkeeps : KeepsDrawing (· = ·) policy f := ⟨hf.drawn, hf.kinds⟩
  exact (hkeeps.renderTokens_editOf Node.Congruence.eq silent top place ts).eq

end Token

/-! ### What shows -/

/-- An item without what does not show of it. Only of a task it shows whether it is checked. -/
def Item.visible {τ : Type} (item : Item τ) : Item τ :=
  { task := item.task, checked := if item.task then item.checked else none, tokens := item.tokens }

/-- A cell without its own text, and without its flag: its place makes it a header cell. -/
def Cell.visible {τ : Type} (cell : Cell τ) : Cell τ := { tokens := cell.tokens, align := cell.align }

namespace Token

/-- A token without what does not show of it, but for what is inside. Only of an ordered list it shows where
it starts, and of a custom token nothing shows but the kind. -/
def visible : Token → Token
  | .space _ => .space ""
  | .hr _ => .hr ""
  | .heading _ depth _ ts => .heading "" depth "" ts
  | .code _ s lang escaped => .code "" s lang escaped
  | .table _ _ header rows => .table "" [] (header.map Cell.visible) (rows.map (List.map Cell.visible))
  | .blockquote _ _ ts => .blockquote "" "" ts
  | .list _ ordered start _ items => .list "" ordered (if ordered then start else 1) false (items.map Item.visible)
  | .listItem item => .listItem item.visible
  | .html _ s _ _ => .html "" s false false
  | .paragraph _ _ ts => .paragraph "" "" ts
  | .text _ s none _ => .text "" s none false
  | .text _ _ (some ts) _ => .text "" "" (some ts) false
  | .escape _ s => .escape "" s
  | .link _ href title _ ts => .link "" href title "" ts
  | .image _ href title s => .image "" href title s
  | .strong _ _ ts => .strong "" "" ts
  | .em _ _ ts => .em "" "" ts
  | .codespan _ s => .codespan "" s
  | .br _ => .br ""
  | .del _ _ ts => .del "" "" ts
  | .custom kind _ _ _ => .custom kind "" "" []

/-- What shows of a token in a place: nothing of blank lines among blocks. -/
def keepVisible (place : Place) (t : Token) : List Token := if place.shows t then [t.visible] else []

/-- The forest without what does not show of it at any depth. -/
def visibleOf (place : Place) (ts : List Token) : List Token := editOf keepVisible place ts

section Visible

variable {place : Place} (t : Token)

@[simp] theorem kind_visible : t.visible.kind = t.kind := by
  rcases t with _ | _ | _ | _ | _ | _ | _ | _ | _ | _ | ⟨_, _, _ | _, _⟩ <;> rfl

@[simp] theorem admits_visible : place.admits t.visible = place.admits t := by
  rcases t with _ | _ | _ | _ | _ | _ | _ | _ | _ | _ | ⟨_, _, _ | _, _⟩ <;> cases place <;> rfl

@[simp] theorem innerPlace_visible : t.visible.innerPlace = t.innerPlace := by
  rcases t with _ | _ | _ | _ | _ | _ | _ | _ | _ | _ | ⟨_, _, _ | _, _⟩ <;> rfl

@[simp] theorem items_visible : t.visible.items = t.items.map Item.visible := by
  rcases t with _ | _ | _ | _ | _ | _ | _ | _ | _ | _ | ⟨_, _, _ | _, _⟩ <;> rfl

@[simp] theorem header_visible : t.visible.header = t.header.map Cell.visible := by
  rcases t with _ | _ | _ | _ | _ | _ | _ | _ | _ | _ | ⟨_, _, _ | _, _⟩ <;> rfl

@[simp] theorem rows_visible : t.visible.rows = t.rows.map (List.map Cell.visible) := by
  rcases t with _ | _ | _ | _ | _ | _ | _ | _ | _ | _ | ⟨_, _, _ | _, _⟩ <;> rfl

variable {t}

theorem children_visible (h : place.admits t = true) : t.visible.children = t.children := by
  rcases t with _ | _ | _ | _ | _ | _ | _ | _ | _ | _ | ⟨_, _, _ | _, _⟩ <;>
    simp [visible, children, Item.visible, Place.admits] at h ⊢

/-- All tokens one level down may show, those of a custom token aside. -/
theorem inner_visible (h : place.admits t = true) : t.visible.inner = t.inner := by
  have hitem : (fun item : Item Token => item.visible.tokens) = Item.tokens := rfl
  have hcell : (fun cell : Cell Token => cell.visible.tokens) = Cell.tokens := rfl
  rw [inner, children_visible h, items_visible, header_visible, rows_visible, ← List.map_flatten, ← List.map_append,
    List.flatMap_map, List.flatMap_map, hitem, hcell, inner]

end Visible
end Token

namespace Renderer

variable (policy : Policy)

theorem drawItem_visible (item : Item Token) : drawItem policy item.visible = drawItem policy item := by
  rcases item with ⟨raw, s, task, checked, loose, ts⟩
  cases task <;> rfl

theorem drawCell_visible (header : Bool) (cell : Cell Token) :
    drawCell policy header cell.visible = drawCell policy header cell := rfl

theorem drawPart_visible {place : Place} {t : Token} (h : place.admits t = true) (part : Part) :
    drawPart policy t.visible part = drawPart policy t part := by
  cases part with
  | children level => rw [drawPart, drawPart, Token.children_visible h]
  | items =>
      rw [drawPart, drawPart, Token.items_visible, List.map_map]
      exact List.map_congr_left fun item _ => drawItem_visible policy item
  | header =>
      rw [drawPart, drawPart, Token.header_visible, List.map_map]
      exact List.map_congr_left fun cell _ => drawCell_visible policy true cell
  | rows =>
      rw [drawPart, drawPart, Token.rows_visible, List.map_map]
      refine List.map_congr_left fun row _ => ?_
      rw [Function.comp_apply, drawRow, drawRow, List.map_map]
      exact congrArg Node.ofRow (List.map_congr_left fun cell _ => drawCell_visible policy false cell)

/-- The rule for a token makes the same nodes if only what shows of the token is left. -/
theorem nodes_visible (place : Place) (t : Token) (unknown : Node) {parts : Part → List Node}
    (hflag : ∀ top, parts (.children (.block top)) = parts (.children (.block false))) :
    (recipeIn policy place t.visible).nodes unknown parts = (recipeIn policy place t).nodes unknown parts := by
  cases t with
  | text raw s ts escaped => cases ts <;> cases place <;> rfl
  | list raw ordered start loose items => cases ordered <;> cases place <;> rfl
  | listItem item =>
      rcases item with ⟨raw, s, task, checked, loose, ts⟩
      have hloose := hflag loose
      cases task <;> cases place <;> simp [Token.visible, Item.visible, Policy.item, hloose]
  | _ => cases place <;> rfl

theorem draw_visible (place : Place) (t : Token) : draw policy place t.visible = draw policy place t := by
  by_cases h : place.admits t = true
  · have hparts : drawPart policy t.visible = drawPart policy t := funext (drawPart_visible policy h)
    rw [draw_eq, draw_eq, hparts, nodes_visible policy place t _ fun top => rfl]
    simp only [Misfit.node, Misfit.message, Token.kind_visible]
  · have hmisfit : place.admits t = false := by simpa using h
    rw [draw_of_not_admits (by rwa [Token.admits_visible]), draw_of_not_admits hmisfit, Misfit.node, Misfit.node,
      Misfit.message, Misfit.message, Token.kind_visible]

theorem kinds_misfits_visible (place : Place) (t : Token) :
    (t.visible.misfits place).map (·.token.kind) = (t.misfits place).map (·.token.kind) := by
  rw [Token.misfits_eq, Token.misfits_eq, Token.admits_visible, Token.innerPlace_visible]
  by_cases h : place.admits t = true
  · rw [if_pos h, if_pos h, Token.inner_visible h]
  · rw [if_neg h, if_neg h]
    simp

theorem misfits_of_not_shows {place : Place} {t : Token} (h : place.shows t = false) : t.misfits place = [] := by
  cases place with
  | inline => simp [Place.shows] at h
  | block =>
      cases t with
      | space raw => rw [Token.misfits_eq]; rfl
      | _ => simp [Place.shows] at h

theorem unseen_keepVisible : Token.Unseen policy Token.keepVisible where
  drawn place t := by
    by_cases h : place.shows t = true
    · simp [Token.keepVisible, h, drawOf, draw_visible]
    · have hhidden : place.shows t = false := by simpa using h
      simp [Token.keepVisible, hhidden, drawOf, draw_of_not_shows]
  kinds place t := by
    by_cases h : place.shows t = true
    · simp [Token.keepVisible, h, kinds_misfits_visible]
    · have hhidden : place.shows t = false := by simpa using h
      simp [Token.keepVisible, hhidden, misfits_of_not_shows]

/-- Two forests of which the same shows are rendered alike without extensions, among blocks, whatever the flags,
and among inline tokens: the runs come to the same nodes or the same error, and log the same. -/
theorem renderTokens_eq_of_visibleOf_eq (silent top top' : Bool) {place : Place} {ts us : List Token}
    (h : Token.visibleOf place ts = Token.visibleOf place us) :
    (ofPolicy policy silent).renderTokens (place.level top) ts =
      (ofPolicy policy silent).renderTokens (place.level top') us := by
  have hflag : (ofPolicy policy silent).renderTokens (place.level top) us =
      (ofPolicy policy silent).renderTokens (place.level top') us := by
    rw [renderTokens_eq_settle, renderTokens_eq_settle]
  have hf := unseen_keepVisible policy
  rw [← hflag, ← hf.renderTokens_editOf, ← hf.renderTokens_editOf silent top place us]
  exact congrArg _ h

/-- A loose list below blank lines, its one item no task but marked as checked, with the source everywhere. -/
def looseStep : List Token :=
  [.space "\n\n", .list "3. *a*" true 3 true
    [{ raw := "3. *a*", text := "*a*", checked := some true, loose := true,
       tokens := [.paragraph "*a*" "a" [.em "*a*" "a" [.text "a" "a" none true]], .space "\n"] }]]

/-- The same list, but tight and by hand. -/
def tightStep : List Token :=
  [.list "" true 3 false [{ tokens := [.paragraph "" "" [.em "" "" [.text "" "a" none false]]] }]]

theorem renderTokens_eq_of_visibleOf_eq_of_steps :
    Token.visibleOf .block looseStep = Token.visibleOf .block tightStep ∧
      (ofPolicy {} false).renderTokens (.block true) looseStep =
        (ofPolicy {} false).renderTokens (.block false) tightStep ∧
      ((ofPolicy {} false).renderTokens (.block true) looseStep).outcome = .ok [Node.ofList true 3
        [(Node.element "li").hold [(Node.element "p").hold [(Node.element "em").hold [Node.span "a"]]]]] := by
  have hvisible : Token.visibleOf .block looseStep = Token.visibleOf .block tightStep := by rfl
  exact ⟨hvisible, renderTokens_eq_of_visibleOf_eq {} false true false hvisible, rfl⟩

end Renderer
end MarkdownNodes
