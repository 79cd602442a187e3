import MarkdownNodes.Proofs.Render.Recipe
import MarkdownNodes.Proofs.Token.Place

/-! Rendering without extensions. What such a run comes to is told by two things that the renderer's
silence does not touch: the misfits of the forest, and the drawing, which is what a silent renderer
shows. A silent run logs the misfits and ends in the drawing; any other run fails at the first misfit,
and ends in the drawing if there is none. -/

namespace MarkdownNodes

/-- The level of tokens in a place; the flag is that of blocks. -/
def Place.level : Place → Bool → Level
  | .block, top => .block top
  | .inline, _ => .inline .primary

def Place.mode : Place → Mode
  | .block => .block true
  | .inline => .inline

def Level.place : Level → Place
  | .block _ => .block
  | .inline _ => .inline

/-- The place where the tokens of a part stand. -/
def Part.place : Part → Place
  | .children level => level.place
  | .items => .block
  | .header | .rows => .inline

/-- The tokens one level down that stand in a part of a token. -/
def Part.tokens (t : Token) : Part → List Token
  | .children _ => t.children
  | .items => t.items.flatMap Item.tokens
  | .header => t.header.flatMap Cell.tokens
  | .rows => t.rows.flatten.flatMap Cell.tokens

@[simp] theorem Place.place_level (place : Place) (top : Bool) : (place.level top).place = place := by
  cases place <;> rfl

/-- What a silent renderer says of a misfit. -/
def Misfit.message (m : Misfit) : String := (RenderError.unknownToken m.token.kind).message

/-- What a silent renderer shows of a misfit. -/
def Misfit.node (m : Misfit) : Node := Node.ofError m.place.mode m.message

/-! ### Settled runs -/

/-- The run of a renderer without extensions that meets the given misfits on the way to a result. -/
def settle {α : Type} (silent : Bool) (misfits : List Misfit) (a : α) : Run RenderError α :=
  match silent, misfits with
  | true, _ => { outcome := .ok a, logs := misfits.map fun m => .unknownToken m.token.kind }
  | false, [] => .ok a
  | false, m :: _ => .fail (.unknownToken m.token.kind)

section Settle

variable {α β : Type} (silent : Bool)

@[simp] theorem settle_nil (a : α) : settle silent [] a = .ok a := by
  cases silent <;> rfl

/-- A settled run goes on to a settled run: misfits are met in order. -/
theorem settle_andThen {misfits more : List Misfit} {a : α} {b : β} {next : α → Run RenderError β}
    (h : next a = settle silent more b) :
    (settle silent misfits a).andThen next = settle silent (misfits ++ more) b := by
  cases silent with
  | true => simp [settle, Run.andThen, h]
  | false =>
      cases misfits with
      | nil => exact h
      | cons m rest => rfl

/-- A settled run that succeeds does so on account of its misfits: with only some of them any other would,
too. -/
theorem settle_ok_of_subset {misfits more : List Misfit} {a a' : α} (hmore : more ⊆ misfits)
    (h : (settle silent misfits a).outcome = .ok a') (b : β) : (settle silent more b).outcome = .ok b := by
  cases silent with
  | true => rfl
  | false =>
      cases misfits with
      | nil => rw [List.subset_nil.mp hmore, settle_nil]; rfl
      | cons m rest => cases h

theorem settle_andThen_ok {misfits : List Misfit} {a : α} (f : α → β) :
    ((settle silent misfits a).andThen fun a => .ok (f a)) = settle silent misfits (f a) := by
  have h : ((settle silent misfits a).andThen fun a => .ok (f a)) = settle silent (misfits ++ []) (f a) :=
    settle_andThen silent (settle_nil silent (f a)).symm
  rw [h, List.append_nil]

end Settle

/-! ### The drawing -/

namespace Renderer

/-- The renderer without extensions that follows a policy. -/
def ofPolicy (policy : Policy) (silent : Bool) : Renderer := { policy, silent }

@[simp] theorem ofPolicy_policy (policy : Policy) (silent : Bool) : (ofPolicy policy silent).policy = policy := rfl

@[simp] theorem ofPolicy_text (policy : Policy) (silent : Bool) : (ofPolicy policy silent).text = .nested := rfl

/-- What a silent renderer shows of a token in a place. -/
def draw (policy : Policy) (place : Place) (t : Token) : List Node :=
  ((ofPolicy policy true).renderToken (place.level true) t).outcome.toOption.getD []

/-- The drawing of a forest. -/
def drawOf (policy : Policy) (place : Place) (ts : List Token) : List Node := ts.flatMap (draw policy place)

def drawItem (policy : Policy) (item : Item Token) : Node :=
  policy.item item.task item.checked (drawOf policy .block item.tokens)

def drawCell (policy : Policy) (header : Bool) (cell : Cell Token) : Node :=
  Node.ofCell header cell.align (drawOf policy .inline cell.tokens)

def drawRow (policy : Policy) (row : List (Cell Token)) : Node := Node.ofRow (row.map (drawCell policy false))

/-- The drawing of a part of a token. -/
def drawPart (policy : Policy) (t : Token) : Part → List Node
  | .children level => drawOf policy level.place t.children
  | .items => t.items.map (drawItem policy)
  | .header => t.header.map (drawCell policy true)
  | .rows => t.rows.map (drawRow policy)

/-- The misfits in a part of a token. -/
def partMisfits (t : Token) (part : Part) : List Misfit := Token.misfitsOf part.place (part.tokens t)

/-- The recipe for a token in a place. -/
def recipeIn (policy : Policy) (place : Place) (t : Token) : Recipe :=
  (ofPolicy policy true).recipe (place.level true) t

theorem recipe_eq_recipeIn (policy : Policy) (silent top : Bool) (place : Place) (t : Token) :
    (ofPolicy policy silent).recipe (place.level top) t = recipeIn policy place t := by
  cases place <;> rfl

@[simp] theorem recipeIn_block (policy : Policy) (t : Token) :
    recipeIn policy .block t = (ofPolicy policy true).blockRecipe t := rfl

@[simp] theorem recipeIn_inline (policy : Policy) (t : Token) :
    recipeIn policy .inline t = (ofPolicy policy true).inlineRecipe .nested t := rfl

/-- Every run of the token without extensions is settled by its misfits and its drawing. -/
def Settles (policy : Policy) (t : Token) : Prop :=
  ∀ place silent top, (ofPolicy policy silent).renderToken (place.level top) t =
    settle silent (t.misfits place) (draw policy place t)

section Lists

variable {policy : Policy} (silent : Bool)

theorem renderTokens_of_settles (place : Place) (top : Bool) {ts : List Token}
    (h : ∀ t ∈ ts, Settles policy t) :
    (ofPolicy policy silent).renderTokens (place.level top) ts =
      settle silent (Token.misfitsOf place ts) (drawOf policy place ts) := by
  induction ts with
  | nil => simp [renderTokens, drawOf]
  | cons t ts ih =>
      have hrest := ih fun u hu => h u (List.mem_cons_of_mem t hu)
      rw [renderTokens, h t List.mem_cons_self place silent top, hrest]
      exact settle_andThen silent (settle_andThen_ok silent _)

theorem renderItems_of_settles {items : List (Item Token)}
    (h : ∀ item ∈ items, ∀ t ∈ item.tokens, Settles policy t) :
    (ofPolicy policy silent).renderItems items =
      settle silent (Token.misfitsOf .block (items.flatMap Item.tokens)) (items.map (drawItem policy)) := by
  induction items with
  | nil => simp [renderItems]
  | cons item items ih =>
      have hfirst := renderTokens_of_settles silent .block item.loose (h item List.mem_cons_self)
      have hrest := ih fun i hi => h i (List.mem_cons_of_mem item hi)
      rcases item with ⟨raw, s, task, checked, loose, ts⟩
      rw [renderItems, hrest]
      simp only [Place.level] at hfirst
      rw [hfirst, List.flatMap_cons, Token.misfitsOf_append]
      exact settle_andThen silent (settle_andThen_ok silent _)

theorem renderCells_of_settles (header : Bool) {cells : List (Cell Token)}
    (h : ∀ cell ∈ cells, ∀ t ∈ cell.tokens, Settles policy t) :
    (ofPolicy policy silent).renderCells header cells =
      settle silent (Token.misfitsOf .inline (cells.flatMap Cell.tokens))
        (cells.map (drawCell policy header)) := by
  induction cells with
  | nil => simp [renderCells]
  | cons cell cells ih =>
      have hfirst := renderTokens_of_settles silent .inline true (h cell List.mem_cons_self)
      have hrest := ih fun c hc => h c (List.mem_cons_of_mem cell hc)
      rcases cell with ⟨s, ts, own, align⟩
      rw [renderCells, hrest]
      simp only [Place.level] at hfirst
      rw [hfirst, List.flatMap_cons, Token.misfitsOf_append]
      exact settle_andThen silent (settle_andThen_ok silent _)

theorem renderRows_of_settles {rows : List (List (Cell Token))}
    (h : ∀ row ∈ rows, ∀ cell ∈ row, ∀ t ∈ cell.tokens, Settles policy t) :
    (ofPolicy policy silent).renderRows rows =
      settle silent (Token.misfitsOf .inline (rows.flatten.flatMap Cell.tokens))
        (rows.map (drawRow policy)) := by
  induction rows with
  | nil => simp [renderRows]
  | cons row rows ih =>
      have hfirst := renderCells_of_settles silent false (h row List.mem_cons_self)
      have hrest := ih fun r hr => h r (List.mem_cons_of_mem row hr)
      rw [renderRows, hrest, hfirst, List.flatten_cons, List.flatMap_append, Token.misfitsOf_append]
      exact settle_andThen silent (settle_andThen_ok silent _)

end Lists

/-! ### One step -/

theorem unknown_eq_settle (policy : Policy) (silent top : Bool) (m : Misfit) :
    (ofPolicy policy silent).unknown (m.place.level top).mode m.token.kind = settle silent [m] m.node := by
  rcases m with ⟨_ | _, t⟩ <;> cases silent <;> rfl

theorem run_eq_settle {policy : Policy} {silent top : Bool} {m : Misfit} {parts : Parts}
    {misfits : Part → List Misfit} {nodes : Part → List Node} {recipe : Recipe}
    (h : ∀ part ∈ recipe.parts, parts part = settle silent (misfits part) (nodes part)) :
    recipe.run ((ofPolicy policy silent).unknown (m.place.level top).mode m.token.kind) parts =
      settle silent (recipe.gather [m] misfits) (recipe.nodes m.node nodes) := by
  cases recipe with
  | unknown =>
      rw [Recipe.run, unknown_eq_settle]
      exact settle_andThen_ok silent _
  | leaf ns => exact (settle_nil silent ns).symm
  | around part f =>
      rw [Recipe.run, h part (by simp)]
      exact settle_andThen_ok silent _
  | both first second f =>
      rw [Recipe.run, h first (by simp), h second (by simp)]
      exact settle_andThen silent (settle_andThen_ok silent _)

/-- The children are rendered where they stand, by the primary rules. -/
def Primary (t : Token) : Part → Prop
  | .children level => ∃ top, level = t.innerPlace.level top
  | _ => True

theorem primary_of_mem_parts {policy : Policy} {place : Place} {t : Token} {part : Part}
    (h : part ∈ (recipeIn policy place t).parts) : Primary t part := by
  rcases place with _ | _ <;> rcases t with _ | _ | _ | _ | _ | _ | _ | _ | _ | _ | ⟨_, _, _ | _, _⟩ <;>
    simp at h <;>
    rcases h with rfl | rfl <;> simp [Primary, Token.innerPlace, Place.level]

/-- What is gathered from the tokens of the rendered parts is what the tokens one level down give. -/
theorem gather_tokens {α : Type} (policy : Policy) (place : Place) (t : Token) (unknown : List α)
    (f : Place → Token → List α) :
    ((recipeIn policy place t).gather unknown fun part => (part.tokens t).flatMap (f part.place)) =
      if place.admits t then t.inner.flatMap (f t.innerPlace) else unknown := by
  rcases place with _ | _ <;> rcases t with _ | _ | _ | _ | _ | _ | _ | _ | _ | _ | ⟨_, _, _ | _, _⟩ <;>
    simp [Part.tokens, Part.place, Place.admits, Token.inner, Token.innerPlace, Token.children, Token.items,
      Token.header, Token.rows, Level.place]

theorem gather_partMisfits (policy : Policy) (place : Place) (t : Token) :
    (recipeIn policy place t).gather [⟨place, t⟩] (partMisfits t) = t.misfits place := by
  rw [Token.misfits_eq]
  exact gather_tokens policy place t [⟨place, t⟩] Token.misfits

theorem parts_of_settles {policy : Policy} (silent : Bool) {t : Token} (h : ∀ u ∈ t.inner, Settles policy u)
    {part : Part} (hpart : Primary t part) :
    (ofPolicy policy silent).parts t part = settle silent (partMisfits t part) (drawPart policy t part) := by
  cases part with
  | children level =>
      obtain ⟨top, rfl⟩ := hpart
      have hrun := renderTokens_of_settles silent t.innerPlace top fun u hu =>
        h u (Token.mem_inner_of_mem_children hu)
      simpa only [parts, partMisfits, Part.place, Part.tokens, drawPart, Place.place_level] using hrun
  | items =>
      exact renderItems_of_settles silent fun item hitem u hu => h u (Token.mem_inner_of_mem_items hitem hu)
  | header =>
      exact renderCells_of_settles silent true fun cell hcell u hu => h u (Token.mem_inner_of_mem_header hcell hu)
  | rows =>
      exact renderRows_of_settles silent fun row hrow cell hcell u hu =>
        h u (Token.mem_inner_of_mem_rows hrow hcell hu)

theorem step_ofPolicy (policy : Policy) (silent : Bool) (level : Level) (t : Token) (parts : Parts) :
    (ofPolicy policy silent).step level t parts = (ofPolicy policy silent).builtIn level t parts := rfl

/-- One step: where the tokens one level down settle, the token is settled by what its recipe makes
of their drawings. -/
theorem renderToken_of_settles {policy : Policy} {t : Token} (h : ∀ u ∈ t.inner, Settles policy u)
    (place : Place) (silent top : Bool) :
    (ofPolicy policy silent).renderToken (place.level top) t =
      settle silent (t.misfits place)
        ((recipeIn policy place t).nodes (Misfit.node ⟨place, t⟩) (drawPart policy t)) := by
  have hparts : ∀ part ∈ (recipeIn policy place t).parts, (ofPolicy policy silent).parts t part =
      settle silent (partMisfits t part) (drawPart policy t part) :=
    fun part hpart => parts_of_settles silent h (primary_of_mem_parts hpart)
  rw [renderToken_eq_step, step_ofPolicy, builtIn_eq_run, recipe_eq_recipeIn, ← gather_partMisfits policy]
  exact run_eq_settle hparts (m := ⟨place, t⟩)

theorem draw_of_settles {policy : Policy} {t : Token} (h : ∀ u ∈ t.inner, Settles policy u) (place : Place) :
    draw policy place t = (recipeIn policy place t).nodes (Misfit.node ⟨place, t⟩) (drawPart policy t) := by
  rw [draw, renderToken_of_settles h]
  rfl

theorem settles (policy : Policy) (t : Token) : Settles policy t := by
  induction t using Token.induct with
  | step t ih =>
      intro place silent top
      rw [draw_of_settles ih, renderToken_of_settles ih]

/-- The drawing of a token: what its recipe makes of the drawings of its parts. -/
theorem draw_eq (policy : Policy) (place : Place) (t : Token) :
    draw policy place t = (recipeIn policy place t).nodes (Misfit.node ⟨place, t⟩) (drawPart policy t) :=
  draw_of_settles (fun u _ => settles policy u) place

theorem recipeIn_eq_unknown_iff {policy : Policy} {place : Place} {t : Token} :
    recipeIn policy place t = .unknown ↔ place.admits t = false := by
  rcases t with _ | _ | _ | _ | _ | _ | _ | _ | _ | _ | ⟨_, _, _ | _, _⟩ <;> cases place <;>
    simp [Place.admits]

theorem draw_of_not_admits {policy : Policy} {place : Place} {t : Token} (h : place.admits t = false) :
    draw policy place t = [Misfit.node ⟨place, t⟩] := by
  rw [draw_eq, recipeIn_eq_unknown_iff.mpr h]
  rfl

/-- Rendering without extensions comes to the misfits and the drawing. -/
theorem renderTokens_eq_settle (policy : Policy) (place : Place) (silent top : Bool) (ts : List Token) :
    (ofPolicy policy silent).renderTokens (place.level top) ts =
      settle silent (Token.misfitsOf place ts) (drawOf policy place ts) :=
  renderTokens_of_settles silent place top fun t _ => settles policy t

/-- A run without extensions that succeeds ends in the drawing. -/
theorem eq_drawOf_of_ok {policy : Policy} {silent top : Bool} {place : Place} {ts : List Token} {nodes : List Node}
    (h : ((ofPolicy policy silent).renderTokens (place.level top) ts).outcome = .ok nodes) :
    nodes = drawOf policy place ts := by
  rw [renderTokens_eq_settle] at h
  rcases silent with _ | _
  · cases hmisfits : Token.misfitsOf place ts <;> rw [hmisfits] at h <;> cases h
    rfl
  · cases h
    rfl

end Renderer
end MarkdownNodes
