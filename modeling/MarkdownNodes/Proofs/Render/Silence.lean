import MarkdownNodes.Proofs.Render.Edited
import Mathlib.Data.List.Forall2

/-! Silent rendering without extensions. A silent run always succeeds. Each misfit leaves one node that
shows an error and one record in the log, and nothing else in the output shows an error; without these
nodes the output is that of a strict run over the pruned forest. -/

namespace MarkdownNodes

namespace Node

/-- The node shows an error. -/
def showsError (n : Node) : Bool := n.attr? "class" == some (.str "error")

/-- The nodes of a forest that show an error, at every depth, in document order. -/
def errorsOf (ns : List Node) : List Node := (allOf ns).filter showsError

@[simp] theorem errorsOf_nil : errorsOf [] = [] := by simp [errorsOf]

@[simp] theorem errorsOf_append (ns ms : List Node) : errorsOf (ns ++ ms) = errorsOf ns ++ errorsOf ms := by
  simp [errorsOf]

theorem errorsOf_flatMap {α : Type} (l : List α) (f : α → List Node) :
    errorsOf (l.flatMap f) = l.flatMap fun a => errorsOf (f a) := by
  simp [errorsOf, allOf_flatMap, List.filter_flatMap]

/-- A node that shows no error adds nothing to what is inside. -/
theorem errorsOf_cons {n : Node} (h : n.showsError = false) (ns : List Node) :
    errorsOf (n :: ns) = errorsOf n.inner ++ errorsOf ns := by
  simp [errorsOf, all_eq n, h]

/-! ### What the rules make shows no error -/

@[simp] theorem showsError_element (tag : String) : (element tag).showsError = false := by simp [showsError]

@[simp] theorem showsError_fragment (ns : List Node) : (fragment ns).showsError = false := by simp [showsError]

@[simp] theorem showsError_span (s : String) : (span s).showsError = false := by simp [showsError]

@[simp] theorem showsError_hold (node : Node) (ns : List Node) :
    (node.hold ns).showsError = node.showsError := by simp [showsError]

@[simp] theorem showsError_holdText (node : Node) (s : String) :
    (node.holdText s).showsError = node.showsError := by simp [showsError]

@[simp] theorem showsError_holdHtml (node : Node) (s : String) :
    (node.holdHtml s).showsError = node.showsError := by simp [showsError]

/-- Only the class can make a node show an error. -/
theorem showsError_set {node : Node} {name : String} (value : AttrValue) (h : name ≠ "class") :
    (node.set name value).showsError = node.showsError := by
  simp [showsError, h]

theorem showsError_set_class {node : Node} {cls : String} (h : cls ≠ "error") :
    (node.set "class" (.str cls)).showsError = false := by
  simp [showsError, h]

theorem code_class_ne_error (s : String) : "code--" ++ s ≠ "error" := by
  intro h
  have hchars := congrArg String.toList h
  simp at hchars

section Policy

variable (policy : Policy)

@[simp] theorem showsError_link (href : String) (title : Option String) (content : List Node) :
    (policy.link href title content).showsError = false := by
  rw [Policy.link]
  cases policy.cleanUrl href with
  | none => simp
  | some url =>
      cases title with
      | none => simp [showsError_set]
      | some title => by_cases h : title = "" <;> simp [showsError_set, h]

@[simp] theorem showsError_image (href : String) (title : Option String) (alt : String) :
    (policy.image href title alt).showsError = false := by
  cases title <;> simp [Policy.image, showsError_set]

@[simp] theorem showsError_code (s : String) (lang : Option String) (escaped : Bool) :
    (policy.code s lang escaped).showsError = false := by
  rw [Policy.code]
  cases firstWord? lang <;> simp [showsError_set_class (code_class_ne_error _)]

@[simp] theorem showsError_codeBody (s : String) (lang : Option String) (escaped : Bool) :
    (policy.codeBody s lang escaped).showsError = false := by
  rw [Policy.codeBody]
  cases firstWord? lang <;> simp [showsError_set_class (code_class_ne_error _)]

@[simp] theorem showsError_checkbox (checked : Bool) : (Policy.checkbox checked).showsError = false := by
  cases checked <;> simp [Policy.checkbox, showsError_set]

@[simp] theorem showsError_item (task : Bool) (checked : Option Bool) (blocks : List Node) :
    (policy.item task checked blocks).showsError = false := by
  simp [Policy.item_eq_hold]

@[simp] theorem showsError_ofList (ordered : Bool) (start : UInt32) (items : List Node) :
    (ofList ordered start items).showsError = false := by
  by_cases h : (ordered && start != 1) = true <;> simp [ofList, h, showsError_set]

@[simp] theorem showsError_ofCell (header : Bool) (align : Option Align) (content : List Node) :
    (ofCell header align content).showsError = false := by
  cases align <;> simp [ofCell, showsError_set]

@[simp] theorem showsError_ofRow (cells : List Node) : (ofRow cells).showsError = false := by simp [ofRow]

@[simp] theorem showsError_ofHeading (depth : UInt8) (content : List Node) :
    (ofHeading depth content).showsError = false := by simp [ofHeading]

@[simp] theorem showsError_ofStrong (content : List Node) : (ofStrong content).showsError = false := by
  simp [ofStrong, showsError_set_class]

@[simp] theorem showsError_ofTable (header rows : List Node) : (ofTable header rows).showsError = false := by
  simp [ofTable]

theorem withoutErrors_code (s : String) (lang : Option String) (escaped : Bool) :
    (policy.code s lang escaped).without showsError = policy.code s lang escaped := by
  rw [Policy.code]
  cases firstWord? lang <;> simp [withoutOf_singleton, showsError_set_class (code_class_ne_error _)]

theorem withoutErrors_item (task : Bool) (checked : Option Bool) (blocks : List Node) :
    (policy.item task checked blocks).without showsError =
      policy.item task checked (withoutOf showsError blocks) := by
  by_cases h : (task && policy.checkboxes) = true <;>
    simp [Policy.item_eq_hold, Policy.marks, h, withoutOf_cons]

theorem withoutErrors_ofTable (header rows : List Node) :
    (ofTable header rows).without showsError =
      ofTable (withoutOf showsError header) (withoutOf showsError rows) := by
  simp [ofTable, withoutOf_cons]

@[simp] theorem showsError_misfit (m : Misfit) : m.node.showsError = true := by
  simp [Misfit.node, ofError, showsError]

theorem errorsOf_misfit (m : Misfit) : errorsOf [m.node] = [m.node] := by
  rw [errorsOf, allOf_cons, all_eq, show m.node.inner = [] from rfl]
  simp

theorem errorsOf_marks (task : Bool) (checked : Option Bool) : errorsOf (policy.marks task checked) = [] := by
  by_cases h : (task && policy.checkboxes) = true <;> simp [Policy.marks, h, errorsOf_cons]

theorem errorsOf_inner_ofTable (header rows : List Node) :
    errorsOf (ofTable header rows).inner = errorsOf header ++ errorsOf rows := by
  simp [ofTable, errorsOf_cons]

end Policy
end Node

namespace Renderer

open Node

/-! ### Deleting the errors -/

/-- Deleting the errors in what a rule makes is deleting them in the parts. -/
theorem withoutOf_nodes {policy : Policy} {place : Place} {t : Token} (h : place.admits t = true)
    (unknown : Node) (parts : Part → List Node) :
    withoutOf showsError ((recipeIn policy place t).nodes unknown parts) =
      (recipeIn policy place t).nodes unknown fun part => withoutOf showsError (parts part) := by
  rcases t with _ | _ | _ | _ | _ | _ | _ | _ | _ | _ | ⟨_, _, _ | _, _⟩ <;> cases place <;>
    simp [Place.admits, withoutOf_singleton, withoutErrors_code, withoutErrors_item,
      withoutErrors_ofTable] at h ⊢

/-- Deleting the errors in the drawing of a token leaves the drawing of the token without misfits. -/
def Cleans (policy : Policy) (t : Token) : Prop :=
  ∀ place, withoutOf showsError (draw policy place t) =
    drawOf policy place (Token.keepAdmitted place (t.edit Token.keepAdmitted))

theorem showsError_drawItem (policy : Policy) (item : Item Token) :
    (drawItem policy item).showsError = false := showsError_item ..

theorem showsError_drawCell (policy : Policy) (header : Bool) (cell : Cell Token) :
    (drawCell policy header cell).showsError = false := showsError_ofCell ..

theorem showsError_drawRow (policy : Policy) (row : List (Cell Token)) :
    (drawRow policy row).showsError = false := showsError_ofRow _

section Lists

variable {policy : Policy}

theorem withoutErrors_drawOf_of_cleans (place : Place) {ts : List Token} (h : ∀ t ∈ ts, Cleans policy t) :
    withoutOf showsError (drawOf policy place ts) = drawOf policy place (Token.prune place ts) := by
  rw [Token.prune, Token.editOf_eq_flatMap, drawOf, drawOf, withoutOf_flatMap, List.flatMap_assoc]
  exact List.flatMap_congr fun t ht => h t ht place

theorem withoutErrors_drawItem_of_cleans {item : Item Token} (h : ∀ t ∈ item.tokens, Cleans policy t) :
    (drawItem policy item).without showsError = drawItem policy (item.edit Token.keepAdmitted) := by
  rw [drawItem, withoutErrors_item, withoutErrors_drawOf_of_cleans .block h]
  rfl

theorem withoutErrors_drawCell_of_cleans (header : Bool) {cell : Cell Token}
    (h : ∀ t ∈ cell.tokens, Cleans policy t) :
    (drawCell policy header cell).without showsError =
      drawCell policy header (cell.edit Token.keepAdmitted) := by
  rw [drawCell, without_ofCell, withoutErrors_drawOf_of_cleans .inline h]
  rfl

theorem withoutErrors_drawCells_of_cleans (header : Bool) {cells : List (Cell Token)}
    (h : ∀ cell ∈ cells, ∀ t ∈ cell.tokens, Cleans policy t) :
    withoutOf showsError (cells.map (drawCell policy header)) =
      (cells.map (Cell.edit Token.keepAdmitted)).map (drawCell policy header) := by
  rw [withoutOf_map showsError cells fun cell _ => showsError_drawCell policy header cell, List.map_map]
  exact List.map_congr_left fun cell hcell => withoutErrors_drawCell_of_cleans header (h cell hcell)

theorem withoutErrors_drawPart_of_cleans {t : Token} (h : ∀ u ∈ t.inner, Cleans policy u) {place : Place}
    (hadmits : place.admits t = true) {part : Part} (hpart : Primary t part) :
    withoutOf showsError (drawPart policy t part) = drawPart policy (t.edit Token.keepAdmitted) part := by
  cases part with
  | children level =>
      obtain ⟨top, rfl⟩ := hpart
      rw [drawPart, drawPart, Place.place_level, Token.children_edit _ hadmits]
      exact withoutErrors_drawOf_of_cleans _ fun u hu => h u (Token.mem_inner_of_mem_children hu)
  | items =>
      rw [drawPart, drawPart, Token.items_edit, List.map_map,
        withoutOf_map showsError t.items fun item _ => showsError_drawItem policy item]
      exact List.map_congr_left fun item hitem =>
        withoutErrors_drawItem_of_cleans fun u hu => h u (Token.mem_inner_of_mem_items hitem hu)
  | header =>
      rw [drawPart, drawPart, Token.header_edit]
      exact withoutErrors_drawCells_of_cleans true fun cell hcell u hu =>
        h u (Token.mem_inner_of_mem_header hcell hu)
  | rows =>
      rw [drawPart, drawPart, Token.rows_edit, List.map_map,
        withoutOf_map showsError t.rows fun row _ => showsError_drawRow policy row]
      refine List.map_congr_left fun row hrow => ?_
      rw [drawRow, without_ofRow, withoutErrors_drawCells_of_cleans false fun cell hcell u hu =>
        h u (Token.mem_inner_of_mem_rows hrow hcell hu)]
      rfl

end Lists

theorem cleans (policy : Policy) (t : Token) : Cleans policy t := by
  induction t using Token.induct with
  | step t ih =>
      intro place
      by_cases hadmits : place.admits t = true
      · have hparts : ∀ part ∈ (recipeIn policy place t).parts,
            withoutOf showsError (drawPart policy t part) =
              drawPart policy (t.edit Token.keepAdmitted) part :=
          fun part hpart => withoutErrors_drawPart_of_cleans ih hadmits (primary_of_mem_parts hpart)
        have hrule : recipeIn policy place t ≠ .unknown := by
          rw [Ne, recipeIn_eq_unknown_iff, hadmits]
          decide
        rw [draw_eq, withoutOf_nodes hadmits, Token.keepAdmitted, Token.admits_edit, if_pos hadmits, drawOf,
          List.flatMap_singleton, draw_eq, recipeIn_edit]
        exact Recipe.nodes_congr hrule _ _ hparts
      · rw [draw_of_not_admits (by simpa using hadmits), Token.keepAdmitted, Token.admits_edit, if_neg hadmits]
        simp [withoutOf_cons, drawOf]

/-- Deleting the errors in a drawing leaves the drawing of the pruned forest. -/
theorem withoutErrors_drawOf (policy : Policy) (place : Place) (ts : List Token) :
    withoutOf showsError (drawOf policy place ts) = drawOf policy place (Token.prune place ts) :=
  withoutErrors_drawOf_of_cleans place fun t _ => cleans policy t

/-! ### Finding the errors -/

/-- The errors in what a rule makes are those in the parts, in order. -/
theorem errorsOf_nodes (policy : Policy) (place : Place) (t : Token) (m : Misfit) (parts : Part → List Node) :
    errorsOf ((recipeIn policy place t).nodes m.node parts) =
      (recipeIn policy place t).gather [m.node] fun part => errorsOf (parts part) := by
  rcases t with _ | _ | _ | _ | _ | _ | _ | _ | _ | _ | ⟨_, _, _ | _, _⟩ <;> cases place <;>
    simp [errorsOf_cons, errorsOf_misfit, errorsOf_marks, errorsOf_inner_ofTable]

/-- The errors in the drawing of a token are the nodes of its misfits. -/
def Reports (policy : Policy) (t : Token) : Prop :=
  ∀ place, errorsOf (draw policy place t) = (t.misfits place).map Misfit.node

section Lists

variable {policy : Policy}

theorem errorsOf_drawOf_of_reports (place : Place) {ts : List Token} (h : ∀ t ∈ ts, Reports policy t) :
    errorsOf (drawOf policy place ts) = (Token.misfitsOf place ts).map Misfit.node := by
  rw [drawOf, errorsOf_flatMap, Token.misfitsOf, List.map_flatMap]
  exact List.flatMap_congr fun t ht => h t ht place

/-- The errors in nodes that show none themselves are those inside. -/
theorem errorsOf_map {α : Type} {l : List α} {f : α → Node} {g : α → List Node}
    (h : ∀ a ∈ l, (f a).showsError = false ∧ errorsOf (f a).inner = g a) :
    errorsOf (l.map f) = l.flatMap g := by
  induction l with
  | nil => simp
  | cons a l ih =>
      obtain ⟨hshows, hinner⟩ := h a List.mem_cons_self
      rw [List.map_cons, errorsOf_cons hshows, hinner, ih fun b hb => h b (List.mem_cons_of_mem a hb),
        List.flatMap_cons]

theorem errorsOf_drawCells_of_reports (header : Bool) {cells : List (Cell Token)}
    (h : ∀ cell ∈ cells, ∀ t ∈ cell.tokens, Reports policy t) :
    errorsOf (cells.map (drawCell policy header)) =
      (Token.misfitsOf .inline (cells.flatMap Cell.tokens)).map Misfit.node := by
  rw [Token.misfitsOf, List.flatMap_assoc, List.map_flatMap]
  refine errorsOf_map fun cell hcell => ⟨showsError_drawCell policy header cell, ?_⟩
  rw [drawCell, inner_ofCell, errorsOf_drawOf_of_reports .inline (h cell hcell), Token.misfitsOf]

theorem errorsOf_drawPart_of_reports {t : Token} (h : ∀ u ∈ t.inner, Reports policy u) (part : Part) :
    errorsOf (drawPart policy t part) = (partMisfits t part).map Misfit.node := by
  cases part with
  | children level =>
      exact errorsOf_drawOf_of_reports level.place fun u hu => h u (Token.mem_inner_of_mem_children hu)
  | items =>
      rw [drawPart, partMisfits, Part.tokens, Token.misfitsOf, List.flatMap_assoc, List.map_flatMap]
      refine errorsOf_map fun item hitem => ⟨showsError_drawItem policy item, ?_⟩
      rw [drawItem, Policy.inner_item, errorsOf_append, errorsOf_marks, List.nil_append,
        errorsOf_drawOf_of_reports .block fun u hu => h u (Token.mem_inner_of_mem_items hitem hu)]
      rfl
  | header =>
      exact errorsOf_drawCells_of_reports true fun cell hcell u hu =>
        h u (Token.mem_inner_of_mem_header hcell hu)
  | rows =>
      rw [drawPart, partMisfits, Part.tokens, List.flatten_eq_flatMap, List.flatMap_assoc, Token.misfitsOf,
        List.flatMap_assoc, List.map_flatMap]
      refine errorsOf_map fun row hrow => ⟨showsError_drawRow policy row, ?_⟩
      rw [drawRow, inner_ofRow, errorsOf_drawCells_of_reports false fun cell hcell u hu =>
        h u (Token.mem_inner_of_mem_rows hrow hcell hu)]
      rfl

end Lists

theorem reports (policy : Policy) (t : Token) : Reports policy t := by
  induction t using Token.induct with
  | step t ih =>
      intro place
      rw [draw_eq, errorsOf_nodes, ← gather_partMisfits policy place t, Recipe.map_gather]
      congr 1
      funext part
      exact errorsOf_drawPart_of_reports ih part

/-- The errors in a drawing are the nodes of the misfits, in document order. -/
theorem errorsOf_drawOf (policy : Policy) (place : Place) (ts : List Token) :
    errorsOf (drawOf policy place ts) = (Token.misfitsOf place ts).map Misfit.node :=
  errorsOf_drawOf_of_reports place fun t _ => reports policy t

/-- A silent run without extensions, among blocks with either flag or among inline tokens: it succeeds,
and without the nodes that show an error its output is that of the strict run over the pruned forest.
These nodes stand for the misfits one by one, each in the element that its place asks for, and their
texts are the errors of the log in order. -/
theorem silent_output (policy : Policy) (place : Place) (top : Bool) (ts : List Token) :
    ∃ nodes, ((ofPolicy policy true).renderTokens (place.level top) ts).outcome = .ok nodes ∧
      ((ofPolicy policy false).renderTokens (place.level top) (Token.prune place ts)).outcome =
        .ok (withoutOf showsError nodes) ∧
      List.Forall₂ (fun m n => n.kind = .element (match m.place with | .block => "div" | .inline => "span") ∧
          n.text? = some (RenderError.unknownToken m.token.kind).message)
        (Token.misfitsOf place ts) (errorsOf nodes) ∧
      (errorsOf nodes).map Node.text? =
        (((ofPolicy policy true).renderTokens (place.level top) ts).logs.filter (·.level = .error)).map
          fun record => some record.message := by
  refine ⟨drawOf policy place ts, ?_, ?_, ?_, ?_⟩
  · rw [renderTokens_eq_settle]
    rfl
  · rw [renderTokens_eq_settle, Token.misfitsOf_prune, settle_nil, withoutErrors_drawOf]
    rfl
  · rw [errorsOf_drawOf, List.forall₂_map_right_iff, List.forall₂_same]
    rintro ⟨_ | _, t⟩ _ <;> exact ⟨rfl, rfl⟩
  · rw [errorsOf_drawOf, renderTokens_eq_settle]
    have hlevel : (fun record : LogRecord => decide (record.level = .error)) ∘
        (fun m : Misfit => .unknownToken m.token.kind) = fun _ => true := rfl
    rw [settle, List.filter_map, hlevel, List.filter_true, List.map_map, List.map_map]
    rfl

end Renderer
end MarkdownNodes
