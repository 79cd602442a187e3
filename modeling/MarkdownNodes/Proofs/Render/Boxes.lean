import MarkdownNodes.Proofs.Render.Silence
import MarkdownNodes.Proofs.Token.Tasks

/-! The boxes of task items. The built-in rules make no inputs but the boxes of items; in the drawing of a forest
by a policy that marks task items, each that is reached has one, in document order. -/

namespace MarkdownNodes

namespace Node

/-- The node is an input; boxes are. -/
def isInput (n : Node) : Bool := n.kind == .element "input"

/-- The inputs of a forest, at every depth, in document order. -/
def inputsOf (ns : List Node) : List Node := (allOf ns).filter isInput

/-- The inputs inside a node, at every depth, in document order, each behind the node that it stands in. -/
def boxes (n : Node) : List (Node × Node) := n.nested.filter fun s => s.2.isInput

/-- The inputs inside the nodes of a forest. -/
def boxesOf (ns : List Node) : List (Node × Node) := ns.flatMap boxes

/-- There are no inputs among the nodes themselves. -/
def Bare (ns : List Node) : Prop := ∀ n ∈ ns, n.isInput = false

@[simp] theorem bare_nil : Bare [] := List.forall_mem_nil _

@[simp] theorem bare_cons {n : Node} {ns : List Node} : Bare (n :: ns) ↔ n.isInput = false ∧ Bare ns :=
  List.forall_mem_cons

theorem bare_map {α : Type} {f : α → Node} (h : ∀ a, (f a).isInput = false) (l : List α) : Bare (l.map f) :=
  List.forall_mem_map.mpr fun a _ => h a

theorem boxes_eq (n : Node) :
    n.boxes = n.inner.flatMap fun m => (if m.isInput then [(n, m)] else []) ++ m.boxes := by
  rw [boxes, nested_eq, List.filter_flatMap]
  refine List.flatMap_congr fun m _ => ?_
  by_cases h : m.isInput = true <;> simp [boxes, h]

theorem boxes_of_bare {n : Node} (h : Bare n.inner) : n.boxes = boxesOf n.inner := by
  rw [boxes_eq, boxesOf]
  refine List.flatMap_congr fun m hm => ?_
  simp [h m hm]

@[simp] theorem boxesOf_nil : boxesOf [] = [] := rfl

@[simp] theorem boxesOf_append (ns ms : List Node) : boxesOf (ns ++ ms) = boxesOf ns ++ boxesOf ms :=
  List.flatMap_append

theorem boxesOf_singleton {n : Node} {ns : List Node} (hinner : n.inner = ns) (h : Bare ns) :
    boxesOf [n] = boxesOf ns := by
  rw [boxesOf, List.flatMap_singleton, boxes_of_bare (hinner ▸ h), hinner]

/-- If no input stands alone, each stands in the node that it is listed with. -/
theorem inputsOf_of_bare {ns : List Node} (h : Bare ns) : inputsOf ns = (boxesOf ns).map Prod.snd := by
  rw [inputsOf, allOf_eq_flatMap, List.filter_flatMap, boxesOf, List.map_flatMap]
  refine List.flatMap_congr fun n hn => ?_
  rw [all_eq, List.filter_cons_of_neg (by simp [h n hn]), ← map_snd_nested, List.filter_map]
  rfl

@[simp] theorem isInput_element (tag : String) : (element tag).isInput = (tag == "input") := by
  simp [isInput, element]

@[simp] theorem isInput_fragment (ns : List Node) : (fragment ns).isInput = false := rfl

@[simp] theorem isInput_span (s : String) : (span s).isInput = false := rfl

@[simp] theorem isInput_set (node : Node) (name : String) (value : AttrValue) :
    (node.set name value).isInput = node.isInput := rfl

@[simp] theorem isInput_hold (node : Node) (ns : List Node) : (node.hold ns).isInput = node.isInput := rfl

@[simp] theorem isInput_holdText (node : Node) (s : String) : (node.holdText s).isInput = node.isInput := rfl

@[simp] theorem isInput_holdHtml (node : Node) (s : String) : (node.holdHtml s).isInput = node.isInput := rfl

@[simp] theorem isInput_ofError (mode : Mode) (message : String) : (ofError mode message).isInput = false := by
  cases mode <;> rfl

@[simp] theorem isInput_ofList (ordered : Bool) (start : UInt32) (items : List Node) :
    (ofList ordered start items).isInput = false := by
  by_cases h : (ordered && start != 1) = true <;> cases ordered <;> simp [ofList, h]

@[simp] theorem isInput_ofCell (header : Bool) (align : Option Align) (content : List Node) :
    (ofCell header align content).isInput = false := by
  cases header <;> cases align <;> rfl

@[simp] theorem isInput_ofRow (cells : List Node) : (ofRow cells).isInput = false := rfl

@[simp] theorem isInput_ofTable (header rows : List Node) : (ofTable header rows).isInput = false := rfl

theorem heading_tag_ne_input (s : String) : "h" ++ s ≠ "input" := by
  intro h
  have hchars := congrArg String.toList h
  simp at hchars

@[simp] theorem isInput_ofHeading (depth : UInt8) (content : List Node) :
    (ofHeading depth content).isInput = false := by
  simp [ofHeading, heading_tag_ne_input]

@[simp] theorem isInput_ofStrong (content : List Node) : (ofStrong content).isInput = false := rfl

section Policy

variable (policy : Policy)

@[simp] theorem isInput_link (href : String) (title : Option String) (content : List Node) :
    (policy.link href title content).isInput = false := by
  cases hclean : policy.cleanUrl href with
  | none => rw [Policy.link_of_clean_none hclean]; rfl
  | some url =>
      obtain ⟨more, hlink⟩ := Policy.link_of_clean_some hclean title content
      rw [hlink]
      rfl

@[simp] theorem isInput_image (href : String) (title : Option String) (alt : String) :
    (policy.image href title alt).isInput = false := by
  cases title <;> rfl

@[simp] theorem isInput_code (s : String) (lang : Option String) (escaped : Bool) :
    (policy.code s lang escaped).isInput = false := by
  rw [Policy.code]
  cases firstWord? lang <;> rfl

@[simp] theorem isInput_codeBody (s : String) (lang : Option String) (escaped : Bool) :
    (policy.codeBody s lang escaped).isInput = false := by
  rw [Policy.codeBody]
  cases firstWord? lang <;> rfl

@[simp] theorem isInput_checkbox (checked : Bool) : (Policy.checkbox checked).isInput = true := by
  cases checked <;> rfl

@[simp] theorem isInput_item (task : Bool) (checked : Option Bool) (blocks : List Node) :
    (policy.item task checked blocks).isInput = false := rfl

end Policy

theorem textChars_checkbox (checked : Bool) : (Policy.checkbox checked).textChars = [] := by
  cases checked <;> rfl

/-! ### The boxes in what the rules make -/

theorem boxesOf_ofTable {header rows : List Node} (hheader : Bare header) (hrows : Bare rows) :
    boxesOf [ofTable header rows] = boxesOf header ++ boxesOf rows := by
  have hhead : boxesOf [(element "thead").hold [ofRow header]] = boxesOf header := by
    rw [boxesOf_singleton (inner_hold ..) (by simp), boxesOf_singleton (inner_ofRow header) hheader]
  have hbody : boxesOf [(element "tbody").hold rows] = boxesOf rows := boxesOf_singleton (inner_hold ..) hrows
  calc boxesOf [ofTable header rows]
      = boxesOf [(element "thead").hold [ofRow header], (element "tbody").hold rows] :=
        boxesOf_singleton (inner_hold ..) (by simp)
    _ = boxesOf [(element "thead").hold [ofRow header]] ++ boxesOf [(element "tbody").hold rows] :=
        boxesOf_append [_] [_]
    _ = boxesOf header ++ boxesOf rows := by rw [hhead, hbody]

theorem boxesOf_code (policy : Policy) (s : String) (lang : Option String) (escaped : Bool) :
    boxesOf [policy.code s lang escaped] = [] := by
  rw [boxesOf_singleton (policy.inner_code s lang escaped) (by simp),
    boxesOf_singleton (policy.inner_codeBody s lang escaped) (by simp), boxesOf_nil]

/-- An item that is a task brings a box of its own, before those in its blocks. -/
theorem boxesOf_item {policy : Policy} (hon : policy.checkboxes = true) (task : Bool) (checked : Option Bool)
    {blocks : List Node} (hblocks : Bare blocks) : boxesOf [policy.item task checked blocks] =
      (if task then [(policy.item task checked blocks, Policy.checkbox (checked.getD false))] else []) ++
        boxesOf blocks := by
  have hinside : (blocks.flatMap fun m =>
      (if m.isInput then [(policy.item task checked blocks, m)] else []) ++ m.boxes) = boxesOf blocks :=
    List.flatMap_congr fun m hm => by simp [hblocks m hm]
  rw [boxesOf, List.flatMap_singleton, boxes_eq, Policy.inner_item, List.flatMap_append, hinside]
  cases task <;> simp [Policy.marks, hon, boxes_eq (Policy.checkbox _)]

end Node

namespace Renderer

open Node

/-- A rule makes no input of its own, except inside an item. -/
theorem bare_draw (policy : Policy) (place : Place) (t : Token) : Bare (draw policy place t) := by
  rw [draw_eq]
  rcases t with _ | _ | _ | _ | _ | _ | _ | _ | _ | _ | ⟨_, _, _ | _, _⟩ <;> cases place <;>
    simp [Misfit.node]

theorem bare_drawOf (policy : Policy) (place : Place) (ts : List Token) : Bare (drawOf policy place ts) := by
  intro n hn
  obtain ⟨t, _, hdraw⟩ := List.mem_flatMap.mp hn
  exact bare_draw policy place t n hdraw

theorem bare_drawPart (policy : Policy) (t : Token) (part : Part) : Bare (drawPart policy t part) := by
  cases part with
  | children level => exact bare_drawOf policy level.place t.children
  | items => exact bare_map (fun _ => rfl) t.items
  | header => exact bare_map (fun _ => isInput_ofCell ..) t.header
  | rows => exact bare_map (fun _ => rfl) t.rows

/-- The boxes in what a rule makes are those in the parts, in order, behind the own one of an item. -/
theorem boxesOf_nodes {policy : Policy} (hon : policy.checkboxes = true) {place : Place} {t : Token}
    (h : place.admits t = true) (unknown : Node) {parts : Part → List Node} (hparts : ∀ part, Bare (parts part)) :
    boxesOf ((recipeIn policy place t).nodes unknown parts) =
      t.ownTask.map (fun item => (policy.item item.task item.checked (parts (.children (.block item.loose))),
        Policy.checkbox (item.checked.getD false))) ++
      (recipeIn policy place t).gather [] fun part => boxesOf (parts part) := by
  cases place with
  | block =>
      cases t with
      | space raw => rfl
      | hr | html => exact boxesOf_singleton rfl bare_nil
      | code raw s lang escaped => exact boxesOf_code policy s lang escaped
      | heading | paragraph | blockquote | list => exact boxesOf_singleton rfl (hparts _)
      | table => exact boxesOf_ofTable (hparts .header) (hparts .rows)
      | text raw s ts escaped =>
          cases ts with
          | none => exact boxesOf_singleton rfl bare_nil
          | some ts => exact boxesOf_singleton rfl (hparts _)
      | listItem item =>
          rcases item with ⟨raw, s, task, checked, loose, ts⟩
          have hitem := boxesOf_item hon task checked (hparts (.children (.block loose)))
          rw [recipeIn_block, blockRecipe, Recipe.nodes, ofPolicy_policy, hitem, Token.ownTask]
          cases task <;> rfl
      | _ => exact absurd h Bool.false_ne_true
  | inline =>
      cases t with
      | escape | html | codespan | br => exact boxesOf_singleton rfl bare_nil
      | image raw href title s => exact boxesOf_singleton (policy.inner_image href title s) bare_nil
      | strong | em | del => exact boxesOf_singleton rfl (hparts _)
      | link raw href title s ts => exact boxesOf_singleton (policy.inner_link href title _) (hparts _)
      | text raw s ts escaped =>
          cases ts with
          | none => exact boxesOf_singleton rfl bare_nil
          | some ts => exact boxesOf_singleton rfl (hparts _)
      | _ => exact absurd h Bool.false_ne_true

/-- The tokens in a part of a token, with an item of a list as a token of its own. -/
def partBranches (t : Token) : Part → List Token
  | .items => t.items.map .listItem
  | part => part.tokens t

theorem gather_branches {α : Type} (policy : Policy) {place : Place} {t : Token} (h : place.admits t = true)
    (f : Place → Token → List α) :
    ((recipeIn policy place t).gather [] fun part => (partBranches t part).flatMap (f part.place)) =
      t.branches.flatMap (f t.innerPlace) := by
  rcases place with _ | _ <;> rcases t with _ | _ | _ | _ | _ | _ | _ | _ | _ | _ | ⟨_, _, _ | _, _⟩ <;>
    simp [partBranches, Part.tokens, Part.place, Place.admits, Token.branches, Token.inner, Token.innerPlace,
      Token.children, Token.items, Token.header, Token.rows, Level.place] at h ⊢

theorem draw_listItem (policy : Policy) (item : Item Token) :
    draw policy .block (.listItem item) = [drawItem policy item] := by
  rw [draw_eq]
  rfl

theorem boxesOf_drawOf (policy : Policy) (place : Place) (ts : List Token) :
    boxesOf (drawOf policy place ts) = ts.flatMap fun t => boxesOf (draw policy place t) := by
  rw [boxesOf, drawOf, List.flatMap_assoc]
  rfl

theorem boxesOf_drawCells (policy : Policy) (header : Bool) (cells : List (Cell Token)) :
    boxesOf (cells.map (drawCell policy header)) =
      (cells.flatMap Cell.tokens).flatMap fun u => boxesOf (draw policy .inline u) := by
  rw [boxesOf, List.flatMap_map, List.flatMap_assoc]
  refine List.flatMap_congr fun cell _ => ?_
  have hinner : (drawCell policy header cell).inner = drawOf policy .inline cell.tokens := inner_ofCell ..
  rw [boxes_of_bare (hinner ▸ bare_drawOf policy .inline cell.tokens), hinner, boxesOf_drawOf]

theorem boxes_drawRow (policy : Policy) (row : List (Cell Token)) :
    (drawRow policy row).boxes = (row.flatMap Cell.tokens).flatMap fun u => boxesOf (draw policy .inline u) := by
  have hbare : Bare (drawRow policy row).inner := bare_map (fun _ => isInput_ofCell ..) row
  rw [boxes_of_bare hbare]
  exact boxesOf_drawCells policy false row

/-- The boxes in a part of a token are those in the tokens that stand there. -/
theorem boxesOf_drawPart (policy : Policy) (t : Token) (part : Part) :
    boxesOf (drawPart policy t part) =
      (partBranches t part).flatMap fun u => boxesOf (draw policy part.place u) := by
  cases part with
  | children level => exact boxesOf_drawOf policy level.place t.children
  | items =>
      rw [drawPart, partBranches, boxesOf, List.flatMap_map, List.flatMap_map]
      refine List.flatMap_congr fun item _ => ?_
      rw [Part.place, draw_listItem, boxesOf, List.flatMap_singleton]
  | header => exact boxesOf_drawCells policy true t.header
  | rows =>
      calc boxesOf (t.rows.map (drawRow policy))
          = t.rows.flatMap fun row => (drawRow policy row).boxes := by rw [boxesOf, List.flatMap_map]
        _ = t.rows.flatMap fun row => (row.flatMap Cell.tokens).flatMap fun u => boxesOf (draw policy .inline u) :=
            List.flatMap_congr fun row _ => boxes_drawRow policy row
        _ = (t.rows.flatten.flatMap Cell.tokens).flatMap fun u => boxesOf (draw policy .inline u) := by
            simp only [List.flatten_eq_flatMap, List.flatMap_assoc, id]

/-- The node of an item and the box that marks it. -/
def boxOf (policy : Policy) (item : Item Token) : Node × Node :=
  (drawItem policy item, Policy.checkbox (item.checked.getD false))

/-- One step: an item brings its own box, if it is a task, and then come the boxes one level down. -/
theorem boxesOf_draw_of_admits {policy : Policy} (hon : policy.checkboxes = true) {place : Place} {t : Token}
    (h : place.admits t = true) : boxesOf (draw policy place t) =
      t.ownTask.map (boxOf policy) ++ t.branches.flatMap fun u => boxesOf (draw policy t.innerPlace u) := by
  have hown : t.ownTask.map (fun item => (policy.item item.task item.checked
      (drawPart policy t (.children (.block item.loose))), Policy.checkbox (item.checked.getD false))) =
      t.ownTask.map (boxOf policy) := by
    cases t with
    | listItem item =>
        apply List.map_congr_left
        intro other hother
        obtain ⟨rfl, _⟩ := Token.mem_ownTask.mp hother
        rfl
    | _ => rfl
  have hparts : (fun part => boxesOf (drawPart policy t part)) = fun part =>
      (partBranches t part).flatMap fun u => boxesOf (draw policy part.place u) := by
    funext part
    exact boxesOf_drawPart policy t part
  calc boxesOf (draw policy place t)
      = boxesOf ((recipeIn policy place t).nodes (Misfit.node ⟨place, t⟩) (drawPart policy t)) := by rw [draw_eq]
    _ = t.ownTask.map (boxOf policy) ++
          (recipeIn policy place t).gather [] fun part => boxesOf (drawPart policy t part) := by
        rw [boxesOf_nodes hon h _ (bare_drawPart policy t), hown]
    _ = t.ownTask.map (boxOf policy) ++ t.branches.flatMap fun u => boxesOf (draw policy t.innerPlace u) := by
        rw [hparts, gather_branches policy h fun place u => boxesOf (draw policy place u)]

/-- The boxes in the drawing of a token are those of the task items that are reached, in order. -/
theorem boxesOf_draw {policy : Policy} (hon : policy.checkboxes = true) (place : Place) (t : Token) :
    boxesOf (draw policy place t) = (t.tasks place).map (boxOf policy) := by
  induction t using Token.induct_branches generalizing place with
  | step t ih =>
      rw [Token.tasks_eq]
      split
      case isFalse hmisfit =>
        have hnode : boxesOf [Misfit.node ⟨place, t⟩] = boxesOf [] := boxesOf_singleton (inner_ofError ..) bare_nil
        rw [draw_of_not_admits (by simpa using hmisfit), hnode, boxesOf_nil, List.map_nil]
      case isTrue hadmits =>
        rw [boxesOf_draw_of_admits hon hadmits, List.map_append, Token.tasksOf, List.map_flatMap]
        congr 1
        exact List.flatMap_congr fun u hu => ih u hu t.innerPlace

/-- The boxes in a drawing are those of the task items that are reached, in document order. -/
theorem boxesOf_drawOf_eq_tasksOf {policy : Policy} (hon : policy.checkboxes = true) (place : Place)
    (ts : List Token) : boxesOf (drawOf policy place ts) = (Token.tasksOf place ts).map (boxOf policy) := by
  rw [boxesOf_drawOf, Token.tasksOf, List.map_flatMap]
  exact List.flatMap_congr fun t _ => boxesOf_draw hon place t

end Renderer
end MarkdownNodes
