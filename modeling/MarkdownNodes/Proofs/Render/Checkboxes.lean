import MarkdownNodes.Proofs.Render.Agreement
import MarkdownNodes.Proofs.Render.Boxes

/-! Checkboxes. A renderer that marks task items does all that one does which marks none, and shows the same
nodes but for one box at the start of each task item that is reached. -/

namespace MarkdownNodes

/-! ### Deleting the inputs -/

/-- The policy, with the choice whether task items start with a checkbox. -/
def Policy.checking (policy : Policy) (on : Bool) : Policy := { policy with checkboxes := on }

namespace Node

/-- The second forest is the first without its inputs. -/
def Unchecked (ns ns' : List Node) : Prop := withoutOf isInput ns = ns'

namespace Unchecked

variable {ns ns' ms ms' : List Node}

theorem of_inputsOf_eq_nil (h : inputsOf ns = []) : Unchecked ns ns :=
  withoutOf_eq_self ns fun n hn => by simpa using List.filter_eq_nil_iff.mp h n hn

theorem append (h : Unchecked ns ns') (hmore : Unchecked ms ms') : Unchecked (ns ++ ms) (ns' ++ ms') := by
  rw [Unchecked, withoutOf_append, h, hmore]

theorem span (s : String) : Unchecked [Node.span s] [Node.span s] :=
  .of_inputsOf_eq_nil (by simp [inputsOf, all_eq])

theorem hold {n : Node} (hn : n.isInput = false) (h : Unchecked ns ns') : Unchecked [n.hold ns] [n.hold ns'] := by
  rw [Unchecked, withoutOf_singleton (by simpa using hn), without_hold, h]

theorem marks (policy : Policy) (task : Bool) (checked : Option Bool) : Unchecked (policy.marks task checked) [] := by
  by_cases h : (task && policy.checkboxes) = true <;> simp [Unchecked, Policy.marks, h, withoutOf_cons]

/-- An item loses its mark, and what cells and rows lose they lose inside. -/
theorem carries (policy : Policy) : Carries Unchecked (policy.checking true) (policy.checking false) where
  nil := withoutOf_nil isInput
  append := append
  item h task checked := by
    have hnone : (policy.checking false).marks task checked = [] := by simp [Policy.marks, Policy.checking]
    rw [Policy.item_eq_hold, Policy.item_eq_hold, hnone]
    exact ((marks _ task checked).append h).hold rfl
  cell h header align := by
    rw [Unchecked, withoutOf_singleton (isInput_ofCell header align _), without_ofCell, h]
  row h := h.hold rfl

end Unchecked
end Node

namespace Renderer

open Node

section Checking

variable (policy : Policy) (silent : Bool)

/-! ### The built-in rules -/

theorem alike_textRecipe_unchecked (rule : TextRule) (s : String) (parsed : Bool) :
    Recipe.Alike Unchecked (textRecipe rule s parsed) (textRecipe rule s parsed) :=
  .text Unchecked.span (fun _ _ h => h.hold (isInput_fragment [])) rule s parsed

theorem alike_blockRecipe_checking (t : Token) :
    Recipe.Alike Unchecked ((ofPolicy (policy.checking true) silent).blockRecipe t)
      ((ofPolicy (policy.checking false) silent).blockRecipe t) := by
  cases t with
  | space | hr | html | code => exact .leaf (.of_inputsOf_eq_nil (by simp [inputsOf, all_eq]))
  | heading raw depth => exact .around _ fun _ _ h => h.hold (isInput_ofHeading depth [])
  | paragraph | blockquote => exact .around _ fun _ _ h => h.hold rfl
  | text raw s ts escaped => exact alike_textRecipe_unchecked .nested s ts.isSome
  | list raw ordered start => exact .around _ fun _ _ h => h.hold (isInput_ofList ordered start [])
  | listItem item => exact .around _ fun _ _ h => (Unchecked.carries policy).item h item.task item.checked
  | table =>
      exact .both _ _ fun _ _ _ _ hheader hrows =>
        (((hheader.hold rfl).hold rfl).append (hrows.hold rfl)).hold rfl
  | _ => exact .unknown

theorem alike_inlineRecipe_checking (rule : TextRule) (t : Token) :
    Recipe.Alike Unchecked ((ofPolicy (policy.checking true) silent).inlineRecipe rule t)
      ((ofPolicy (policy.checking false) silent).inlineRecipe rule t) := by
  cases t with
  | escape | html | codespan | br | image => exact .leaf (.of_inputsOf_eq_nil (by simp [inputsOf, all_eq]))
  | strong | em | del => exact .around _ fun _ _ h => h.hold rfl
  | text raw s ts escaped => exact alike_textRecipe_unchecked rule s ts.isSome
  | link raw href title s ts =>
      refine .around _ fun ns ns' h => ?_
      rw [Unchecked, withoutOf_singleton (isInput_link ..), Policy.without_link, h]
      rfl
  | _ => exact .unknown

theorem alike_recipe_checking (level : Level) (t : Token) :
    Recipe.Alike Unchecked ((ofPolicy (policy.checking true) silent).recipe level t)
      ((ofPolicy (policy.checking false) silent).recipe level t) := by
  rcases level with top | _ | _ | _
  · exact alike_blockRecipe_checking policy silent t
  · exact alike_inlineRecipe_checking policy silent .nested t
  · exact alike_inlineRecipe_checking policy silent .bracketed t
  · exact .plain Unchecked.span t

/-! ### Whole renderings -/

theorem unknown_checking (mode : Mode) (kind : String) :
    Run.Agree (fun n n' => Unchecked [n] [n']) ((ofPolicy (policy.checking true) silent).unknown mode kind)
      ((ofPolicy (policy.checking false) silent).unknown mode kind) := by
  cases silent with
  | false => exact .ofFail _
  | true => exact .ok (.of_inputsOf_eq_nil (by simp [inputsOf, all_eq])) [] _

theorem renderToken_checking (t : Token) : ∀ level,
    Run.Agree Unchecked ((ofPolicy (policy.checking true) silent).renderToken level t)
      ((ofPolicy (policy.checking false) silent).renderToken level t) := by
  induction t using Token.induct with
  | step t ih =>
      intro level
      have hparts : ∀ part, Run.Agree Unchecked ((ofPolicy (policy.checking true) silent).parts t part)
          ((ofPolicy (policy.checking false) silent).parts t part) := parts_agree_self (Unchecked.carries policy) ih
      rw [renderToken_eq_step, renderToken_eq_step, step_ofPolicy, step_ofPolicy, builtIn_eq_run, builtIn_eq_run]
      exact (alike_recipe_checking policy silent level t).run_agree
        (unknown_checking policy silent level.mode t.kind) fun part _ => hparts part

theorem renderTokens_checking (level : Level) (ts : List Token) :
    Run.Agree Unchecked ((ofPolicy (policy.checking true) silent).renderTokens level ts)
      ((ofPolicy (policy.checking false) silent).renderTokens level ts) := by
  have hcarries : Carries Unchecked (ofPolicy (policy.checking true) silent).policy
      (ofPolicy (policy.checking false) silent).policy := Unchecked.carries policy
  exact renderTokens_agree_self hcarries fun t _ => renderToken_checking policy silent t level

end Checking

/-! ### The boxes of the task items -/

/-- The pair is the node that an item renders to alone, which is an element of a list, and the box that this starts
with; the box is checked exactly if the item is. -/
structure Marks (r : Renderer) (item : Item Token) (s : Node × Node) : Prop where
  own (top : Bool) : (r.renderToken (.block top) (.listItem item)).outcome = .ok [s.1]
  element : s.1.kind = .element "li"
  first : s.1.inner.head? = some s.2
  checked : (s.2.attr? "checked").isSome = true ↔ item.checked = some true

theorem isSome_checked_checkbox (checked : Option Bool) :
    ((Policy.checkbox (checked.getD false)).attr? "checked").isSome = true ↔ checked = some true := by
  rcases checked with _ | _ | _ <;> simp [Policy.checkbox]

/-- In a run that succeeds and marks task items, each that is reached has its box in the drawing. -/
theorem marks_boxOf {policy : Policy} (hon : policy.checkboxes = true) {silent top : Bool} {place : Place}
    {ts : List Token} {nodes : List Node}
    (h : ((ofPolicy policy silent).renderTokens (place.level top) ts).outcome = .ok nodes) {item : Item Token}
    (hitem : item ∈ Token.tasksOf place ts) : Marks (ofPolicy policy silent) item (boxOf policy item) := by
  obtain ⟨htask, hmisfits⟩ := Token.task_and_misfits_of_mem_tasksOf hitem
  refine ⟨fun top => ?own, rfl, ?first, isSome_checked_checkbox item.checked⟩
  case own =>
    have hsettles := settles policy (.listItem item) .block silent top
    rw [draw_listItem] at hsettles
    rw [renderTokens_eq_settle] at h
    rw [show Level.block top = Place.block.level top from rfl, hsettles]
    exact settle_ok_of_subset silent hmisfits h _
  case first =>
    rw [boxOf, drawItem, Policy.inner_item, Policy.marks, htask, hon]
    rfl

/-- The first nodes are the second and the boxes of task items besides. -/
structure AddsBoxes (r : Renderer) (tasks : List (Item Token)) (nodes nodes' : List Node) : Prop where
  /-- Deleting the inputs at every depth leaves the second nodes. -/
  without : withoutOf isInput nodes = nodes'
  text : Node.text nodes = Node.text nodes'
  /-- No input stands alone. -/
  inside : inputsOf nodes = (boxesOf nodes).map Prod.snd
  /-- In document order, the inputs are the boxes of the task items, one each. -/
  marks : List.Forall₂ (Marks r) tasks (boxesOf nodes)

/-- Rendering without extensions, among blocks with either flag or among inline tokens: marking task items only adds
boxes. With it and without, a run fails with the same error or succeeds, and logs the same; if it succeeds, the nodes
are those without it and a box at the start of each task item that is reached. -/
theorem checkboxes_only_add_boxes (policy : Policy) (silent top : Bool) (place : Place) (ts : List Token) :
    Run.Agree (AddsBoxes (ofPolicy (policy.checking true) silent) (Token.tasksOf place ts))
      ((ofPolicy (policy.checking true) silent).renderTokens (place.level top) ts)
      ((ofPolicy (policy.checking false) silent).renderTokens (place.level top) ts) := by
  apply (renderTokens_checking policy silent (place.level top) ts).imp_of_ok
  intro nodes nodes' hnodes hwithout
  have hon : (policy.checking true).checkboxes = true := rfl
  have hinputs : inputsOf nodes = (boxesOf nodes).map Prod.snd := by
    rw [eq_drawOf_of_ok hnodes]
    exact inputsOf_of_bare (bare_drawOf (policy.checking true) place ts)
  have hboxes : boxesOf nodes = (Token.tasksOf place ts).map (boxOf (policy.checking true)) := by
    rw [eq_drawOf_of_ok hnodes, boxesOf_drawOf_eq_tasksOf hon]
  refine ⟨hwithout, ?text, hinputs, ?marks⟩
  case text =>
    -- An input is the box of an item, and there is no text in it.
    have hempty : ∀ m ∈ allOf nodes, m.isInput = true → m.textChars = [] := by
      intro m hm hinput
      have hbox : m ∈ inputsOf nodes := List.mem_filter.mpr ⟨hm, hinput⟩
      rw [hinputs, hboxes, List.map_map] at hbox
      obtain ⟨item, _, rfl⟩ := List.mem_map.mp hbox
      exact textChars_checkbox _
    rw [Node.text, Node.text, ← textCharsOf_withoutOf nodes hempty, show withoutOf isInput nodes = nodes' from hwithout]
  case marks =>
    rw [hboxes, List.forall₂_map_right_iff, List.forall₂_same]
    exact fun item hitem => marks_boxOf hon hnodes hitem

end Renderer
end MarkdownNodes
