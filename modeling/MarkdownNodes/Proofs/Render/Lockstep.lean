import MarkdownNodes.Proofs.Render.Recipe
import MarkdownNodes.Proofs.Token.Descent

/-! Two renderers of one policy, run side by side. A relation between their runs that is kept when runs
are put together need be checked for single steps only: if it is kept by one step of the two renderers,
it holds of whole renderings. The steps may be confined to some of the levels, if what they render is, too. -/

namespace MarkdownNodes

/-- A relation between runs that is kept when runs are put together. -/
structure Run.Composes (rel : ∀ {ε α : Type}, Run ε α → Run ε α → Prop) : Prop where
  ok {ε α : Type} (a : α) : rel (Run.ok a : Run ε α) (Run.ok a)
  andThen {ε α β : Type} {run run' : Run ε α} {next next' : α → Run ε β} (h : rel run run')
    (hnext : ∀ a, rel (next a) (next' a)) : rel (run.andThen next) (run'.andThen next')

variable {rel : ∀ {ε α : Type}, Run ε α → Run ε α → Prop}

theorem Run.Composes.map (hrel : Run.Composes rel) {ε α β : Type} {run run' : Run ε α} (h : rel run run')
    (f : α → β) : rel (run.andThen fun a => Run.ok (f a)) (run'.andThen fun a => Run.ok (f a)) :=
  hrel.andThen h fun a => hrel.ok (f a)

/-- A recipe is run alike if its parts are, and if unknown tokens are met alike. -/
theorem Recipe.run_lockstep_of_parts (hrel : Run.Composes rel) {unknown unknown' : Run RenderError Node}
    {parts parts' : Parts} (hunknown : rel unknown unknown') {recipe : Recipe}
    (hparts : ∀ part ∈ recipe.parts, rel (parts part) (parts' part)) :
    rel (recipe.run unknown parts) (recipe.run unknown' parts') := by
  cases recipe with
  | unknown => exact hrel.map hunknown _
  | leaf nodes => exact hrel.ok nodes
  | around part nodes => exact hrel.map (hparts part (by simp)) nodes
  | both first second nodes =>
      exact hrel.andThen (hparts first (by simp)) fun a => hrel.map (hparts second (by simp)) (nodes a)

theorem Recipe.run_lockstep (hrel : Run.Composes rel) {unknown unknown' : Run RenderError Node}
    {parts parts' : Parts} (hunknown : rel unknown unknown') (hparts : ∀ part, rel (parts part) (parts' part))
    (recipe : Recipe) : rel (recipe.run unknown parts) (recipe.run unknown' parts') :=
  run_lockstep_of_parts hrel hunknown fun part _ => hparts part

namespace Renderer

section Parts

variable {r r' : Renderer}

theorem renderTokens_lockstep (hrel : Run.Composes rel) {level : Level} {ts : List Token}
    (h : ∀ t ∈ ts, rel (r.renderToken level t) (r'.renderToken level t)) :
    rel (r.renderTokens level ts) (r'.renderTokens level ts) := by
  induction ts with
  | nil => exact hrel.ok []
  | cons t ts ih =>
      have hrest := ih fun u hu => h u (List.mem_cons_of_mem t hu)
      rw [renderTokens, renderTokens]
      exact hrel.andThen (h t List.mem_cons_self) fun first => hrel.map hrest _

theorem renderItems_lockstep (hrel : Run.Composes rel) (hpolicy : r'.policy = r.policy)
    {items : List (Item Token)} (h : ∀ item ∈ items, ∀ t ∈ item.tokens,
      ∀ top, rel (r.renderToken (.block top) t) (r'.renderToken (.block top) t)) :
    rel (r.renderItems items) (r'.renderItems items) := by
  induction items with
  | nil => exact hrel.ok []
  | cons item items ih =>
      have hblocks := renderTokens_lockstep hrel fun t ht => h item List.mem_cons_self t ht item.loose
      have hrest := ih fun i hi => h i (List.mem_cons_of_mem item hi)
      rcases item with ⟨raw, s, task, checked, loose, ts⟩
      rw [renderItems, renderItems, hpolicy]
      exact hrel.andThen hblocks fun blocks => hrel.map hrest _

theorem renderCells_lockstep (hrel : Run.Composes rel) (header : Bool) {cells : List (Cell Token)}
    (h : ∀ cell ∈ cells, ∀ t ∈ cell.tokens,
      rel (r.renderToken (.inline .primary) t) (r'.renderToken (.inline .primary) t)) :
    rel (r.renderCells header cells) (r'.renderCells header cells) := by
  induction cells with
  | nil => exact hrel.ok []
  | cons cell cells ih =>
      have hcontent := renderTokens_lockstep hrel (h cell List.mem_cons_self)
      have hrest := ih fun c hc => h c (List.mem_cons_of_mem cell hc)
      rcases cell with ⟨s, ts, own, align⟩
      rw [renderCells, renderCells]
      exact hrel.andThen hcontent fun content => hrel.map hrest _

theorem renderRows_lockstep (hrel : Run.Composes rel) {rows : List (List (Cell Token))}
    (h : ∀ row ∈ rows, ∀ cell ∈ row, ∀ t ∈ cell.tokens,
      rel (r.renderToken (.inline .primary) t) (r'.renderToken (.inline .primary) t)) :
    rel (r.renderRows rows) (r'.renderRows rows) := by
  induction rows with
  | nil => exact hrel.ok []
  | cons row rows ih =>
      have hcells := renderCells_lockstep hrel false (h row List.mem_cons_self)
      have hrest := ih fun r hr => h r (List.mem_cons_of_mem row hr)
      rw [renderRows, renderRows]
      exact hrel.andThen hcells fun cells => hrel.map hrest _

section Levels

variable {levels : Level → Prop} (hblock : ∀ top, levels (.block top)) (hinline : levels (.inline .primary))

include hblock hinline in
theorem parts_lockstep (hrel : Run.Composes rel) (hpolicy : r'.policy = r.policy) {t : Token}
    (h : ∀ u ∈ t.inner, ∀ level, levels level → rel (r.renderToken level u) (r'.renderToken level u))
    {part : Part} (hpart : part.Within levels) : rel (r.parts t part) (r'.parts t part) := by
  cases part with
  | children level =>
      exact renderTokens_lockstep hrel fun u hu => h u (Token.mem_inner_of_mem_children hu) level hpart
  | items =>
      exact renderItems_lockstep hrel hpolicy fun item hitem u hu top =>
        h u (Token.mem_inner_of_mem_items hitem hu) (.block top) (hblock top)
  | header =>
      exact renderCells_lockstep hrel true fun cell hcell u hu =>
        h u (Token.mem_inner_of_mem_header hcell hu) (.inline .primary) hinline
  | rows =>
      exact renderRows_lockstep hrel fun row hrow cell hcell u hu =>
        h u (Token.mem_inner_of_mem_rows hrow hcell hu) (.inline .primary) hinline

end Levels
end Parts

/-- One step of the two renderers, at one of the given levels, keeps the relation: a token is rendered alike
if its parts at these levels are. -/
def StepsAlikeAt (levels : Level → Prop) (rel : ∀ {ε α : Type}, Run ε α → Run ε α → Prop) (r r' : Renderer)
    (t : Token) : Prop :=
  ∀ level, levels level → ∀ parts parts' : Parts, (∀ part : Part, part.Within levels → rel (parts part) (parts' part)) →
    rel (r.step level t parts) (r'.step level t parts')

section Levels

variable {levels : Level → Prop} (hblock : ∀ top, levels (.block top)) (hinline : levels (.inline .primary))
  (hrel : Run.Composes rel) {r r' : Renderer} (hpolicy : r'.policy = r.policy)
include hblock hinline hrel hpolicy

theorem renderToken_of_stepsAt (t : Token) : (∀ u ∈ t.all, StepsAlikeAt levels rel r r' u) →
    ∀ level, levels level → rel (r.renderToken level t) (r'.renderToken level t) := by
  induction t using Token.induct with
  | step t ih =>
      intro hsteps level hlevel
      rw [renderToken_eq_step, renderToken_eq_step]
      refine hsteps t (Token.mem_all_self t) level hlevel _ _ fun part hpart => ?_
      refine parts_lockstep hblock hinline hrel hpolicy (fun u hu => ?_) hpart
      exact ih u hu fun v hv => hsteps v (Token.mem_all_of_mem_inner hu hv)

/-- A relation that every step at some levels keeps holds of the renderings of a forest at these levels, if the
levels of items and cells are among them. -/
theorem renderTokens_of_stepsAt {ts : List Token} (hsteps : ∀ t ∈ Token.allOf ts, StepsAlikeAt levels rel r r' t)
    {level : Level} (hlevel : levels level) : rel (r.renderTokens level ts) (r'.renderTokens level ts) :=
  renderTokens_lockstep hrel fun t ht => renderToken_of_stepsAt hblock hinline hrel hpolicy t
    (fun u hu => hsteps u (List.mem_flatMap.mpr ⟨t, ht, hu⟩)) level hlevel

end Levels

/-- One step of the two renderers keeps the relation: a token is rendered alike if its parts are. -/
def StepsAlike (rel : ∀ {ε α : Type}, Run ε α → Run ε α → Prop) (r r' : Renderer) (t : Token) : Prop :=
  ∀ level (parts parts' : Parts), (∀ part, rel (parts part) (parts' part)) →
    rel (r.step level t parts) (r'.step level t parts')

/-- A relation that every step keeps holds of the whole renderings of a forest. -/
theorem renderTokens_of_steps (hrel : Run.Composes rel) {r r' : Renderer} (hpolicy : r'.policy = r.policy)
    {ts : List Token} (hsteps : ∀ t ∈ Token.allOf ts, StepsAlike rel r r' t) (level : Level) :
    rel (r.renderTokens level ts) (r'.renderTokens level ts) := by
  have hwithin : ∀ part : Part, part.Within fun _ => True := by
    intro part
    cases part <;> trivial
  exact renderTokens_of_stepsAt (fun _ => trivial) trivial hrel hpolicy
    (fun t ht level _ parts parts' h => hsteps t ht level parts parts' fun part => h part (hwithin part)) trivial

end Renderer
end MarkdownNodes
