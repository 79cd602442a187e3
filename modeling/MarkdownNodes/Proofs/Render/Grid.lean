import MarkdownNodes.Render.Renderer
import Mathlib.Data.List.Forall2

/-! Tables. The cells of a table are rendered in turn, those of the header first and then row by row, up to
the first that fails. If none does, the nodes form the same grid as the cells: a row of nodes for each row of
cells, and in it a node for each cell, whatever the lengths of the rows and whatever the cells say of
themselves. -/

namespace MarkdownNodes

namespace Run

variable {ε α β β' γ : Type}

/-- What a run comes to that makes others in turn, one for each input, up to the first that fails. -/
inductive InTurn (make : γ → Run ε α) (Good : β → Prop) : List γ → Run ε β → Prop where
  | done {inputs : List γ} {b : β} (hinputs : ∀ c ∈ inputs, ∃ a, (make c).outcome = .ok a) (hb : Good b) :
      InTurn make Good inputs
        { outcome := .ok b, calls := inputs.flatMap fun c => (make c).calls,
          logs := inputs.flatMap fun c => (make c).logs }
  | failed {before after : List γ} {c : γ} {e : ε} (hbefore : ∀ c ∈ before, ∃ a, (make c).outcome = .ok a)
      (hfails : (make c).outcome = .error e) :
      InTurn make Good (before ++ c :: after)
        { outcome := .error e, calls := (before ++ [c]).flatMap fun c => (make c).calls,
          logs := (before ++ [c]).flatMap fun c => (make c).logs }

namespace InTurn

variable {make : γ → Run ε α} {Good : β → Prop} {Good' : β' → Prop} {inputs inputs' : List γ} {run : Run ε β}

theorem ofOk {b : β} (hb : Good b) : InTurn make Good [] (Run.ok b) := .done (by simp) hb

/-- A run of its own is the only one it makes. -/
theorem one (c : γ) : InTurn make (fun a => (make c).outcome = .ok a) [c] (make c) := by
  rcases hrun : make c with ⟨e | a, calls, logs⟩
  · have hfailed : InTurn make (fun a => (make c).outcome = .ok a) ([] ++ c :: []) _ :=
      .failed (by simp) (congrArg outcome hrun)
    simpa [hrun] using hfailed
  · have hdone : InTurn make (fun a => (make c).outcome = .ok a) [c] _ :=
      .done (by simp [hrun]) (congrArg outcome hrun)
    simpa [hrun] using hdone

theorem andThen (h : InTurn make Good inputs run) {next : β → Run ε β'}
    (hnext : ∀ b, Good b → InTurn make Good' inputs' (next b)) :
    InTurn make Good' (inputs ++ inputs') (run.andThen next) := by
  cases h with
  | done hinputs hb =>
      rw [andThen_of_ok rfl]
      have hrest := hnext _ hb
      generalize next _ = rest at hrest ⊢
      cases hrest with
      | done hinputs' hb' =>
          rw [← List.flatMap_append, ← List.flatMap_append]
          exact .done (List.forall_mem_append.mpr ⟨hinputs, hinputs'⟩) hb'
      | failed hbefore hfails =>
          rw [← List.flatMap_append, ← List.flatMap_append, ← List.append_assoc, ← List.append_assoc]
          exact .failed (List.forall_mem_append.mpr ⟨hinputs, hbefore⟩) hfails
  | failed hbefore hfails =>
      rw [andThen_of_error rfl, List.append_assoc, List.cons_append]
      exact .failed hbefore hfails

theorem map (h : InTurn make Good inputs run) {f : β → β'} (hf : ∀ b, Good b → Good' (f b)) :
    InTurn make Good' inputs (run.andThen fun b => ok (f b)) := by
  rw [← List.append_nil inputs]
  exact h.andThen fun b hb => ofOk (hf b hb)

end InTurn
end Run

namespace Renderer

/-! ### Nodes in a grid -/

/-- The node of a cell, in the header or in the body. It holds what the cell's tokens are rendered to. -/
structure ShowsCell (r : Renderer) (header : Bool) (cell : Cell Token) (n : Node) : Prop where
  kind : n.kind = .element (if header then "th" else "td")
  attrs : n.attrs = (cell.align.map fun align => ("align", .str align.name)).toList
  content : ∃ content, (r.renderInline cell.tokens).outcome = .ok content ∧ n.content = .nodes content

/-- The node of a row, with one node for each cell. -/
structure ShowsRow (r : Renderer) (header : Bool) (cells : List (Cell Token)) (n : Node) : Prop where
  kind : n.kind = .element "tr"
  attrs : n.attrs = []
  content : ∃ nodes, n.content = .nodes nodes ∧ List.Forall₂ (ShowsCell r header) cells nodes

/-- The node of a table, with one row in its head and in its body one for each row. -/
def ShowsTable (r : Renderer) (header : List (Cell Token)) (rows : List (List (Cell Token))) (n : Node) : Prop :=
  ∃ head body,
    n = { kind := .element "table", content := .nodes [
      { kind := .element "thead", content := .nodes [head] },
      { kind := .element "tbody", content := .nodes body }] } ∧
    ShowsRow r true header head ∧ List.Forall₂ (ShowsRow r false) rows body

variable {r : Renderer}

theorem showsCell_ofCell {cell : Cell Token} {content : List Node}
    (h : (r.renderInline cell.tokens).outcome = .ok content) (header : Bool) :
    ShowsCell r header cell (Node.ofCell header cell.align content) := by
  refine ⟨?_, ?_, content, h, ?_⟩ <;> cases cell.align <;> rfl

theorem showsRow_ofRow {header : Bool} {cells : List (Cell Token)} {nodes : List Node}
    (h : List.Forall₂ (ShowsCell r header) cells nodes) : ShowsRow r header cells (Node.ofRow nodes) :=
  ⟨rfl, rfl, nodes, rfl, h⟩

/-! ### Cells in turn -/

/-- The run makes the renderings of cells in turn. -/
def RendersCells (r : Renderer) (Good : List Node → Prop) (cells : List (Cell Token))
    (run : Run RenderError (List Node)) : Prop :=
  Run.InTurn (fun cell : Cell Token => r.renderInline cell.tokens) Good cells run

theorem rendersCells_renderCells (header : Bool) (cells : List (Cell Token)) :
    r.RendersCells (List.Forall₂ (ShowsCell r header) cells) cells (r.renderCells header cells) := by
  induction cells with
  | nil => exact .ofOk .nil
  | cons cell cells ih =>
      have hcell : r.RendersCells (fun content => (r.renderInline cell.tokens).outcome = .ok content) [cell]
          (r.renderInline cell.tokens) := Run.InTurn.one cell
      exact hcell.andThen fun content hcontent => ih.map fun nodes hnodes =>
        .cons (showsCell_ofCell hcontent header) hnodes

theorem rendersCells_renderRows (rows : List (List (Cell Token))) :
    r.RendersCells (List.Forall₂ (ShowsRow r false) rows) rows.flatten (r.renderRows rows) := by
  induction rows with
  | nil => exact .ofOk .nil
  | cons row rows ih =>
      rw [List.flatten_cons]
      exact (rendersCells_renderCells false row).andThen fun cells hcells => ih.map fun nodes hnodes =>
        .cons (showsRow_ofRow hcells) hnodes

/-- A table that is left to the built-in rule. -/
theorem renderTokens_table (h : r.extensions.rule? "table" = none) (top : Bool) (raw : String)
    (align : List (Option Align)) (header : List (Cell Token)) (rows : List (List (Cell Token))) :
    r.renderTokens (.block top) [.table raw align header rows] =
      (r.renderCells true header).andThen fun head =>
        (r.renderRows rows).andThen fun body => .ok [Node.ofTable head body] := by
  have hkind : r.extensions.rule? (Token.table raw align header rows).kind = none := h
  simp [renderTokens, renderToken_eq_step, step, extend, hkind, builtIn, blockNode, parts, Token.header,
    Token.rows, Run.andThen_assoc]

theorem rendersCells_table (h : r.extensions.rule? "table" = none) (top : Bool) (raw : String)
    (align : List (Option Align)) (header : List (Cell Token)) (rows : List (List (Cell Token))) :
    r.RendersCells (fun nodes => ∃ n, nodes = [n] ∧ ShowsTable r header rows n) (header ++ rows.flatten)
      (r.renderTokens (.block top) [.table raw align header rows]) := by
  rw [renderTokens_table h]
  exact (rendersCells_renderCells true header).andThen fun head hhead =>
    (rendersCells_renderRows rows).map fun body hbody =>
      ⟨_, rfl, _, body, rfl, showsRow_ofRow hhead, hbody⟩

/-! ### The grid -/

/-- The rendering of a table's cells into a grid. -/
structure RendersGrid (r : Renderer) (header : List (Cell Token)) (rows : List (List (Cell Token)))
    (run : Run RenderError (List Node)) : Prop where
  ok_iff : (∃ nodes, run.outcome = .ok nodes) ↔
    ∀ cell ∈ header ++ rows.flatten, ∃ content, (r.renderInline cell.tokens).outcome = .ok content
  shows : ∀ nodes, run.outcome = .ok nodes → (∃ n, nodes = [n] ∧ ShowsTable r header rows n) ∧
    run.calls = (header ++ rows.flatten).flatMap (fun cell => (r.renderInline cell.tokens).calls) ∧
    run.logs = (header ++ rows.flatten).flatMap fun cell => (r.renderInline cell.tokens).logs
  /-- A failure is that of the first cell that fails, and the cells after it leave no records. -/
  stops : ∀ e, run.outcome = .error e → ∃ before cell after, header ++ rows.flatten = before ++ cell :: after ∧
    (∀ cell ∈ before, ∃ content, (r.renderInline cell.tokens).outcome = .ok content) ∧
    (r.renderInline cell.tokens).outcome = .error e ∧
    run.calls = (before ++ [cell]).flatMap (fun cell => (r.renderInline cell.tokens).calls) ∧
    run.logs = (before ++ [cell]).flatMap fun cell => (r.renderInline cell.tokens).logs

/-- A table that no extension takes over is rendered to the grid of its cells. It succeeds just if every cell
does; it fails with the first cell that fails, and no later cell is met. -/
theorem table_renders_grid {r : Renderer} (h : r.extensions.rule? "table" = none) (top : Bool) (raw : String)
    (align : List (Option Align)) (header : List (Cell Token)) (rows : List (List (Cell Token))) :
    RendersGrid r header rows (r.renderTokens (.block top) [.table raw align header rows]) := by
  have hrun := rendersCells_table h top raw align header rows
  generalize r.renderTokens (.block top) [.table raw align header rows] = run at hrun ⊢
  generalize hcells : header ++ rows.flatten = cells at hrun
  cases hrun with
  | done hcontents hnodes =>
      subst hcells
      exact {
        ok_iff := iff_of_true ⟨_, rfl⟩ hcontents
        shows := fun nodes hok => by
          cases hok
          exact ⟨hnodes, rfl, rfl⟩
        stops := fun e herror => by cases herror }
  | @failed before after cell e hbefore hfails =>
      have hnot : ¬ ∀ c ∈ header ++ rows.flatten, ∃ content, (r.renderInline c.tokens).outcome = .ok content := by
        intro hall
        obtain ⟨content, hcontent⟩ := hall cell (hcells ▸ List.mem_append_right before List.mem_cons_self)
        cases hfails.symm.trans hcontent
      exact {
        ok_iff := iff_of_false (by rintro ⟨nodes, hok⟩; cases hok) hnot
        shows := fun nodes hok => by cases hok
        stops := fun e' herror => by
          cases herror
          exact ⟨before, cell, after, hcells, hbefore, hfails, rfl, rfl⟩ }

/-- A table with rows of different lengths, cells whose flags contradict their place, and an extension for what
stands in them; one cell holds a token that is unknown there. -/
theorem table_renders_grid_of_ragged_rows :
    (Extensions.ofList [("em", { action := .wrapInline "i" })]).rule? "table" = none ∧
      RendersGrid { extensions := .ofList [("em", { action := .wrapInline "i" })] }
        [{ tokens := [.em "" "a" [.text "" "a" none false]] }]
        [[], [{ tokens := [.br ""], header := true, align := some .left }, { tokens := [.hr ""] }]]
        (({ extensions := .ofList [("em", { action := .wrapInline "i" })] } : Renderer).renderTokens (.block true)
          [.table "" [some .right] [{ tokens := [.em "" "a" [.text "" "a" none false]] }]
            [[], [{ tokens := [.br ""], header := true, align := some .left }, { tokens := [.hr ""] }]]]) :=
  ⟨rfl, table_renders_grid rfl true "" [some .right] _ _⟩

end Renderer
end MarkdownNodes
