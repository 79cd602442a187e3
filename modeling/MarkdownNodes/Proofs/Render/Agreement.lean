import MarkdownNodes.Proofs.Render.Offer
import MarkdownNodes.Proofs.Token.Rewrite

/-! Two renderings that agree. They leave the same records, and end in the same error or in nodes that are
related; the renderers may differ in what they make of the parts of a token, and the second may be given
another token in the place of each. A relation that the items, cells and rows of the two renderers keep is
carried from the tokens one level down to the parts of a token. -/

namespace MarkdownNodes

namespace Run

variable {ε ε' α α' β β' : Type}

/-- The runs leave the same records and end in the same error, or in results that are related. -/
inductive Agree (R : α → β → Prop) : Run ε α → Run ε β → Prop where
  | ok {a : α} {b : β} (h : R a b) (calls : List Call) (logs : List LogRecord) :
      Agree R { outcome := .ok a, calls, logs } { outcome := .ok b, calls, logs }
  | error (e : ε) (calls : List Call) (logs : List LogRecord) :
      Agree R { outcome := .error e, calls, logs } { outcome := .error e, calls, logs }

namespace Agree

variable {R : α → β → Prop} {S : α' → β' → Prop} {run : Run ε α} {run' : Run ε β}

theorem ofOk {a : α} {b : β} (h : R a b) : Agree R (Run.ok a : Run ε α) (Run.ok b) := .ok h [] []

theorem ofFail (e : ε) : Agree R (Run.fail e : Run ε α) (Run.fail e) := .error e [] []

theorem andThen {next : α → Run ε α'} {next' : β → Run ε β'} (h : Agree R run run')
    (hnext : ∀ a b, R a b → Agree S (next a) (next' b)) : Agree S (run.andThen next) (run'.andThen next') := by
  cases h with
  | error e calls logs => exact .error e calls logs
  | ok h calls logs =>
      have hrest := hnext _ _ h
      rw [andThen_of_ok rfl, andThen_of_ok rfl]
      generalize next _ = rest, next' _ = rest' at hrest ⊢
      cases hrest with
      | error e calls' logs' => exact .error e _ _
      | ok h' calls' logs' => exact .ok h' _ _

theorem map (h : Agree R run run') {f : α → α'} {g : β → β'} (hfg : ∀ a b, R a b → S (f a) (g b)) :
    Agree S (f <$> run) (g <$> run') :=
  h.andThen fun a b hab => ofOk (hfg a b hab)

/-- Runs that agree end in what is related even better, if it is so on account of what the first ends in. -/
theorem imp_of_ok {R' : α → β → Prop} (h : Agree R run run')
    (himp : ∀ a b, run.outcome = .ok a → R a b → R' a b) : Agree R' run run' := by
  cases h with
  | error e calls logs => exact .error e calls logs
  | ok h calls logs => exact .ok (himp _ _ rfl h) calls logs

theorem imp {R' : α → β → Prop} (h : Agree R run run') (himp : ∀ a b, R a b → R' a b) : Agree R' run run' :=
  h.imp_of_ok fun a b _ => himp a b

theorem mapError (h : Agree R run run') (f : ε → ε') : Agree R (run.mapError f) (run'.mapError f) := by
  cases h with
  | error e calls logs => exact .error (f e) calls logs
  | ok h calls logs => exact .ok h calls logs

theorem refl {R : α → α → Prop} (hR : ∀ a, R a a) (run : Run ε α) : Agree R run run := by
  rcases run with ⟨e | a, calls, logs⟩
  · exact .error e calls logs
  · exact .ok (hR a) calls logs

theorem eq {run run' : Run ε α} (h : Agree (· = ·) run run') : run = run' := by
  cases h with
  | error e calls logs => rfl
  | ok h calls logs => rw [h]

end Agree
end Run

/-- A relation of forests is kept by what two policies make of the parts of tokens. -/
structure Carries (R : List Node → List Node → Prop) (policy policy' : Policy) : Prop where
  nil : R [] []
  append {ns ns' ms ms' : List Node} (h : R ns ns') (hmore : R ms ms') : R (ns ++ ms) (ns' ++ ms')
  item {ns ns' : List Node} (h : R ns ns') (task : Bool) (checked : Option Bool) :
    R [policy.item task checked ns] [policy'.item task checked ns']
  cell {ns ns' : List Node} (h : R ns ns') (header : Bool) (align : Option Align) :
    R [Node.ofCell header align ns] [Node.ofCell header align ns']
  row {ns ns' : List Node} (h : R ns ns') : R [Node.ofRow ns] [Node.ofRow ns']

theorem Carries.eq (policy : Policy) : Carries (· = ·) policy policy where
  nil := rfl
  append h hmore := by rw [h, hmore]
  item h task checked := by rw [h]
  cell h header align := by rw [h]
  row h := by rw [h]

/-- Two recipes render the same parts and make related nodes of related ones. -/
inductive Recipe.Alike (R : List Node → List Node → Prop) : Recipe → Recipe → Prop where
  | unknown : Alike R .unknown .unknown
  | leaf {ns ns' : List Node} (h : R ns ns') : Alike R (.leaf ns) (.leaf ns')
  | around (part : Part) {f f' : List Node → List Node} (h : ∀ ns ns', R ns ns' → R (f ns) (f' ns')) :
      Alike R (.around part f) (.around part f')
  | both (first second : Part) {f f' : List Node → List Node → List Node}
      (h : ∀ ns ns' ms ms', R ns ns' → R ms ms' → R (f ns ms) (f' ns' ms')) :
      Alike R (.both first second f) (.both first second f')

theorem Recipe.Alike.eq (recipe : Recipe) : Recipe.Alike (· = ·) recipe recipe := by
  cases recipe with
  | unknown => exact .unknown
  | leaf ns => exact .leaf rfl
  | around part f => exact .around part fun ns ns' h => by rw [h]
  | both first second f => exact .both first second fun ns ns' ms ms' h hmore => by rw [h, hmore]

section Text

variable {R : List Node → List Node → Prop} (hspan : ∀ s, R [Node.span s] [Node.span s])

include hspan

theorem Recipe.Alike.text (hfragment : ∀ ns ns', R ns ns' → R [Node.fragment ns] [Node.fragment ns'])
    (rule : TextRule) (s : String) (parsed : Bool) :
    Recipe.Alike R (Renderer.textRecipe rule s parsed) (Renderer.textRecipe rule s parsed) := by
  cases rule with
  | bracketed => exact .leaf (hspan _)
  | nested =>
      cases parsed with
      | false => exact .leaf (hspan s)
      | true => exact .around _ hfragment

theorem Recipe.Alike.plain (t : Token) : Recipe.Alike R (Renderer.plainRecipe t) (Renderer.plainRecipe t) := by
  cases t with
  | space | hr | heading | code | table | blockquote | list | listItem | paragraph | custom => exact .unknown
  | _ => exact .leaf (hspan _)

end Text

theorem Recipe.Alike.run_agree {R : List Node → List Node → Prop} {recipe recipe' : Recipe}
    (h : Recipe.Alike R recipe recipe') {unknown unknown' : Run RenderError Node} {parts parts' : Parts}
    (hunknown : Run.Agree (fun n n' => R [n] [n']) unknown unknown')
    (hparts : ∀ part ∈ recipe.parts, Run.Agree R (parts part) (parts' part)) :
    Run.Agree R (recipe.run unknown parts) (recipe'.run unknown' parts') := by
  cases h with
  | unknown => exact hunknown.map fun n n' hn => hn
  | leaf h => exact .ofOk h
  | around part h => exact (hparts part (by simp)).map h
  | both first second h =>
      exact (hparts first (by simp)).andThen fun ns ns' hns =>
        (hparts second (by simp)).map fun ms ms' hms => h ns ns' ms ms' hns hms

/-- What an extension makes of related nodes is related. -/
def Handling.Keeps (R : List Node → List Node → Prop) : Handling → Prop
  | .builtIn | .fails _ => True
  | .gives ns => R ns ns
  | .around _ f => ∀ ns ns', R ns ns' → R (f ns) (f ns')

theorem Handling.run_agree {R : List Node → List Node → Prop} {handling : Handling} (h : handling.Keeps R)
    {kind : String} {builtIn builtIn' : Run RenderError (List Node)} {parts parts' : Parts}
    (hbuiltIn : Run.Agree R builtIn builtIn') (hparts : ∀ part, Run.Agree R (parts part) (parts' part)) :
    Run.Agree R (handling.run kind builtIn parts) (handling.run kind builtIn' parts') := by
  cases handling with
  | builtIn => exact hbuiltIn
  | fails reason => exact .ofFail _
  | gives ns => exact .ofOk h
  | around level f => exact ((hparts (.children level)).mapError _).map h

namespace Renderer

section Parts

variable {R : List Node → List Node → Prop} {r r' : Renderer} {f : Token → Token}

theorem renderTokens_agree (hR : Carries R r.policy r'.policy) {level level' : Level} {ts : List Token}
    (h : ∀ t ∈ ts, Run.Agree R (r.renderToken level t) (r'.renderToken level' (f t))) :
    Run.Agree R (r.renderTokens level ts) (r'.renderTokens level' (ts.map f)) := by
  induction ts with
  | nil => exact .ofOk hR.nil
  | cons t ts ih =>
      have hrest := ih fun u hu => h u (List.mem_cons_of_mem t hu)
      rw [List.map_cons, renderTokens, renderTokens]
      exact (h t List.mem_cons_self).andThen fun ns ns' hns =>
        hrest.map fun ms ms' hms => hR.append hns hms

/-- Tokens are rendered alike by both if each of them is. -/
theorem renderTokens_agree_self (hR : Carries R r.policy r'.policy) {level : Level} {ts : List Token}
    (h : ∀ t ∈ ts, Run.Agree R (r.renderToken level t) (r'.renderToken level t)) :
    Run.Agree R (r.renderTokens level ts) (r'.renderTokens level ts) := by
  have hrun : Run.Agree R (r.renderTokens level ts) (r'.renderTokens level (ts.map id)) := renderTokens_agree hR h
  rwa [List.map_id] at hrun

theorem renderItems_agree (hR : Carries R r.policy r'.policy) {items : List (Item Token)}
    (h : ∀ item ∈ items, ∀ t ∈ item.tokens,
      ∀ top, Run.Agree R (r.renderToken (.block top) t) (r'.renderToken (.block top) (f t))) :
    Run.Agree R (r.renderItems items) (r'.renderItems (items.map (Item.map f))) := by
  induction items with
  | nil => exact .ofOk hR.nil
  | cons item items ih =>
      have hblocks := renderTokens_agree hR fun t ht => h item List.mem_cons_self t ht item.loose
      have hrest := ih fun i hi => h i (List.mem_cons_of_mem item hi)
      rcases item with ⟨raw, s, task, checked, loose, ts⟩
      rw [List.map_cons, Item.map, renderItems, renderItems]
      exact hblocks.andThen fun ns ns' hns =>
        hrest.map fun ms ms' hms => hR.append (hR.item hns task checked) hms

theorem renderCells_agree (hR : Carries R r.policy r'.policy) (header : Bool) {cells : List (Cell Token)}
    (h : ∀ cell ∈ cells, ∀ t ∈ cell.tokens,
      Run.Agree R (r.renderToken (.inline .primary) t) (r'.renderToken (.inline .primary) (f t))) :
    Run.Agree R (r.renderCells header cells) (r'.renderCells header (cells.map (Cell.map f))) := by
  induction cells with
  | nil => exact .ofOk hR.nil
  | cons cell cells ih =>
      have hcontent := renderTokens_agree hR (h cell List.mem_cons_self)
      have hrest := ih fun c hc => h c (List.mem_cons_of_mem cell hc)
      rcases cell with ⟨s, ts, own, align⟩
      rw [List.map_cons, Cell.map, renderCells, renderCells]
      exact hcontent.andThen fun ns ns' hns =>
        hrest.map fun ms ms' hms => hR.append (hR.cell hns header align) hms

theorem renderRows_agree (hR : Carries R r.policy r'.policy) {rows : List (List (Cell Token))}
    (h : ∀ row ∈ rows, ∀ cell ∈ row, ∀ t ∈ cell.tokens,
      Run.Agree R (r.renderToken (.inline .primary) t) (r'.renderToken (.inline .primary) (f t))) :
    Run.Agree R (r.renderRows rows) (r'.renderRows (rows.map (List.map (Cell.map f)))) := by
  induction rows with
  | nil => exact .ofOk hR.nil
  | cons row rows ih =>
      have hcells := renderCells_agree hR false (h row List.mem_cons_self)
      have hrest := ih fun r hr => h r (List.mem_cons_of_mem row hr)
      rw [List.map_cons, renderRows, renderRows]
      exact hcells.andThen fun ns ns' hns => hrest.map fun ms ms' hms => hR.append (hR.row hns) hms

section Levels

variable {levels : Level → Prop} (hblock : ∀ top, levels (.block top)) (hinline : levels (.inline .primary))

include hblock hinline in
/-- The parts of a token are rendered alike if the tokens one level down are. -/
theorem parts_agree (hR : Carries R r.policy r'.policy) {t : Token}
    (h : ∀ u ∈ t.inner, ∀ level, levels level → Run.Agree R (r.renderToken level u) (r'.renderToken level (f u)))
    {part : Part} (hpart : part.Within levels) : Run.Agree R (r.parts t part) (r'.parts (t.mapInner f) part) := by
  cases part with
  | children level =>
      rw [parts, parts, Token.children_mapInner]
      exact renderTokens_agree hR fun u hu => h u (Token.mem_inner_of_mem_children hu) level hpart
  | items =>
      rw [parts, parts, Token.items_mapInner]
      exact renderItems_agree hR fun item hitem u hu top =>
        h u (Token.mem_inner_of_mem_items hitem hu) (.block top) (hblock top)
  | header =>
      rw [parts, parts, Token.header_mapInner]
      exact renderCells_agree hR true fun cell hcell u hu =>
        h u (Token.mem_inner_of_mem_header hcell hu) (.inline .primary) hinline
  | rows =>
      rw [parts, parts, Token.rows_mapInner]
      exact renderRows_agree hR fun row hrow cell hcell u hu =>
        h u (Token.mem_inner_of_mem_rows hrow hcell hu) (.inline .primary) hinline

end Levels

/-- The parts of one token are rendered alike by both if the tokens one level down are, at all levels. -/
theorem parts_agree_self (hR : Carries R r.policy r'.policy) {t : Token}
    (h : ∀ u ∈ t.inner, ∀ level, Run.Agree R (r.renderToken level u) (r'.renderToken level u)) (part : Part) :
    Run.Agree R (r.parts t part) (r'.parts t part) := by
  have hpart : part.Within fun _ => True := by cases part <;> trivial
  have hparts : Run.Agree R (r.parts t part) (r'.parts (t.mapInner id) part) :=
    parts_agree (fun _ => trivial) trivial hR (fun u hu level _ => h u hu level) hpart
  rwa [Token.mapInner_id] at hparts

end Parts
end Renderer
end MarkdownNodes
