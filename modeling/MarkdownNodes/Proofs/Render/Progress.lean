import MarkdownNodes.Proofs.Render.Itinerary

/-! How far a rendering gets. It makes the calls of the tokens on its way in turn, until the first failure,
and ends in the error of that; if there is none, it makes all of them. -/

namespace MarkdownNodes

namespace Run

variable {ε ε' α β : Type}

/-- The run makes the calls until the first of the errors, in which it ends. -/
structure Follows (run : Run ε α) (calls : List Call) (errors : List ε) : Prop where
  error_iff : ∀ e, run.outcome = .error e ↔ errors.head? = some e
  prefix_calls : run.calls <+: calls
  calls_eq : errors = [] → run.calls = calls

namespace Follows

theorem ofOk (a : α) : (Run.ok a : Run ε α).Follows [] [] where
  error_iff e := by simp [Run.ok]
  prefix_calls := List.prefix_rfl
  calls_eq _ := rfl

theorem ofFail (e : ε) : (Run.fail e : Run ε α).Follows [] [e] where
  error_iff e' := by simp [Run.fail]
  prefix_calls := List.prefix_rfl
  calls_eq h := nomatch h

variable {calls calls' : List Call} {errors errors' : List ε} {run : Run ε α}

theorem errors_eq_nil (h : run.Follows calls errors) {a : α} (ho : run.outcome = .ok a) : errors = [] := by
  cases errors with
  | nil => rfl
  | cons e errors => cases ho.symm.trans ((h.error_iff e).mpr rfl)

theorem andThen (h : run.Follows calls errors) {next : α → Run ε β} (hnext : ∀ a, (next a).Follows calls' errors') :
    (run.andThen next).Follows (calls ++ calls') (errors ++ errors') := by
  cases ho : run.outcome with
  | error e =>
      obtain ⟨rest, hrest⟩ := List.head?_eq_some_iff.mp ((h.error_iff e).mp ho)
      rw [Run.andThen_of_error ho, hrest]
      exact {
        error_iff := fun e' => by simp
        prefix_calls := h.prefix_calls.trans (List.prefix_append _ _)
        calls_eq := fun hnil => nomatch hnil }
  | ok a =>
      -- A run that succeeds has met no error and made all of its calls.
      have hnil := h.errors_eq_nil ho
      rw [Run.andThen_of_ok ho, hnil, h.calls_eq hnil]
      exact {
        error_iff := (hnext a).error_iff
        prefix_calls := (List.prefix_append_right_inj calls).mpr (hnext a).prefix_calls
        calls_eq := fun hnil' => congrArg (calls ++ ·) ((hnext a).calls_eq hnil') }

theorem map (h : run.Follows calls errors) (f : α → β) :
    (run.andThen fun a => Run.ok (f a)).Follows calls errors := by
  simpa using h.andThen fun a => ofOk (f a)

theorem mapError (h : run.Follows calls errors) (f : ε → ε') : (run.mapError f).Follows calls (errors.map f) where
  error_iff e := by
    cases ho : run.outcome with
    | error e' =>
        have hfirst : errors.head? = some e' := (h.error_iff e').mp ho
        have hout : (run.mapError f).outcome = .error (f e') := congrArg (Except.mapError f) ho
        simp [hout, hfirst]
    | ok a =>
        have hout : (run.mapError f).outcome = .ok a := congrArg (Except.mapError f) ho
        simp [hout, h.errors_eq_nil ho]
  prefix_calls := h.prefix_calls
  calls_eq hnil := h.calls_eq (List.map_eq_nil_iff.mp hnil)

end Follows
end Run

namespace Renderer

/-- The calls of the extensions for the tokens that are met from a token on. -/
def callsAt (r : Renderer) (level : Level) (t : Token) : List Call :=
  (r.visits level t).filterMap fun s => r.extensions.call? s.1.mode s.2

/-- The calls of the extensions for the tokens that are met in a forest. -/
def callsOf (r : Renderer) (level : Level) (ts : List Token) : List Call := ts.flatMap (r.callsAt level)

/-- The errors of the failures that are met from a token on. -/
def raisedAt (r : Renderer) (level : Level) (t : Token) : List RenderError :=
  (r.failures level t).map (Failure.error r)

/-- The errors of the failures that are met in a forest. -/
def raisedOf (r : Renderer) (level : Level) (ts : List Token) : List RenderError := ts.flatMap (r.raisedAt level)

/-- What an error becomes on its way out of a token: a rule that renders the children makes it its own. -/
def passed (r : Renderer) (level : Level) (t : Token) (e : RenderError) : RenderError :=
  if r.recurses level.mode t then .extension t.kind e.message else e

theorem error_inside (r : Renderer) (level : Level) (t : Token) (f : Failure) :
    (f.inside level t).error r = r.passed level t (f.error r) := by
  by_cases h : r.recurses level.mode t = true
  · simp [Failure.error, Failure.inside, Failure.kinds, passed, h, RenderError.through]
  · simp [Failure.error, Failure.inside, Failure.kinds, passed, h]

theorem callsAt_eq (r : Renderer) (level : Level) (t : Token) :
    r.callsAt level t =
      (r.extensions.call? level.mode t).toList ++ (r.next level t).flatMap fun s => r.callsAt s.1 s.2 := by
  rw [callsAt, visits_eq, List.filterMap_cons, List.filterMap_flatMap]
  cases r.extensions.call? level.mode t <;> rfl

theorem raisedAt_eq (r : Renderer) (level : Level) (t : Token) :
    r.raisedAt level t = (r.fault? level t).toList ++
      (r.next level t).flatMap fun s => (r.raisedAt s.1 s.2).map (r.passed level t) := by
  have hinside : ∀ s : Level × Token, ((r.failures s.1 s.2).map (Failure.inside level t)).map (Failure.error r) =
      (r.raisedAt s.1 s.2).map (r.passed level t) := by
    intro s
    simp only [raisedAt, List.map_map, Function.comp_def, error_inside]
  rw [raisedAt, failures_eq, List.map_append, List.map_flatMap]
  simp only [hinside]
  cases r.fault? level t <;> rfl

theorem callsOf_eq (r : Renderer) (level : Level) (ts : List Token) :
    r.callsOf level ts = (r.visitsOf level ts).filterMap fun s => r.extensions.call? s.1.mode s.2 :=
  List.filterMap_flatMap.symm

theorem raisedOf_eq (r : Renderer) (level : Level) (ts : List Token) :
    r.raisedOf level ts = (r.failuresOf level ts).map (Failure.error r) := List.map_flatMap.symm

/-! ### Lists of tokens -/

/-- The token makes its calls until its first error, at every level. -/
def Proceeds (r : Renderer) (t : Token) : Prop :=
  ∀ level, (r.renderToken level t).Follows (r.callsAt level t) (r.raisedAt level t)

section Lists

variable {r : Renderer}

theorem renderTokens_follows {ts : List Token} (h : ∀ t ∈ ts, r.Proceeds t) (level : Level) :
    (r.renderTokens level ts).Follows (r.callsOf level ts) (r.raisedOf level ts) := by
  induction ts with
  | nil => exact Run.Follows.ofOk []
  | cons t ts ih =>
      have hrest := ih fun u hu => h u (List.mem_cons_of_mem t hu)
      rw [renderTokens]
      exact (h t List.mem_cons_self level).andThen fun first => hrest.map fun rest => first ++ rest

theorem renderItems_follows {items : List (Item Token)} (h : ∀ item ∈ items, ∀ t ∈ item.tokens, r.Proceeds t) :
    (r.renderItems items).Follows (items.flatMap fun item => r.callsOf (.block item.loose) item.tokens)
      (items.flatMap fun item => r.raisedOf (.block item.loose) item.tokens) := by
  induction items with
  | nil => exact Run.Follows.ofOk []
  | cons item items ih =>
      have hfirst := renderTokens_follows (h item List.mem_cons_self) (.block item.loose)
      have hrest := ih fun i hi => h i (List.mem_cons_of_mem item hi)
      rcases item with ⟨raw, s, task, checked, loose, ts⟩
      rw [renderItems]
      exact hfirst.andThen fun blocks => hrest.map fun rest => r.policy.item task checked blocks :: rest

theorem renderCells_follows (header : Bool) {cells : List (Cell Token)}
    (h : ∀ cell ∈ cells, ∀ t ∈ cell.tokens, r.Proceeds t) :
    (r.renderCells header cells).Follows (cells.flatMap fun cell => r.callsOf (.inline .primary) cell.tokens)
      (cells.flatMap fun cell => r.raisedOf (.inline .primary) cell.tokens) := by
  induction cells with
  | nil => exact Run.Follows.ofOk []
  | cons cell cells ih =>
      have hfirst := renderTokens_follows (h cell List.mem_cons_self) (.inline .primary)
      have hrest := ih fun c hc => h c (List.mem_cons_of_mem cell hc)
      rcases cell with ⟨s, ts, own, align⟩
      rw [renderCells]
      exact hfirst.andThen fun content => hrest.map fun rest => Node.ofCell header align content :: rest

theorem renderRows_follows {rows : List (List (Cell Token))}
    (h : ∀ row ∈ rows, ∀ cell ∈ row, ∀ t ∈ cell.tokens, r.Proceeds t) :
    (r.renderRows rows).Follows
      (rows.flatten.flatMap fun cell => r.callsOf (.inline .primary) cell.tokens)
      (rows.flatten.flatMap fun cell => r.raisedOf (.inline .primary) cell.tokens) := by
  induction rows with
  | nil => exact Run.Follows.ofOk []
  | cons row rows ih =>
      have hfirst := renderCells_follows false (h row List.mem_cons_self)
      have hrest := ih fun r hr => h r (List.mem_cons_of_mem row hr)
      rw [renderRows, List.flatten_cons, List.flatMap_append, List.flatMap_append]
      exact hfirst.andThen fun cells => hrest.map fun rest => Node.ofRow cells :: rest

/-- A part of a token makes the calls of its tokens until the first of their errors. -/
theorem parts_follows {t : Token} (h : ∀ u ∈ t.inner, r.Proceeds u) (part : Part) :
    (r.parts t part).Follows ((part.levelled t).flatMap fun s => r.callsAt s.1 s.2)
      ((part.levelled t).flatMap fun s => r.raisedAt s.1 s.2) := by
  cases part with
  | children level =>
      simp only [Part.levelled, List.flatMap_map]
      exact renderTokens_follows (fun u hu => h u (Token.mem_inner_of_mem_children hu)) level
  | items =>
      simp only [Part.levelled, List.flatMap_assoc, List.flatMap_map]
      exact renderItems_follows fun item hitem u hu => h u (Token.mem_inner_of_mem_items hitem hu)
  | header =>
      simp only [Part.levelled, List.flatMap_assoc, List.flatMap_map]
      exact renderCells_follows true fun cell hcell u hu => h u (Token.mem_inner_of_mem_header hcell hu)
  | rows =>
      simp only [Part.levelled, List.flatMap_assoc, List.flatMap_map]
      exact renderRows_follows fun row hrow cell hcell u hu => h u (Token.mem_inner_of_mem_rows hrow hcell hu)

end Lists

/-! ### One step -/

section Step

variable {parts : Parts} {calls : Part → List Call} {errors : Part → List RenderError}

theorem unknown_follows (r : Renderer) (mode : Mode) (kind : String) :
    (r.unknown mode kind).Follows [] (if r.silent then [] else [.unknownToken kind]) := by
  rw [unknown]
  by_cases hsilent : r.silent = true
  · simp only [if_pos hsilent]
    exact {
      error_iff := fun e => by simp [Run.andThen, Run.log, Run.ok]
      prefix_calls := List.prefix_rfl
      calls_eq := fun _ => rfl }
  · simp only [if_neg hsilent]
    exact Run.Follows.ofFail _

theorem offer_follows (r : Renderer) (mode : Mode) (t : Token) :
    (r.offer mode t).Follows (r.extensions.call? mode t).toList [] where
  error_iff e := by simp [offer]
  prefix_calls := List.prefix_rfl
  calls_eq _ := rfl

theorem run_follows {unknown : Run RenderError Node} {unknowns : List RenderError} (recipe : Recipe)
    (hunknown : unknown.Follows [] unknowns) (h : ∀ part, (parts part).Follows (calls part) (errors part)) :
    (recipe.run unknown parts).Follows (recipe.gather [] calls) (recipe.gather unknowns errors) := by
  cases recipe with
  | unknown => exact hunknown.map _
  | leaf nodes => exact Run.Follows.ofOk nodes
  | around part nodes => exact (h part).map nodes
  | both first second nodes => exact (h first).andThen fun a => (h second).map fun b => nodes a b

theorem handling_follows (r : Renderer) (level : Level) (t : Token)
    (h : ∀ part, (parts part).Follows (calls part) (errors part)) :
    ((r.handling level.mode t).run t.kind (r.builtIn level t parts) parts).Follows
      ((r.partsOf level t).flatMap calls)
      ((r.fault? level t).toList ++ (r.partsOf level t).flatMap fun part => (errors part).map (r.passed level t)) := by
  have hrecurses := r.recurses_eq level.mode t
  cases hhandling : r.handling level.mode t with
  | builtIn =>
      have hpassed : r.passed level t = id := by
        funext e
        simp [passed, hrecurses, hhandling, Handling.isAround]
      have hrun := run_follows (r.recipe level t) (unknown_follows r level.mode t.kind) h
      simp only [Handling.run, partsOf, fault?, hhandling, Handling.parts, hpassed, List.map_id]
      rw [builtIn_eq_run]
      cases hrecipe : r.recipe level t with
      | unknown =>
          rw [hrecipe] at hrun
          by_cases hsilent : r.silent = true <;> simpa [hsilent] using hrun
      | _ =>
          rw [hrecipe] at hrun
          simpa using hrun
  | fails reason =>
      simpa [Handling.run, partsOf, fault?, hhandling, Handling.parts] using Run.Follows.ofFail _
  | gives nodes =>
      simpa [Handling.run, partsOf, fault?, hhandling, Handling.parts] using Run.Follows.ofOk nodes
  | around inner nodes =>
      have hpassed : r.passed level t = fun e => .extension t.kind e.message := by
        funext e
        simp [passed, hrecurses, hhandling, Handling.isAround]
      simp only [Handling.run, partsOf, fault?, hhandling, Handling.parts, hpassed]
      simpa using ((h (.children inner)).mapError fun e => RenderError.extension t.kind e.message).map nodes

/-- One step: the token makes its own call, and if it raises nothing itself makes those of its parts. -/
theorem step_follows (r : Renderer) (level : Level) (t : Token)
    (h : ∀ part, (parts part).Follows (calls part) (errors part)) :
    (r.step level t parts).Follows
      ((r.extensions.call? level.mode t).toList ++ (r.partsOf level t).flatMap calls)
      ((r.fault? level t).toList ++ (r.partsOf level t).flatMap fun part => (errors part).map (r.passed level t)) := by
  rw [step_eq]
  exact (offer_follows r level.mode t).andThen fun _ => handling_follows r level t h

end Step

theorem proceeds (r : Renderer) (t : Token) : r.Proceeds t := by
  induction t using Token.induct with
  | step t ih =>
      intro level
      have hstep := step_follows r level t (parts_follows ih)
      rw [renderToken_eq_step, callsAt_eq, raisedAt_eq]
      simpa only [next, List.flatMap_assoc, List.map_flatMap] using hstep

/-- A rendering makes the calls of the tokens on its way until the first of the errors, in which it ends. -/
theorem renderTokens_proceeds (r : Renderer) (level : Level) (ts : List Token) :
    (r.renderTokens level ts).Follows (r.callsOf level ts) (r.raisedOf level ts) :=
  renderTokens_follows (fun t _ => r.proceeds t) level

theorem bareText_proceeds (r : Renderer) (ts : List Token) :
    (r.bareText ts).Follows (r.callsOf (.inline .plain) ts) (r.raisedOf (.inline .plain) ts) :=
  (r.renderTokens_proceeds (.inline .plain) ts).map Node.text

end Renderer
end MarkdownNodes
