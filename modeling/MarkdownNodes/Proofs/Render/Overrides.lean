import MarkdownNodes.Proofs.Entries
import MarkdownNodes.Proofs.Render.Lockstep
import MarkdownNodes.Proofs.Render.Offer

/-! Renderers that differ in their extensions. A rule is looked up afresh for every token that is met, and
by nothing but the token's kind; so what two renderers show is the same if they have the same rules for the
kinds in the forest. A rule that always defers counts for none: it is called, and that is all. -/

namespace MarkdownNodes

def Action.isDefer : Action → Bool
  | .defer => true
  | _ => false

/-- The rule leaves every token to the built-in rule: it says so itself, or it applies in no mode. -/
def Rule.defers (rule : Rule) : Bool := rule.action.isDefer || rule.modes == some []

theorem Action.isDefer_iff {action : Action} : action.isDefer = true ↔ action = .defer := by
  cases action <;> simp [isDefer]

theorem Rule.defers_iff {rule : Rule} :
    rule.defers = true ↔ ∀ mode, rule.appliesIn mode = true → rule.action = .defer := by
  rw [defers, Bool.or_eq_true, Action.isDefer_iff, beq_iff_eq]
  constructor
  · rintro (haction | hmodes) mode happlies
    · exact haction
    · simp [appliesIn, hmodes] at happlies
  · intro h
    cases hmodes : rule.modes with
    | none => exact Or.inl (h .inline (by simp [appliesIn, hmodes]))
    | some modes =>
        cases modes with
        | nil => exact Or.inr rfl
        | cons mode modes => exact Or.inl (h mode (by simp [appliesIn, hmodes]))

namespace Extensions

variable {extensions other : Extensions} {kind : String}

theorem rule?_add (extensions : Extensions) (kind : String) (rule : Rule) (name : String) :
    (extensions.add kind rule).rule? name = if kind = name then some rule else extensions.rule? name := by
  rw [rule?, add]
  by_cases h : kind = name
  · rw [if_pos h, ← h]
    exact Entries.get?_set_self kind rule extensions.rules
  · rw [if_neg h]
    exact Entries.get?_set_of_ne h rule extensions.rules

theorem rules_addAll (extensions : Extensions) (rules : Entries Rule) :
    (extensions.addAll rules).rules = extensions.rules.setAll rules := by
  induction rules generalizing extensions with
  | nil => rfl
  | cons entry rules ih => exact ih (extensions.add entry.1 entry.2)

/-- Of rules for one kind the last one counts. -/
theorem rule?_addAll (extensions : Extensions) (rules : Entries Rule) (kind : String) :
    (extensions.addAll rules).rule? kind = (Entries.get? rules.reverse kind).or (extensions.rule? kind) := by
  rw [rule?, rules_addAll, Entries.get?_setAll, rule?]

/-- The extensions have a rule for the kind that always defers, and the others have none. -/
def passesOver (extensions other : Extensions) (kind : String) : Bool :=
  (extensions.rule? kind).any Rule.defers && (other.rule? kind).isNone

/-- The extensions and the others do the same with tokens of a kind: they have the same rule for it or none,
or one of them has a rule that always defers and the other has none. -/
def AgreesOn (extensions other : Extensions) (kind : String) : Prop :=
  extensions.rule? kind = other.rule? kind ∨ extensions.passesOver other kind = true ∨
    other.passesOver extensions kind = true

/-- The call is of a rule that always defers, for a kind that the others have no rule for. -/
def ignores (extensions other : Extensions) (c : Call) : Bool := extensions.passesOver other c.token.kind

theorem passesOver_iff : extensions.passesOver other kind = true ↔
    (∃ rule, extensions.rule? kind = some rule ∧ rule.defers = true) ∧ other.rule? kind = none := by
  rw [passesOver, Bool.and_eq_true, Option.isNone_iff_eq_none]
  cases extensions.rule? kind <;> simp

theorem passesOver_of_rule?_eq (h : extensions.rule? kind = other.rule? kind) :
    extensions.passesOver other kind = false := by
  rw [passesOver, ← h]
  cases extensions.rule? kind <;> simp

theorem filter_call? (extensions other : Extensions) (mode : Mode) (t : Token) :
    ((extensions.call? mode t).toList.filter fun c => !extensions.ignores other c) =
      if extensions.passesOver other t.kind then [] else (extensions.call? mode t).toList := by
  rw [call?]
  cases extensions.rule? t.kind with
  | none => simp
  | some rule => by_cases h : extensions.passesOver other t.kind = true <;> simp [ignores, h]

/-- The calls for a token are the same, those for rules that are passed over aside. -/
theorem AgreesOn.filter_call? {t : Token} (h : extensions.AgreesOn other t.kind) (mode : Mode) :
    ((extensions.call? mode t).toList.filter fun c => !extensions.ignores other c) =
      (other.call? mode t).toList.filter fun c => !other.ignores extensions c := by
  rw [Extensions.filter_call?, Extensions.filter_call?]
  rcases h with hsame | hpasses | hpasses
  · simp only [passesOver_of_rule?_eq hsame, passesOver_of_rule?_eq hsame.symm, call?, hsame]
  · have hnone := (passesOver_iff.mp hpasses).2
    simp [hpasses, call?, hnone]
  · have hnone := (passesOver_iff.mp hpasses).2
    simp [hpasses, call?, hnone]

end Extensions

namespace Run

variable {ε ε' α β : Type}

/-- The runs come to the same and log the same errors, and their calls are the same but for those that are
ignored. -/
structure Coincide (ignored ignored' : Call → Bool) (run run' : Run ε α) : Prop where
  outcome : run.outcome = run'.outcome
  errors : run.logs.filter (·.level = .error) = run'.logs.filter (·.level = .error)
  calls : (run.calls.filter fun c => !ignored c) = run'.calls.filter fun c => !ignored' c

namespace Coincide

variable {ignored ignored' : Call → Bool} {run run' : Run ε α}

theorem ofOk (a : α) : Coincide ignored ignored' (Run.ok a : Run ε α) (Run.ok a) := ⟨rfl, rfl, rfl⟩

theorem ofFail (e : ε) : Coincide ignored ignored' (Run.fail e : Run ε α) (Run.fail e) := ⟨rfl, rfl, rfl⟩

theorem ofLog (record : LogRecord) :
    Coincide ignored ignored' (Run.log record : Run ε Unit) (Run.log record) := ⟨rfl, rfl, rfl⟩

theorem andThen {next next' : α → Run ε β} (h : Coincide ignored ignored' run run')
    (hnext : ∀ a, Coincide ignored ignored' (next a) (next' a)) :
    Coincide ignored ignored' (run.andThen next) (run'.andThen next') := by
  cases ho : run.outcome with
  | error e =>
      rw [andThen_of_error ho, andThen_of_error (h.outcome ▸ ho)]
      exact ⟨rfl, h.errors, h.calls⟩
  | ok a =>
      rw [andThen_of_ok ho, andThen_of_ok (h.outcome ▸ ho)]
      exact {
        outcome := (hnext a).outcome
        errors := by rw [List.filter_append, List.filter_append, h.errors, (hnext a).errors]
        calls := by rw [List.filter_append, List.filter_append, h.calls, (hnext a).calls] }

theorem mapError (h : Coincide ignored ignored' run run') (f : ε → ε') :
    Coincide ignored ignored' (run.mapError f) (run'.mapError f) :=
  ⟨congrArg (Except.mapError f) h.outcome, h.errors, h.calls⟩

theorem composes : Run.Composes (fun {_ _} => Coincide ignored ignored') where
  ok := ofOk
  andThen := andThen

end Coincide
end Run

namespace Renderer

/-- The renderer, with other extensions. -/
def withExtensions (r : Renderer) (extensions : Extensions) : Renderer := { r with extensions }

theorem recipe_withExtensions (r : Renderer) (extensions : Extensions) (level : Level) (t : Token) :
    (r.withExtensions extensions).recipe level t = r.recipe level t := by
  rcases level with top | _ | _ | _ <;> rfl

section Steps

variable {extensions other : Extensions} {t : Token}

/-- A rule that always defers makes no difference to what is decided for a token. -/
theorem handling_of_passesOver (r : Renderer) (h : extensions.passesOver other t.kind = true) (mode : Mode) :
    (r.withExtensions extensions).handling mode t = (r.withExtensions other).handling mode t := by
  obtain ⟨⟨rule, hrule, hdefers⟩, hnone⟩ := Extensions.passesOver_iff.mp h
  have hleft : (r.withExtensions extensions).handling mode t = .builtIn := by
    refine handling_eq_builtIn_iff.mpr fun rule' hrule' => ?_
    cases hrule.symm.trans hrule'
    exact Rule.defers_iff.mp hdefers mode
  have hright : (r.withExtensions other).handling mode t = .builtIn :=
    handling_eq_builtIn_iff.mpr fun rule' hrule' => nomatch hnone.symm.trans hrule'
  rw [hleft, hright]

theorem handling_of_agreesOn (r : Renderer) (h : extensions.AgreesOn other t.kind) (mode : Mode) :
    (r.withExtensions extensions).handling mode t = (r.withExtensions other).handling mode t := by
  rcases h with hsame | hpasses | hpasses
  · simp only [handling, withExtensions, hsame]
  · exact handling_of_passesOver r hpasses mode
  · exact (handling_of_passesOver r hpasses mode).symm

theorem errors_offer (r : Renderer) (mode : Mode) (t : Token) :
    (r.offer mode t).logs.filter (·.level = .error) = [] := by
  rw [offer]
  split <;> rfl

theorem coincide_offer (r : Renderer) (h : extensions.AgreesOn other t.kind) (mode : Mode) :
    Run.Coincide (extensions.ignores other) (other.ignores extensions) ((r.withExtensions extensions).offer mode t)
      ((r.withExtensions other).offer mode t) where
  outcome := rfl
  errors := by rw [errors_offer, errors_offer]
  calls := h.filter_call? mode

theorem coincide_unknown (r : Renderer) (ignored ignored' : Call → Bool) (mode : Mode) (kind : String) :
    Run.Coincide ignored ignored' (r.unknown mode kind) (r.unknown mode kind) := by
  rw [unknown]
  split
  · exact (Run.Coincide.ofLog _).andThen fun _ => Run.Coincide.ofOk _
  · exact Run.Coincide.ofFail _

theorem coincide_handling {ignored ignored' : Call → Bool} {builtIn builtIn' : Run RenderError (List Node)}
    {parts parts' : Parts} (kind : String) (handling : Handling)
    (hbuiltIn : Run.Coincide ignored ignored' builtIn builtIn')
    (hparts : ∀ part, Run.Coincide ignored ignored' (parts part) (parts' part)) :
    Run.Coincide ignored ignored' (handling.run kind builtIn parts) (handling.run kind builtIn' parts') := by
  cases handling with
  | builtIn => exact hbuiltIn
  | fails reason => exact Run.Coincide.ofFail _
  | gives nodes => exact Run.Coincide.ofOk nodes
  | around level nodes => exact Run.Coincide.composes.map ((hparts (.children level)).mapError _) nodes

/-- One step with extensions that agree on the kind of the token. -/
theorem coincide_step (r : Renderer) (h : extensions.AgreesOn other t.kind) :
    StepsAlike (Run.Coincide (extensions.ignores other) (other.ignores extensions)) (r.withExtensions extensions)
      (r.withExtensions other) t := by
  intro level parts parts' hparts
  have hbuiltIn : Run.Coincide (extensions.ignores other) (other.ignores extensions)
      ((r.withExtensions extensions).builtIn level t parts) ((r.withExtensions other).builtIn level t parts') := by
    rw [builtIn_eq_run, builtIn_eq_run, recipe_withExtensions, recipe_withExtensions]
    exact Recipe.run_lockstep Run.Coincide.composes (coincide_unknown r _ _ level.mode t.kind) hparts _
  rw [step_eq, step_eq, handling_of_agreesOn r h]
  exact (coincide_offer r h level.mode).andThen fun _ => coincide_handling t.kind _ hbuiltIn hparts

end Steps

/-- Renderings with extensions that agree on every kind in the forest. -/
theorem coincide_renderTokens (r : Renderer) {extensions other : Extensions} {ts : List Token}
    (h : ∀ t ∈ Token.allOf ts, extensions.AgreesOn other t.kind) (level : Level) :
    Run.Coincide (extensions.ignores other) (other.ignores extensions)
      ((r.withExtensions extensions).renderTokens level ts) ((r.withExtensions other).renderTokens level ts) := by
  have hpolicy : (r.withExtensions other).policy = (r.withExtensions extensions).policy := rfl
  exact renderTokens_of_steps Run.Coincide.composes hpolicy (fun t ht => coincide_step r (h t ht)) level

/-- Two renderings of a forest show the same, whatever they call: among blocks with either flag, among inline
tokens by any set of rules, and as bare text. -/
def ShowsSame (r r' : Renderer) (ts : List Token) : Prop :=
  (∀ level, (r.renderTokens level ts).outcome = (r'.renderTokens level ts).outcome) ∧
    (r.bareText ts).outcome = (r'.bareText ts).outcome

theorem coincide_bareText (r : Renderer) {extensions other : Extensions} {ts : List Token}
    (h : ∀ t ∈ Token.allOf ts, extensions.AgreesOn other t.kind) :
    Run.Coincide (extensions.ignores other) (other.ignores extensions) ((r.withExtensions extensions).bareText ts)
      ((r.withExtensions other).bareText ts) :=
  Run.Coincide.composes.map (coincide_renderTokens r h (.inline .plain)) Node.text

theorem showsSame_of_agreesOn (r : Renderer) {extensions other : Extensions} {ts : List Token}
    (h : ∀ t ∈ Token.allOf ts, extensions.AgreesOn other t.kind) :
    ShowsSame (r.withExtensions extensions) (r.withExtensions other) ts :=
  ⟨fun level => (coincide_renderTokens r h level).outcome, (coincide_bareText r h).outcome⟩

/-- Rules for one kind each, in whatever order they are added. -/
theorem agreesOn_of_perm {rules others : Entries Rule} (hnames : rules.names.Nodup) (hperm : rules.Perm others)
    (kind : String) : (Extensions.ofList rules).AgreesOn (.ofList others) kind := by
  have hreverse : rules.reverse.Perm others.reverse :=
    (List.reverse_perm rules).trans (hperm.trans (List.reverse_perm others).symm)
  have hnodup : (Entries.names rules.reverse).Nodup := ((List.reverse_perm rules).map Prod.fst).nodup_iff.mpr hnames
  refine Or.inl ?_
  rw [Extensions.ofList, Extensions.ofList, Extensions.rule?_addAll, Extensions.rule?_addAll,
    Entries.get?_eq_of_perm hnodup hreverse]

/-- A further rule for another kind. -/
theorem agreesOn_add_of_ne {extensions : Extensions} {kind name : String} (h : kind ≠ name) (rule : Rule) :
    (extensions.add kind rule).AgreesOn extensions name :=
  Or.inl (by rw [Extensions.rule?_add, if_neg h])

/-- A further rule that always defers. -/
theorem agreesOn_add_of_defers {extensions : Extensions} {kind : String} {rule : Rule}
    (hnone : extensions.rule? kind = none) (hdefers : rule.defers = true) (name : String) :
    (extensions.add kind rule).AgreesOn extensions name := by
  by_cases h : kind = name
  · refine Or.inr (Or.inl (Extensions.passesOver_iff.mpr ⟨⟨rule, ?_, hdefers⟩, h ▸ hnone⟩))
    rw [Extensions.rule?_add, if_pos h]
  · exact agreesOn_add_of_ne h rule

/-- Of the extensions only the rules for the kinds of the forest matter, and of these only those that do not
always defer. With extensions that agree on every kind in the forest, the outcomes are the same and so are the
logged errors, and the calls are the same but for those of rules that always defer where the others have none.
So the order in which the rules were added, a rule for a kind that does not occur, and a rule that always
defers make no difference to what is shown. -/
theorem only_relevant_overrides_matter (r : Renderer) (ts : List Token) :
    (∀ extensions other : Extensions, (∀ t ∈ Token.allOf ts, extensions.AgreesOn other t.kind) →
      (∀ level, Run.Coincide (extensions.ignores other) (other.ignores extensions)
        ((r.withExtensions extensions).renderTokens level ts) ((r.withExtensions other).renderTokens level ts)) ∧
      Run.Coincide (extensions.ignores other) (other.ignores extensions) ((r.withExtensions extensions).bareText ts)
        ((r.withExtensions other).bareText ts)) ∧
    (∀ rules others : Entries Rule, rules.names.Nodup → rules.Perm others →
      ShowsSame (r.withExtensions (.ofList rules)) (r.withExtensions (.ofList others)) ts) ∧
    (∀ extensions kind rule, (∀ t ∈ Token.allOf ts, kind ≠ t.kind) →
      ShowsSame (r.withExtensions (.add kind rule extensions)) (r.withExtensions extensions) ts) ∧
    (∀ extensions kind rule, extensions.rule? kind = none → rule.defers = true →
      ShowsSame (r.withExtensions (.add kind rule extensions)) (r.withExtensions extensions) ts) := by
  refine ⟨fun extensions other h => ⟨coincide_renderTokens r h, coincide_bareText r h⟩, ?order, ?absent, ?defers⟩
  case order =>
    intro rules others hnames hperm
    exact showsSame_of_agreesOn r fun t _ => agreesOn_of_perm hnames hperm t.kind
  case absent =>
    intro extensions kind rule habsent
    exact showsSame_of_agreesOn r fun t ht => agreesOn_add_of_ne (habsent t ht) rule
  case defers =>
    intro extensions kind rule hnone hdefers
    exact showsSame_of_agreesOn r fun t _ => agreesOn_add_of_defers hnone hdefers t.kind

/-- Emphasis in a paragraph, and a break below it. -/
def emphasisAboveBreak : List Token := [.paragraph "" "" [.em "" "" [.br ""]], .hr "---"]

/-- Rules for emphasis, for breaks, which they leave alone, and for a kind that does not occur. -/
def deferringBreaks : Extensions :=
  { rules := [("em", { action := .wrapInline "i" }), ("hr", { action := .defer }), ("note", { action := .error "no" })] }

/-- The same rule for emphasis, and one for another kind that does not occur. -/
def suppressingStrong : Extensions :=
  { rules := [("strong", { action := .suppress }), ("em", { action := .wrapInline "i" })] }

/-- A rule that both have, one that always defers and only one has, and two that meet no token. -/
theorem only_relevant_overrides_matter_of_deferred_rule :
    (∀ t ∈ Token.allOf emphasisAboveBreak, deferringBreaks.AgreesOn suppressingStrong t.kind) ∧
      Run.Coincide (deferringBreaks.ignores suppressingStrong) (suppressingStrong.ignores deferringBreaks)
        ((({} : Renderer).withExtensions deferringBreaks).renderTokens (.block true) emphasisAboveBreak)
        ((({} : Renderer).withExtensions suppressingStrong).renderTokens (.block true) emphasisAboveBreak) ∧
      ((({} : Renderer).withExtensions deferringBreaks).renderTokens (.block true) emphasisAboveBreak).calls =
        [⟨.em "" "" [.br ""], .inline, .wrapInline "i"⟩, ⟨.hr "---", .block true, .defer⟩] := by
  have hagrees : ∀ t ∈ Token.allOf emphasisAboveBreak, deferringBreaks.AgreesOn suppressingStrong t.kind := by
    simp only [emphasisAboveBreak, Token.allOf, Token.all_eq, Token.inner, Token.children, Token.items, Token.header,
      Token.rows, List.flatMap_cons, List.flatMap_nil, List.append_nil, List.flatten_nil, List.cons_append,
      List.nil_append, List.forall_mem_cons, List.not_mem_nil, false_implies, implies_true, and_true]
    exact ⟨Or.inl rfl, Or.inl rfl, Or.inl rfl, Or.inr (Or.inl rfl)⟩
  have hrun := (only_relevant_overrides_matter {} _).1 deferringBreaks suppressingStrong hagrees
  exact ⟨hagrees, hrun.1 (.block true), rfl⟩

end Renderer
end MarkdownNodes
