import MarkdownNodes.Proofs.Render.Overrides
import MarkdownNodes.Proofs.Token.Kinds

/-! Rules that do what a built-in rule does. What a rule decides for a token may be the very recipe of the
built-in rule, and then it makes no difference which of the two renders the token, whatever the rules around
it do. It does make a difference to errors: one that comes from below a token in the hands of a rule becomes
the rule's own. So renderings with and without such a rule succeed together, and with the same nodes. -/

namespace MarkdownNodes

namespace Run

variable {ε ε' α β : Type}

theorem andThen_outcome_eq_ok_iff {run : Run ε α} {next : α → Run ε β} {b : β} :
    (run.andThen next).outcome = .ok b ↔ ∃ a, run.outcome = .ok a ∧ (next a).outcome = .ok b := by
  rcases run with ⟨_ | a, calls, logs⟩ <;> simp [andThen]

theorem mapError_outcome_eq_ok_iff {run : Run ε α} {f : ε → ε'} {a : α} :
    (run.mapError f).outcome = .ok a ↔ run.outcome = .ok a := by
  rcases run with ⟨_ | _, calls, logs⟩
  · exact iff_of_false nofun nofun
  · simp only [mapError, Except.mapError, Except.ok.injEq]

/-- The runs succeed together, with the same value. -/
def SameResult (run run' : Run ε α) : Prop := ∀ a, run.outcome = .ok a ↔ run'.outcome = .ok a

namespace SameResult

variable {run run' : Run ε α}

theorem ofOk (a : α) : SameResult (Run.ok a : Run ε α) (Run.ok a) := fun _ => Iff.rfl

theorem ofFail (e e' : ε) : SameResult (Run.fail e : Run ε α) (Run.fail e') :=
  fun _ => iff_of_false nofun nofun

theorem andThen {next next' : α → Run ε β} (h : SameResult run run')
    (hnext : ∀ a, SameResult (next a) (next' a)) : SameResult (run.andThen next) (run'.andThen next') := by
  intro b
  rw [andThen_outcome_eq_ok_iff, andThen_outcome_eq_ok_iff]
  exact exists_congr fun a => and_congr (h a) (hnext a b)

/-- An error may be put in other terms on one side only. -/
theorem mapError_left (h : SameResult run run') (f : ε → ε) : SameResult (run.mapError f) run' :=
  fun a => mapError_outcome_eq_ok_iff.trans (h a)

theorem mapError (h : SameResult run run') (f : ε → ε') : SameResult (run.mapError f) (run'.mapError f) :=
  fun a => mapError_outcome_eq_ok_iff.trans ((h a).trans mapError_outcome_eq_ok_iff.symm)

theorem composes : Run.Composes SameResult where
  ok := ofOk
  andThen := andThen

end SameResult
end Run

/-- What is decided is to do as the recipe says. -/
def Handling.Imitates (recipe : Recipe) : Handling → Prop
  | .builtIn => True
  | .fails _ => False
  | .gives nodes => recipe = .leaf nodes
  | .around level nodes => recipe = .around (.children level) nodes

/-- A handling that imitates the recipe, against the recipe itself. -/
theorem Handling.Imitates.sameResult {recipe : Recipe} {handling : Handling} (h : handling.Imitates recipe)
    {unknown unknown' : Run RenderError Node} (hunknown : Run.SameResult unknown unknown') {parts parts' : Parts}
    (hparts : ∀ part ∈ recipe.parts, Run.SameResult (parts part) (parts' part)) (kind : String) :
    Run.SameResult (handling.run kind (recipe.run unknown parts) parts) (recipe.run unknown' parts') := by
  cases handling with
  | builtIn => exact Recipe.run_lockstep_of_parts Run.SameResult.composes hunknown hparts
  | fails reason => exact h.elim
  | gives nodes =>
      cases h
      exact Run.SameResult.ofOk nodes
  | around level nodes =>
      cases h
      exact Run.SameResult.composes.map ((hparts _ (by simp)).mapError_left _) nodes

/-- No rule asks for the bare text of the children. -/
def Extensions.KeepsFormatting (extensions : Extensions) : Prop :=
  ∀ kind rule, extensions.rule? kind = some rule → rule.action ≠ .plainText

namespace Renderer

theorem isPrimary_of_handling {r : Renderer} (h : r.extensions.KeepsFormatting) {mode : Mode} {t : Token}
    {level : Level} {nodes : List Node → List Node} (hhandling : r.handling mode t = .around level nodes) :
    level.IsPrimary := by
  rw [handling] at hhandling
  split at hhandling
  case h_1 => cases hhandling
  case h_2 rule hrule =>
    have hformats := h _ _ hrule
    split at hhandling
    case isTrue =>
      cases haction : rule.action <;> rw [haction] at hhandling <;> cases hhandling
      case plainText => exact absurd haction hformats
      all_goals trivial
    case isFalse => cases hhandling

/-- The extensions do with a token, met at a level, what the others do; or the others leave it to the built-in
rule, and the extensions imitate that. -/
def ImitatesAt (r : Renderer) (extensions other : Extensions) (t : Token) (level : Level) : Prop :=
  (r.withExtensions extensions).handling level.mode t = (r.withExtensions other).handling level.mode t ∨
    (r.withExtensions other).handling level.mode t = .builtIn ∧
      ((r.withExtensions extensions).handling level.mode t).Imitates (r.recipe level t)

section Steps

variable (r : Renderer) {extensions other : Extensions}

theorem sameResult_unknown (extensions other : Extensions) (mode : Mode) (kind : String) :
    Run.SameResult ((r.withExtensions extensions).unknown mode kind) ((r.withExtensions other).unknown mode kind) :=
  fun _ => Iff.rfl

/-- One step with extensions that imitate what the others leave to the built-in rules. -/
theorem sameResult_step {t : Token} (hother : other.KeepsFormatting)
    (h : ∀ level, level.IsPrimary → r.ImitatesAt extensions other t level) :
    StepsAlikeAt Level.IsPrimary Run.SameResult (r.withExtensions extensions) (r.withExtensions other) t := by
  intro level hlevel parts parts' hparts
  have hunknown := r.sameResult_unknown extensions other level.mode t.kind
  have hrecipe : ∀ part ∈ (r.recipe level t).parts, Run.SameResult (parts part) (parts' part) :=
    fun part hpart => hparts part (within_isPrimary_of_mem_parts hpart)
  rw [step_eq, step_eq]
  refine Run.SameResult.andThen (fun _ => Iff.rfl) fun _ => ?_
  rw [builtIn_eq_run, builtIn_eq_run, recipe_withExtensions, recipe_withExtensions]
  rcases h level hlevel with hsame | ⟨hbuiltIn, himitates⟩
  · rw [hsame]
    cases hhandling : (r.withExtensions other).handling level.mode t with
    | builtIn => exact Recipe.run_lockstep_of_parts Run.SameResult.composes hunknown hrecipe
    | fails reason => exact Run.SameResult.ofFail _ _
    | gives nodes => exact Run.SameResult.ofOk nodes
    | around inner nodes =>
        have hinner : inner.IsPrimary := isPrimary_of_handling hother hhandling
        exact Run.SameResult.composes.map ((hparts (.children inner) hinner).mapError _) nodes
  · rw [hbuiltIn]
    exact himitates.sameResult hunknown hrecipe t.kind

/-- Renderings with extensions that imitate what the others leave to the built-in rules. -/
theorem sameResult_renderTokens {ts : List Token} (hother : other.KeepsFormatting)
    (h : ∀ t ∈ Token.allOf ts, ∀ level, level.IsPrimary → r.ImitatesAt extensions other t level) {level : Level}
    (hlevel : level.IsPrimary) :
    Run.SameResult ((r.withExtensions extensions).renderTokens level ts)
      ((r.withExtensions other).renderTokens level ts) := by
  have hpolicy : (r.withExtensions other).policy = (r.withExtensions extensions).policy := rfl
  exact renderTokens_of_stepsAt Level.isPrimary_block trivial Run.SameResult.composes hpolicy
    (fun t ht => r.sameResult_step hother (h t ht)) hlevel

end Steps
end Renderer

/-- Rules that wrap the children of emphasis, deletions and paragraphs as the built-in rules do, where these do. -/
def Extensions.imitations : Entries Rule :=
  [("em", { action := .wrapInline "em", modes := some [.inline] }),
    ("del", { action := .wrapInline "del", modes := some [.inline] }),
    ("paragraph", { action := .wrapInline "p", modes := some [.block true, .block false] })]

namespace Renderer

theorem imitations_subset_builtInKinds : Extensions.imitations.names ⊆ Token.builtInKinds := by decide

section Imitations

variable {r : Renderer} {t : Token}

theorem handling_imitations_of_not_mem (h : t.kind ∉ Extensions.imitations.names) (mode : Mode) :
    (r.withExtensions (r.extensions.addAll Extensions.imitations)).handling mode t =
      (r.withExtensions r.extensions).handling mode t := by
  have hnone : Entries.get? Extensions.imitations.reverse t.kind = none := by
    refine Entries.get?_eq_none_iff.mpr fun hmem => h ?_
    rwa [Entries.names, List.map_reverse, List.mem_reverse] at hmem
  rw [handling, handling, withExtensions, withExtensions, Extensions.rule?_addAll, hnone, Option.none_or]

/-- The rule for a kind, and what it decides, where the kind has an imitation. -/
theorem handling_imitations {rule : Rule} (h : Entries.get? Extensions.imitations.reverse t.kind = some rule)
    (mode : Mode) :
    (r.withExtensions (r.extensions.addAll Extensions.imitations)).handling mode t =
      if rule.appliesIn mode then rule.action.handling r.silent mode t.raw else .builtIn := by
  rw [handling, withExtensions, Extensions.rule?_addAll, h, Option.some_or]

/-- The kind of a token that fits says by which recipe the built-in rules make its nodes. -/
theorem imitatesAt_imitations (hkind : t.FitsKind)
    (hnone : ∀ kind ∈ Extensions.imitations.names, r.extensions.rule? kind = none) {level : Level}
    (hlevel : level.IsPrimary) :
    r.ImitatesAt (r.extensions.addAll Extensions.imitations) r.extensions t level := by
  by_cases hmem : t.kind ∈ Extensions.imitations.names
  case neg => exact Or.inl (handling_imitations_of_not_mem hmem level.mode)
  case pos =>
    have hbuiltIn : (r.withExtensions r.extensions).handling level.mode t = .builtIn :=
      handling_eq_builtIn_iff.mpr fun rule hrule => nomatch (hnone t.kind hmem).symm.trans hrule
    refine Or.inr ⟨hbuiltIn, ?_⟩
    cases t with
    | em | del | paragraph =>
        rw [handling_imitations rfl]
        rcases level with (_ | _) | _ | _ | _
        case inline.bracketed | inline.plain => exact hlevel.elim
        all_goals trivial
    | custom raw kind fields => exact absurd (imitations_subset_builtInKinds hmem) (hkind rfl)
    | _ => simp [Token.kind, Extensions.imitations, Entries.names] at hmem

end Imitations

/-- Rules can do what the built-in rules do. To any rules that keep the formatting of children, add rules that
wrap what emphasis, deletions and paragraphs hold, for which there were none: the rendering of a forest by the
primary rules still succeeds if it did, and gives the same nodes. Custom tokens of built-in kinds are out, as a
rule for the kind would take them for what they are not. -/
theorem imitations_change_no_result (r : Renderer) (ts : List Token) (hkinds : ∀ t ∈ Token.allOf ts, t.FitsKind)
    (hformats : r.extensions.KeepsFormatting)
    (hnone : ∀ kind ∈ Extensions.imitations.names, r.extensions.rule? kind = none) {level : Level}
    (hlevel : level.IsPrimary) :
    Run.SameResult ((r.withExtensions (r.extensions.addAll Extensions.imitations)).renderTokens level ts)
      (r.renderTokens level ts) :=
  r.sameResult_renderTokens hformats (fun t ht _ h => imitatesAt_imitations (hkinds t ht) hnone h) hlevel

/-- A rule that lets the children of notes through, one that takes strong text in its hands, and one that
leaves out breaks. -/
def lettingNotesThrough : Renderer :=
  { extensions :=
      { rules := [("note", { action := .unwrapInline }), ("strong", { action := .wrapInline "b" }),
          ("hr", { action := .suppress })] } }

/-- A deletion in a note in emphasis, beside it a deletion in strong text, and below them a break. -/
def deletionsInEmphasis : List Token :=
  [.paragraph "" "" [.em "" "" [.custom "note" "" "" [.del "" "" [.text "" "gone" none false]]],
    .strong "" "" [.del "" "" [.br ""]]], .hr "---"]

theorem keepsFormatting_lettingNotesThrough : lettingNotesThrough.extensions.KeepsFormatting := by
  intro kind rule hrule
  have hmem : (kind, rule) ∈ lettingNotesThrough.extensions.rules := Entries.mem_of_get? hrule
  simp only [lettingNotesThrough, List.mem_cons, Prod.mk.injEq, List.not_mem_nil, or_false] at hmem
  rcases hmem with ⟨-, rfl⟩ | ⟨-, rfl⟩ | ⟨-, rfl⟩ <;> simp

/-- The rules that imitate come to bear above and below those that were there. -/
theorem imitations_change_no_result_of_deletions_in_emphasis :
    (∀ t ∈ Token.allOf deletionsInEmphasis, t.FitsKind) ∧
      (∀ kind ∈ Extensions.imitations.names, lettingNotesThrough.extensions.rule? kind = none) ∧
      Run.SameResult
        ((lettingNotesThrough.withExtensions (lettingNotesThrough.extensions.addAll Extensions.imitations)).renderTokens
          (.block true) deletionsInEmphasis)
        (lettingNotesThrough.renderTokens (.block true) deletionsInEmphasis) ∧
      (lettingNotesThrough.renderTokens (.block true) deletionsInEmphasis).outcome = .ok
        [(Node.element "p").hold
          [(Node.element "em").hold [(Node.element "del").hold [Node.span "gone"]],
            (Node.element "b").hold [(Node.element "del").hold [Node.element "br"]]]] := by
  have hkinds : ∀ t ∈ Token.allOf deletionsInEmphasis, t.FitsKind := by
    simp [deletionsInEmphasis, Token.allOf, Token.all_eq, Token.inner, Token.children, Token.items,
      Token.header, Token.rows, Token.FitsKind, Token.builtIn?, Token.kind, Token.builtInKinds]
  have hnone : ∀ kind ∈ Extensions.imitations.names, lettingNotesThrough.extensions.rule? kind = none := by decide
  exact ⟨hkinds, hnone,
    imitations_change_no_result _ _ hkinds keepsFormatting_lettingNotesThrough hnone (Level.isPrimary_block true),
    rfl⟩

end Renderer
end MarkdownNodes
