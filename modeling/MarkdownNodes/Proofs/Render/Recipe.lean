import MarkdownNodes.Render.Renderer

/-! What a built-in rule does, said without running it. A rule renders at most two parts of its token,
in a fixed order, and puts their nodes together; this is its recipe. Every built-in rule follows the
recipe for its level and token, and a token without a recipe is unknown. -/

namespace MarkdownNodes

/-- The levels of the primary rules. -/
def Level.IsPrimary : Level → Prop
  | .block _ | .inline .primary => True
  | .inline _ => False

theorem Level.isPrimary_block (top : Bool) : (block top).IsPrimary := trivial

/-- The part is rendered at one of the given levels, where the level is its own. -/
def Part.Within (levels : Level → Prop) : Part → Prop
  | .children level => levels level
  | _ => True

/-- The parts of a token that a rule renders, and the nodes it makes of theirs. -/
inductive Recipe where
  /-- There is no rule. -/
  | unknown
  | leaf (nodes : List Node)
  | around (part : Part) (nodes : List Node → List Node)
  | both (first second : Part) (nodes : List Node → List Node → List Node)

namespace Recipe

/-- Renders the parts, and makes of an unknown token what `unknown` does. -/
def run (unknown : Run RenderError Node) (parts : Parts) : Recipe → Run RenderError (List Node)
  | .unknown => ([·]) <$> unknown
  | .leaf nodes => pure nodes
  | .around part nodes => nodes <$> parts part
  | .both first second nodes => do
      let a ← parts first
      let b ← parts second
      pure (nodes a b)

/-- The parts that are rendered. -/
@[simp] def parts : Recipe → List Part
  | .unknown | .leaf _ => []
  | .around part _ => [part]
  | .both first second _ => [first, second]

/-- The nodes that come of those of the parts, and of an unknown token. -/
@[simp] def nodes (unknown : Node) (parts : Part → List Node) : Recipe → List Node
  | .unknown => [unknown]
  | .leaf nodes => nodes
  | .around part nodes => nodes (parts part)
  | .both first second nodes => nodes (parts first) (parts second)

/-- The nodes hang on those of the rendered parts only; where there is a rule nothing is unknown. -/
theorem nodes_congr {recipe : Recipe} (hrule : recipe ≠ .unknown) (unknown unknown' : Node)
    {parts parts' : Part → List Node} (h : ∀ part ∈ recipe.parts, parts part = parts' part) :
    recipe.nodes unknown parts = recipe.nodes unknown' parts' := by
  cases recipe with
  | unknown => exact absurd rfl hrule
  | leaf ns => rfl
  | around part f => rw [nodes, nodes, h part (by simp)]
  | both first second f =>
      rw [nodes, nodes, h first (by simp), h second (by simp)]

/-- What is gathered from the parts in order, and from an unknown token. -/
@[simp] def gather {α : Type} (unknown : List α) (parts : Part → List α) : Recipe → List α
  | .unknown => unknown
  | .leaf _ => []
  | .around part _ => parts part
  | .both first second _ => parts first ++ parts second

theorem map_gather {α β : Type} (f : α → β) (unknown : List α) (parts : Part → List α) (recipe : Recipe) :
    (recipe.gather unknown parts).map f = recipe.gather (unknown.map f) fun part => (parts part).map f := by
  cases recipe <;> simp

/-- One node around the children, rendered as inline tokens. -/
@[simp] def aroundInline (node : List Node → Node) : Recipe :=
  .around (.children (.inline .primary)) fun content => [node content]

end Recipe

namespace Renderer

/-- The recipe for a text token. -/
@[simp] def textRecipe (rule : TextRule) (s : String) (parsed : Bool) : Recipe :=
  match rule with
  | .bracketed => .leaf [Node.span ("[" ++ s ++ "]")]
  | .nested => if parsed then .aroundInline Node.fragment else .leaf [Node.span s]

@[simp] def blockRecipe (r : Renderer) : Token → Recipe
  | .space _ => .leaf []
  | .hr _ => .leaf [Node.element "hr"]
  | .heading _ depth _ _ => .aroundInline (Node.ofHeading depth)
  | .code _ s lang escaped => .leaf [r.policy.code s lang escaped]
  | .table .. => .both .header .rows fun header rows => [Node.ofTable header rows]
  | .blockquote .. =>
      .around (.children (.block true)) fun blocks => [(Node.element "blockquote").hold blocks]
  | .list _ ordered start _ _ => .around .items fun items => [Node.ofList ordered start items]
  | .listItem item =>
      .around (.children (.block item.loose)) fun blocks => [r.policy.item item.task item.checked blocks]
  | .html _ s _ _ => .leaf [(Node.element "span").holdHtml s]
  | .paragraph .. => .aroundInline fun content => (Node.element "p").hold content
  | .text _ s tokens _ => textRecipe r.text s tokens.isSome
  | _ => .unknown

@[simp] def inlineRecipe (r : Renderer) (text : TextRule) : Token → Recipe
  | .escape _ s => .leaf [Node.span s]
  | .html _ s _ _ => .leaf [(Node.element "span").holdHtml s]
  | .link _ href title _ _ => .aroundInline (r.policy.link href title)
  | .image _ href title alt => .leaf [r.policy.image href title alt]
  | .strong .. => .aroundInline Node.ofStrong
  | .em .. => .aroundInline fun content => (Node.element "em").hold content
  | .codespan _ s => .leaf [(Node.element "code").holdText s]
  | .br _ => .leaf [Node.element "br"]
  | .del .. => .aroundInline fun content => (Node.element "del").hold content
  | .text _ s tokens _ => textRecipe text s tokens.isSome
  | _ => .unknown

/-- The recipe of a rule that keeps only the text of its token. -/
def plainRecipe : Token → Recipe
  | .br _ => .leaf [Node.span ""]
  | .escape _ s | .html _ s _ _ | .link _ _ _ s _ | .image _ _ _ s | .strong _ s _ | .em _ s _
  | .codespan _ s | .del _ s _ | .text _ s _ _ => .leaf [Node.span s]
  | _ => .unknown

/-- The recipe for a token at a level. -/
def recipe (r : Renderer) : Level → Token → Recipe
  | .block _ => r.blockRecipe
  | .inline .primary => r.inlineRecipe r.text
  | .inline .bracketed => r.inlineRecipe .bracketed
  | .inline .plain => plainRecipe

/-- Whatever level a rule is for, what it renders is rendered by the primary rules. -/
theorem within_isPrimary_of_mem_parts {r : Renderer} {level : Level} {t : Token} {part : Part}
    (h : part ∈ (r.recipe level t).parts) : part.Within Level.IsPrimary := by
  have htext : ∀ rule s parsed, ∀ part ∈ (textRecipe rule s parsed).parts, part.Within Level.IsPrimary := by
    rintro (_ | _) s (_ | _) part hpart <;> simp at hpart
    exact hpart ▸ trivial
  rcases level with top | _ | _ | _ <;> cases t <;> simp [recipe, plainRecipe] at h
  all_goals first
    | exact htext _ _ _ _ h
    | rcases h with rfl | rfl <;> trivial

/-! ### The rules follow their recipes -/

theorem textNode_eq_run (unknown : Run RenderError Node) (rule : TextRule) (s : String) (parsed : Bool)
    (parts : Parts) :
    ([·]) <$> textNode rule s parsed parts = (textRecipe rule s parsed).run unknown parts := by
  cases rule with
  | bracketed => rfl
  | nested =>
      cases parsed with
      | false => rfl
      | true => simp [textNode, Recipe.run, Parts.aroundInline, Run.andThen_assoc]

theorem blockNode_eq_run (r : Renderer) (top : Bool) (token : Token) (parts : Parts) :
    Option.toList <$> r.blockNode top token parts =
      (r.blockRecipe token).run (r.unknown (.block top) token.kind) parts := by
  cases token with
  | text raw s tokens escaped =>
      rw [blockRecipe, ← textNode_eq_run]
      simp [blockNode, Run.andThen_assoc]
  | _ =>
      simp [blockNode, Recipe.run, Parts.aroundInline, Run.andThen_assoc]

theorem inlineNode_eq_run (r : Renderer) (text : TextRule) (token : Token) (parts : Parts) :
    ([·]) <$> r.inlineNode text token parts =
      (r.inlineRecipe text token).run (r.unknown .inline token.kind) parts := by
  cases token with
  | text raw s tokens escaped => exact textNode_eq_run ..
  | _ =>
      simp [inlineNode, Recipe.run, Parts.aroundInline, Run.andThen_assoc]

theorem plainNode_eq_run (r : Renderer) (token : Token) (parts : Parts) :
    ([·]) <$> r.plainNode token = (plainRecipe token).run (r.unknown .inline token.kind) parts := by
  cases token <;> simp [plainNode, plainRecipe, Recipe.run, Token.ownText]

/-- The built-in rules at a level follow the recipes for it. -/
theorem builtIn_eq_run (r : Renderer) (level : Level) (token : Token) (parts : Parts) :
    r.builtIn level token parts =
      (r.recipe level token).run (r.unknown level.mode token.kind) parts := by
  rcases level with top | _ | _ | _
  · exact r.blockNode_eq_run top token parts
  · exact r.inlineNode_eq_run r.text token parts
  · exact r.inlineNode_eq_run .bracketed token parts
  · exact r.plainNode_eq_run token parts

end Renderer
end MarkdownNodes
