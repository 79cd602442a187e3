import MarkdownNodes.Render.Extensions
import MarkdownNodes.Render.Policy
import MarkdownNodes.Render.Run

/-! Rendering of tokens. Each token is offered first to the extension for its kind, and then to the
built-in rule for its kind and level; a token without a rule is unknown. A rule may render the parts of
its token, and what these leave in the records of the run comes before what later tokens leave. -/

namespace MarkdownNodes

/-- What becomes of a text token. -/
inductive TextRule where
  /-- Its inline tokens, if it has been parsed into them, and otherwise its text. -/
  | nested
  /-- Its text in brackets. -/
  | bracketed
  deriving DecidableEq

structure Renderer where
  extensions : Extensions := {}
  /-- Whether an unknown token is shown as an error, instead of failing the run. -/
  silent : Bool := false
  policy : Policy := {}
  /-- The primary rule for text. -/
  text : TextRule := .nested

/-- The parts of a token. -/
inductive Part where
  /-- The child tokens, rendered at a level. -/
  | children (level : Level)
  /-- The items of a list, one node each. -/
  | items
  /-- The cells of a table's header, one node each. -/
  | header
  /-- The rows of a table's body, one node each. -/
  | rows

/-- The renderings of a token's parts, of which a rule runs those it needs. -/
abbrev Parts := Part → Run RenderError (List Node)

/-- A node around the children of a token, rendered as inline tokens. -/
def Parts.aroundInline (parts : Parts) (node : List Node → Node) : Run RenderError Node :=
  node <$> parts (.children (.inline .primary))

/-- Applies an action. `silent` is the renderer's setting, `source` the source of the token, and
`children` renders its children at a level; an error in them is the action's own. -/
def Action.apply (silent : Bool) (mode : Mode) (source : String)
    (children : Level → Run String (List Node)) : Action → Run String Output
  | .defer => pure .defer
  | .suppress => pure .suppress
  | .node n => pure (.node n)
  | .nodes ns => pure (.nodes ns)
  | .text s => pure (.text s)
  | .error reason => Run.fail reason
  | .raw tag => pure (.node ((Node.element tag).holdText source))
  | .mode => pure (.text mode.name)
  | .wrapBlock tag => (fun ns => .node ((Node.element tag).hold ns)) <$> children (.block mode.top)
  | .wrapInline tag => (fun ns => .node ((Node.element tag).hold ns)) <$> children (.inline .primary)
  | .unwrapBlock => .nodes <$> children (.block mode.top)
  | .unwrapInline => .nodes <$> children (.inline .primary)
  | .plainText => (fun ns => .text (Node.text ns)) <$> children (.inline .plain)
  | .silent => pure (.text (toString silent))

/-- Calls a rule for a token: the call is recorded, and a rule that does not apply in the mode defers. -/
def Rule.call (rule : Rule) (silent : Bool) (mode : Mode) (token : Token)
    (children : Level → Run String (List Node)) : Run String Output := do
  Run.call ⟨token, mode, rule.action⟩
  if rule.appliesIn mode then rule.action.apply silent mode token.raw children else pure .defer

namespace Renderer

/-- The nodes that the extension for the token's kind makes of it; none if there is no extension or it
defers. -/
def extend (r : Renderer) (level : Level) (token : Token) (parts : Parts) :
    Run RenderError (Option (List Node)) :=
  match r.extensions.rule? token.kind with
  | none => pure none
  | some rule => do
      let children (level : Level) := (parts (.children level)).mapError RenderError.message
      let output ← (rule.call r.silent level.mode token children).mapError (.extension token.kind)
      match output.nodes? with
      | none => do
          Run.log (.deferred token.kind)
          pure none
      | some nodes => pure (some nodes)

/-- An unknown token fails the run, or if the renderer is silent shows as an error. -/
def unknown (r : Renderer) (mode : Mode) (kind : String) : Run RenderError Node :=
  if r.silent then do
    Run.log (.unknownToken kind)
    pure (Node.ofError mode (RenderError.unknownToken kind).message)
  else Run.fail (.unknownToken kind)

/-- The node for a text token, which has been parsed into inline tokens or not. -/
def textNode (rule : TextRule) (s : String) (parsed : Bool) (parts : Parts) : Run RenderError Node :=
  match rule with
  | .bracketed => pure (Node.span ("[" ++ s ++ "]"))
  | .nested => if parsed then parts.aroundInline Node.fragment else pure (Node.span s)

/-- The built-in rules for blocks. Blank lines between blocks have no node. -/
def blockNode (r : Renderer) (top : Bool) (token : Token) (parts : Parts) :
    Run RenderError (Option Node) :=
  match token with
  | .space _ => pure none
  | .hr _ => pure (some (Node.element "hr"))
  | .heading _ depth _ _ => some <$> parts.aroundInline (Node.ofHeading depth)
  | .code _ s lang escaped => pure (some (r.policy.code s lang escaped))
  | .table .. => do
      let header ← parts .header
      let rows ← parts .rows
      pure (some (Node.ofTable header rows))
  | .blockquote .. => do
      let blocks ← parts (.children (.block true))
      pure (some ((Node.element "blockquote").hold blocks))
  | .list _ ordered start _ _ => do
      let items ← parts .items
      pure (some (Node.ofList ordered start items))
  | .listItem item => do
      let blocks ← parts (.children (.block item.loose))
      pure (some (r.policy.item item.task item.checked blocks))
  | .html _ s _ _ => pure (some ((Node.element "span").holdHtml s))
  | .paragraph .. => some <$> parts.aroundInline fun content => (Node.element "p").hold content
  | .text _ s tokens _ => some <$> textNode r.text s tokens.isSome parts
  | token => some <$> r.unknown (.block top) token.kind

/-- The built-in rules for inline tokens, with a choice for text. -/
def inlineNode (r : Renderer) (text : TextRule) (token : Token) (parts : Parts) : Run RenderError Node :=
  match token with
  | .escape _ s => pure (Node.span s)
  | .html _ s _ _ => pure ((Node.element "span").holdHtml s)
  | .link _ href title _ _ => parts.aroundInline (r.policy.link href title)
  | .image _ href title alt => pure (r.policy.image href title alt)
  | .strong .. => parts.aroundInline Node.ofStrong
  | .em .. => parts.aroundInline fun content => (Node.element "em").hold content
  | .codespan _ s => pure ((Node.element "code").holdText s)
  | .br _ => pure (Node.element "br")
  | .del .. => parts.aroundInline fun content => (Node.element "del").hold content
  | .text _ s tokens _ => textNode text s tokens.isSome parts
  | token => r.unknown .inline token.kind

/-- The rules for inline tokens that keep only the text of each. -/
def plainNode (r : Renderer) (token : Token) : Run RenderError Node :=
  match token with
  | .escape .. | .html .. | .link .. | .image .. | .strong .. | .em .. | .codespan .. | .del .. | .text .. =>
      pure (Node.span token.ownText)
  | .br _ => pure (Node.span "")
  | token => r.unknown .inline token.kind

/-- The nodes that the built-in rules make of a token at a level. -/
def builtIn (r : Renderer) (level : Level) (token : Token) (parts : Parts) : Run RenderError (List Node) :=
  match level with
  | .block top => Option.toList <$> r.blockNode top token parts
  | .inline .primary => ([·]) <$> r.inlineNode r.text token parts
  | .inline .bracketed => ([·]) <$> r.inlineNode .bracketed token parts
  | .inline .plain => ([·]) <$> r.plainNode token

/-- Renders one token, given the renderings of its parts. -/
def step (r : Renderer) (level : Level) (token : Token) (parts : Parts) : Run RenderError (List Node) := do
  match ← r.extend level token parts with
  | some nodes => pure nodes
  | none => r.builtIn level token parts

/-- The parts of a token that has nothing but children. -/
def childParts (children : Level → Run RenderError (List Node)) : Parts
  | .children level => children level
  | _ => pure []

mutual

/-- The nodes of a token. -/
def renderToken (r : Renderer) (level : Level) : Token → Run RenderError (List Node)
  | token@(.heading _ _ _ ts) => r.step level token (childParts fun level => renderTokens r level ts)
  | token@(.table _ _ header rows) =>
      r.step level token fun
        | .header => renderCells r true header
        | .rows => renderRows r rows
        | _ => pure []
  | token@(.blockquote _ _ ts) => r.step level token (childParts fun level => renderTokens r level ts)
  | token@(.list _ _ _ _ items) =>
      r.step level token fun
        | .items => renderItems r items
        | _ => pure []
  | token@(.listItem ⟨_, _, _, _, _, ts⟩) =>
      r.step level token (childParts fun level => renderTokens r level ts)
  | token@(.paragraph _ _ ts) => r.step level token (childParts fun level => renderTokens r level ts)
  | token@(.text _ _ (some ts) _) => r.step level token (childParts fun level => renderTokens r level ts)
  | token@(.link _ _ _ _ ts) => r.step level token (childParts fun level => renderTokens r level ts)
  | token@(.strong _ _ ts) => r.step level token (childParts fun level => renderTokens r level ts)
  | token@(.em _ _ ts) => r.step level token (childParts fun level => renderTokens r level ts)
  | token@(.del _ _ ts) => r.step level token (childParts fun level => renderTokens r level ts)
  | token@(.custom _ _ _ ts) => r.step level token (childParts fun level => renderTokens r level ts)
  | token => r.step level token fun _ => pure []

/-- The nodes of tokens, one after the other. -/
def renderTokens (r : Renderer) (level : Level) : List Token → Run RenderError (List Node)
  | [] => pure []
  | t :: ts => do
      let first ← renderToken r level t
      let rest ← renderTokens r level ts
      pure (first ++ rest)

/-- The items of a list, one node each. The blocks of a loose item are at the top level. -/
def renderItems (r : Renderer) : List (Item Token) → Run RenderError (List Node)
  | [] => pure []
  | ⟨_, _, task, checked, loose, ts⟩ :: items => do
      let blocks ← renderTokens r (.block loose) ts
      let rest ← renderItems r items
      pure (r.policy.item task checked blocks :: rest)

/-- The cells of a row, one node each. Their place makes them header cells, not their own flag. -/
def renderCells (r : Renderer) (header : Bool) : List (Cell Token) → Run RenderError (List Node)
  | [] => pure []
  | ⟨_, ts, _, align⟩ :: cells => do
      let content ← renderTokens r (.inline .primary) ts
      let rest ← renderCells r header cells
      pure (Node.ofCell header align content :: rest)

/-- The rows of a table's body, one node each. -/
def renderRows (r : Renderer) : List (List (Cell Token)) → Run RenderError (List Node)
  | [] => pure []
  | row :: rows => do
      let cells ← renderCells r false row
      let rest ← renderRows r rows
      pure (Node.ofRow cells :: rest)

end

/-- The parts of a token, rendered. -/
def parts (r : Renderer) (token : Token) : Parts
  | .children level => r.renderTokens level token.children
  | .items => r.renderItems token.items
  | .header => r.renderCells true token.header
  | .rows => r.renderRows token.rows

/-- Every token is rendered by one step over its rendered parts. -/
theorem renderToken_eq_step (r : Renderer) (level : Level) (token : Token) :
    r.renderToken level token = r.step level token (r.parts token) := by
  rcases token with _ | _ | _ | _ | _ | _ | _ | _ | _ | _ | ⟨_, _, _ | _, _⟩ <;>
    (simp only [renderToken]; congr; funext part; cases part <;> rfl)

/-- The nodes of blocks at the top level of a document. -/
def renderBlocks (r : Renderer) (tokens : List Token) : Run RenderError (List Node) :=
  r.renderTokens (.block true) tokens

/-- The nodes of inline tokens. -/
def renderInline (r : Renderer) (tokens : List Token) : Run RenderError (List Node) :=
  r.renderTokens (.inline .primary) tokens

/-- The text of inline tokens with all formatting dropped. -/
def bareText (r : Renderer) (tokens : List Token) : Run RenderError String :=
  Node.text <$> r.renderTokens (.inline .plain) tokens

/-- Calls a rule for a token on behalf of the renderer. -/
def call (r : Renderer) (rule : Rule) (mode : Mode) (token : Token) : Run String Output :=
  rule.call r.silent mode token fun level =>
    (r.renderTokens level token.children).mapError RenderError.message

end MarkdownNodes.Renderer
