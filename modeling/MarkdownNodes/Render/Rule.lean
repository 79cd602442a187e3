import MarkdownNodes.Node.Basic
import MarkdownNodes.Render.Level

/-! Extension rules. A rule says what becomes of the tokens of one kind, in place of the built-in rule;
it may be confined to some modes, and then leaves the tokens it meets in others to the built-in rule. -/

namespace MarkdownNodes

/-- What a rule does with a token. -/
inductive Action where
  /-- Leaves the token to the built-in rule. -/
  | defer
  | suppress
  | node (node : Node)
  | nodes (nodes : List Node)
  /-- A span of the given text. -/
  | text (s : String)
  /-- Fails for the given reason. -/
  | error (reason : String)
  /-- An element that shows the token's source. -/
  | raw (tag : String)
  /-- A span that names the mode. -/
  | mode
  /-- An element around the children, rendered as blocks. -/
  | wrapBlock (tag : String)
  /-- An element around the children, rendered as inline tokens. -/
  | wrapInline (tag : String)
  /-- The children, rendered as blocks. -/
  | unwrapBlock
  /-- The children, rendered as inline tokens. -/
  | unwrapInline
  /-- A span of the text of the children, with all formatting dropped. -/
  | plainText
  /-- A span that says whether the renderer is silent. -/
  | silent

def Action.name : Action → String
  | .defer => "defer"
  | .suppress => "suppress"
  | .node _ => "node"
  | .nodes _ => "nodes"
  | .text _ => "text"
  | .error _ => "error"
  | .raw _ => "raw"
  | .mode => "mode"
  | .wrapBlock _ => "wrap_block"
  | .wrapInline _ => "wrap_inline"
  | .unwrapBlock => "unwrap_block"
  | .unwrapInline => "unwrap_inline"
  | .plainText => "plain_text"
  | .silent => "silent"

structure Rule where
  action : Action
  /-- The modes the rule is confined to, if any. -/
  modes : Option (List Mode) := none

def Rule.appliesIn (rule : Rule) (mode : Mode) : Bool :=
  match rule.modes with
  | none => true
  | some modes => modes.contains mode

/-- What a rule has made of a token. -/
inductive Output where
  | defer
  | suppress
  | node (node : Node)
  | nodes (nodes : List Node)
  | text (s : String)

/-- The nodes in an output; none if it leaves the token to the built-in rule. -/
def Output.nodes? : Output → Option (List Node)
  | .defer => none
  | .suppress => some []
  | .node n => some [n]
  | .nodes ns => some ns
  | .text s => some [Node.span s]

end MarkdownNodes
