/-! The levels of rendering. Tokens are rendered as blocks or as inline tokens, and inline tokens by one
of several sets of rules; an extension sees the mode but not the set of rules. -/

namespace MarkdownNodes

/-- Where a token is met: among blocks, or among inline tokens. The flag of a block is unset directly
inside a tight list item. -/
inductive Mode where
  | block (top : Bool)
  | inline
  deriving DecidableEq

def Mode.name : Mode → String
  | .block true => "block-top"
  | .block false => "block"
  | .inline => "inline"

/-- The top flag for blocks rendered on behalf of a token met in this mode. -/
def Mode.top : Mode → Bool
  | .block top => top
  | .inline => true

/-- A set of rules for inline tokens. It covers one list of tokens: what these contain is rendered by
the primary rules again. -/
inductive InlineStyle where
  /-- The rules of the renderer. -/
  | primary
  /-- The same, but text in brackets and without its parts. -/
  | bracketed
  /-- The text of each token, without any formatting. -/
  | plain
  deriving DecidableEq

inductive Level where
  | block (top : Bool)
  | inline (style : InlineStyle)
  deriving DecidableEq

def Level.mode : Level → Mode
  | .block top => .block top
  | .inline _ => .inline

end MarkdownNodes
