import MarkdownNodes.Render.Renderer

/-! Descriptions of a renderer and its settings, for people to read. What cannot be shown, such as the
rules of extensions and the functions of a policy, is left out. -/

namespace MarkdownNodes

/-- The kinds with a rule, between braces. -/
def Extensions.describe (extensions : Extensions) : String :=
  "\x7b" ++ ", ".intercalate (extensions.kinds.map Text.quoted) ++ "\x7d"

def Rule.describe (_ : Rule) : String := "Extension \x7b .. \x7d"

def Policy.describe (policy : Policy) : String :=
  "NodeBuilder \x7b task_checkboxes: " ++ toString policy.checkboxes ++ ", .. \x7d"

/-- The rules that keep only text have no settings. -/
def plainRulesDescription : String := "PlainNodeBuilder"

namespace Renderer

def describeOptions (r : Renderer) : String :=
  "CompilerOptions \x7b extensions: " ++ r.extensions.describe ++ ", silent: " ++ toString r.silent ++ " \x7d"

def describe (r : Renderer) : String := "TokenCompiler \x7b options: " ++ r.describeOptions ++ ", .. \x7d"

end MarkdownNodes.Renderer
