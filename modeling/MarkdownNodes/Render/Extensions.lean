import MarkdownNodes.Render.Rule

/-! The extensions of a renderer: at most one rule for each kind of token, in the order in which the
kinds first came. -/

namespace MarkdownNodes

structure Extensions where
  rules : Entries Rule := []

namespace Extensions

/-- Sets the rule for a kind, in place of an earlier one. -/
def add (kind : String) (rule : Rule) (extensions : Extensions) : Extensions :=
  { rules := extensions.rules.set kind rule }

/-- Adds rules one after the other. -/
def addAll (extensions : Extensions) (rules : Entries Rule) : Extensions :=
  rules.foldl (fun extensions (kind, rule) => extensions.add kind rule) extensions

def ofList (rules : Entries Rule) : Extensions := addAll {} rules

/-- Takes over every rule of other extensions, in their order. -/
def merge (extensions other : Extensions) : Extensions := extensions.addAll other.rules

def rule? (extensions : Extensions) (kind : String) : Option Rule := extensions.rules.get? kind

/-- The kinds with a rule. -/
def kinds (extensions : Extensions) : List String := extensions.rules.names

end MarkdownNodes.Extensions
