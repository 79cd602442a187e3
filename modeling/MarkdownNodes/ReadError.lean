import MarkdownNodes.Json.Basic

/-! The ways in which the reading of a token list fails. -/

namespace MarkdownNodes

inductive ReadError where
  /-- The text ends inside a value. -/
  | ended
  /-- The text is not JSON at the point reached, or nests too deep. -/
  | malformed
  /-- A value that is not an array stands where the token list should be. -/
  | notList (found : Json.Shape)
  /-- An element of the list is no token. -/
  | badToken
  deriving DecidableEq

def ReadError.message : ReadError → String
  | .ended => "Invalid token JSON: unexpected end of text"
  | .malformed => "Invalid token JSON: malformed text"
  | .notList found => "Invalid token JSON: invalid type: " ++ found.describe ++ ", expected a sequence"
  | .badToken => "Invalid token JSON: data did not match any variant of untagged enum Token"

end MarkdownNodes
