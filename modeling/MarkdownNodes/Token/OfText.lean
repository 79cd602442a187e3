import MarkdownNodes.Json.Parse
import MarkdownNodes.Token.OfJson

/-! Token lists from JSON text. The text is read from left to right and each element of the list is
judged as soon as it has been read, so that the first element which is no token is reported before
anything behind it is looked at. -/

namespace MarkdownNodes.Token

/-- How many containers may be open at a time in the text of a token list, the list included. -/
def roomOfText : Nat := 127

/-- One element of a token list. -/
def element : Json.Reader Token := fun cs => do
  let (v, rest) ← Json.value (roomOfText - 1) cs
  match Token.ofJson? v with
  | some token => .ok (token, rest)
  | none => .error .badToken

/-- The token list in a text. Anything but an array is refused by its first value; of an object not
more than the opening brace is looked at. -/
def listOfChars (cs : List Char) : Except ReadError (List Token) :=
  match Json.skipSpace cs with
  | '[' :: rest => do
      let (tokens, rest) ← Json.members ']' element rest
      Json.atEnd rest
      .ok tokens
  | '\x7b' :: _ => .error (.notList .obj)
  | cs => do
      let (v, _) ← Json.value 0 cs
      .error (.notList v.shape)

def listOfText (text : String) : Except ReadError (List Token) := listOfChars text.toList

end MarkdownNodes.Token
