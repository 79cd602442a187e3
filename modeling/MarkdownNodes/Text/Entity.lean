import MarkdownNodes.Text.Hex
import MarkdownNodes.Text.Word

/-! Escaping of text for HTML. Five characters are special and each has an entity that stands for it.
Full escaping replaces all of them; soft escaping leaves an ampersand alone where it already starts a
reference to an entity, so that escaped text is not escaped twice. -/

namespace MarkdownNodes.Text

/-- The entity that stands for a character special in HTML. -/
def entity? : Char → Option (List Char)
  | '&' => some ['&', 'a', 'm', 'p', ';']
  | '<' => some ['&', 'l', 't', ';']
  | '>' => some ['&', 'g', 't', ';']
  | '"' => some ['&', 'q', 'u', 'o', 't', ';']
  | '\'' => some ['&', '#', '3', '9', ';']
  | _ => none

/-- A character as HTML text: its entity, or itself where it has none. -/
def escapeChar (c : Char) : List Char := (entity? c).getD [c]

/-- Full escaping: every special character becomes its entity. -/
def escapeAll (cs : List Char) : List Char := cs.flatMap escapeChar

/-- A hexadecimal digit, in either case. -/
def isHexDigit (c : Char) : Bool := (hexValue? c).isSome

/-- The text begins with a run of at least one and at most `most` characters of a class, and a
semicolon ends the run. -/
def closedRun (p : Char → Bool) (most : Nat) (cs : List Char) : Bool :=
  let run := cs.takeWhile p
  !run.isEmpty && decide (run.length ≤ most) && (cs.dropWhile p).head? == some ';'

/-- What follows an ampersand completes a reference: a name, `#` and one to seven decimal digits, or
`#x` and one to six hexadecimal digits, each with its semicolon. -/
def completesReference : List Char → Bool
  | '#' :: 'x' :: rest => closedRun isHexDigit 6 rest
  | '#' :: 'X' :: rest => closedRun isHexDigit 6 rest
  | '#' :: rest => closedRun isDecimalDigit 7 rest
  | rest => closedRun isWord rest.length rest

/-- Soft escaping: like full escaping, but an ampersand that starts a reference stays. -/
def escapeSoft : List Char → List Char
  | [] => []
  | c :: rest =>
      (if c == '&' && completesReference rest then ['&'] else escapeChar c) ++ escapeSoft rest

/-- Escapes a text for HTML: in full, or softly. -/
def escapeHtml (text : String) (full : Bool) : String :=
  String.ofList (if full then escapeAll text.toList else escapeSoft text.toList)

end MarkdownNodes.Text
