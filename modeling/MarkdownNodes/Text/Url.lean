import MarkdownNodes.Text.Hex

/-! Cleaning of the addresses of links and images. An address whose scheme runs script is refused;
every other one is percent-encoded, so that only ASCII characters that may stand in an address are
left. The percent sign is kept: what is already encoded stays as it is. -/

namespace MarkdownNodes.Text.Url

/-- The marks that are written as they are, besides the ASCII letters and digits. -/
def keptMarks : List Char :=
  ['-', '_', '.', '!', '~', '*', '\'', '(', ')', ';', ',', '/', '?', ':', '@', '&', '=', '+', '$', '#', '%']

/-- A character that stands for itself in an address. -/
def isKept (c : Char) : Bool := c.isAlphanum || keptMarks.contains c

/-- The percent form of one byte. -/
def percentByte (b : UInt8) : List Char := ['%', hexDigit (b.toNat / 16), hexDigit (b.toNat % 16)]

/-- A character in an address: itself if it is kept, otherwise the percent forms of its UTF-8 bytes. -/
def percentChar (c : Char) : List Char :=
  if isKept c then [c] else (String.utf8EncodeChar c).flatMap percentByte

def percentEncode (cs : List Char) : List Char := cs.flatMap percentChar

/-- What a browser takes the scheme from: tabs and line ends are dropped anywhere, then blanks and
controls at the front. -/
def schemeText (cs : List Char) : List Char :=
  (cs.filter fun c => !(c == '\t' || c == '\n' || c == '\r')).dropWhile (· ≤ ' ')

/-- The schemes that run script or carry a document of their own. -/
def scriptSchemes : List (List Char) :=
  [['j', 'a', 'v', 'a', 's', 'c', 'r', 'i', 'p', 't', ':'],
    ['v', 'b', 's', 'c', 'r', 'i', 'p', 't', ':'],
    ['d', 'a', 't', 'a', ':']]

/-- Agreement with a lower-case ASCII letter regardless of case. The long s (U+017F) is another
lower-case form of `s`; no other letter of the schemes has a variant outside ASCII. -/
def sameLetter (letter c : Char) : Bool := c.toLower == letter || (letter == 's' && c == '\u017f')

/-- The text begins with the given lower-case letters, in any case. -/
def beginsWith : List Char → List Char → Bool
  | [], _ => true
  | _ :: _, [] => false
  | letter :: letters, c :: cs => sameLetter letter c && beginsWith letters cs

/-- The address would run script when followed. -/
def runsScript (cs : List Char) : Bool := scriptSchemes.any (beginsWith · (schemeText cs))

/-- The address made fit for a link, or nothing if it must not be followed. -/
def clean (href : String) : Option String :=
  if runsScript href.toList then none else some (String.ofList (percentEncode href.toList))

end MarkdownNodes.Text.Url
