import MarkdownNodes.Text.Unprintable

/-! Texts shown between quotes in messages and descriptions. Inside the quotes every character is
visible: quotes, backslashes and the common controls have a two-character form, and every other
unprintable character is shown by its code point in hexadecimal. -/

namespace MarkdownNodes.Text

/-- The form of one character between quotes. -/
def quotedChar : Char → List Char
  | '"' => ['\\', '"']
  | '\\' => ['\\', '\\']
  | '\n' => ['\\', 'n']
  | '\t' => ['\\', 't']
  | '\r' => ['\\', 'r']
  | '\x00' => ['\\', '0']
  | c =>
      if isUnprintable c then ['\\', 'u', '\x7b'] ++ Nat.toDigits 16 c.toNat ++ ['\x7d'] else [c]

/-- A text between double quotes. -/
def quoted (s : String) : String :=
  String.ofList ('"' :: s.toList.flatMap quotedChar ++ ['"'])

end MarkdownNodes.Text
