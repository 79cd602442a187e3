import MarkdownNodes.Json.Number
import MarkdownNodes.Text.Hex

/-! Reading of JSON text. Text that stops inside a value is told apart from text that is wrong where it
stands, and faults are met from left to right. At most `room` containers may be open at a time. -/

namespace MarkdownNodes.Json

/-- Drops the white space in front: spaces, tabs and line ends. -/
def skipSpace (cs : List Char) : List Char := cs.dropWhile Char.isWhitespace

/-- Reads exactly the given characters. -/
def expect : List Char → List Char → Except ReadError (List Char)
  | [], rest => .ok rest
  | _ :: _, [] => .error .ended
  | e :: es, c :: rest => if c == e then expect es rest else .error .malformed

/-- The value of four hexadecimal digits. -/
def hexUnit? (a b c d : Char) : Option Nat := do
  let a ← Text.hexValue? a
  let b ← Text.hexValue? b
  let c ← Text.hexValue? c
  let d ← Text.hexValue? d
  some (((a * 16 + b) * 16 + c) * 16 + d)

/-- The fault of an escape with fewer than four characters left: the text has ended, unless those
that are left fill four bytes. -/
def shortEscape (cs : List Char) : ReadError :=
  if 4 ≤ (String.ofList cs).utf8ByteSize then .malformed else .ended

/-- The characters with an escape of one letter. -/
def letterEscape? : Char → Option Char
  | '"' => some '"'
  | '\\' => some '\\'
  | '/' => some '/'
  | 'b' => some '\x08'
  | 'f' => some '\x0c'
  | 'n' => some '\n'
  | 'r' => some '\r'
  | 't' => some '\t'
  | _ => none

def isLeading (unit : Nat) : Bool := 0xD800 ≤ unit && unit < 0xDC00

def isTrailing (unit : Nat) : Bool := 0xDC00 ≤ unit && unit < 0xE000

/-- The character of a surrogate pair. -/
def pairChar (leading trailing : Nat) : Char :=
  Char.ofNat ((leading - 0xD800) * 0x400 + (trailing - 0xDC00) + 0x10000)

/-- Adds a character in front of what a reader has read. -/
def consChar (c : Char) :
    Except ReadError (List Char × List Char) → Except ReadError (List Char × List Char)
  | .ok (cs, rest) => .ok (c :: cs, rest)
  | .error e => .error e

/-- The characters of a string, after its opening quote. A control character may not stand for itself,
and the escape of a surrogate counts only as half of a pair. -/
def stringChars : List Char → Except ReadError (List Char × List Char)
  | [] => .error .ended
  | '"' :: rest => .ok ([], rest)
  | '\\' :: rest =>
      match rest with
      | [] => .error .ended
      | 'u' :: rest =>
          match rest with
          | a :: b :: c :: d :: rest =>
              match hexUnit? a b c d with
              | none => .error .malformed
              | some unit =>
                  if isTrailing unit then .error .malformed
                  else if isLeading unit then
                    match rest with
                    | [] => .error .ended
                    | '\\' :: rest =>
                        match rest with
                        | [] => .error .ended
                        | 'u' :: rest =>
                            match rest with
                            | a :: b :: c :: d :: rest =>
                                match hexUnit? a b c d with
                                | none => .error .malformed
                                | some second =>
                                    if isTrailing second then
                                      consChar (pairChar unit second) (stringChars rest)
                                    else .error .malformed
                            | rest => .error (shortEscape rest)
                        | _ :: _ => .error .malformed
                    | _ :: _ => .error .malformed
                  else consChar (Char.ofNat unit) (stringChars rest)
          | rest => .error (shortEscape rest)
      | letter :: rest =>
          match letterEscape? letter with
          | some c => consChar c (stringChars rest)
          | none => .error .malformed
  | c :: rest => if c < ' ' then .error .malformed else consChar c (stringChars rest)

def string : Reader String := fun cs => do
  let (chars, rest) ← stringChars cs
  .ok (String.ofList chars, rest)

/-- The members of a container after its first: each follows a comma, and `close` ends them. The
first argument bounds their number. -/
def laterMembers {α : Type} (close : Char) (member : Reader α) : Nat → Reader (List α)
  | 0, _ => .error .ended
  | bound + 1, cs =>
      match skipSpace cs with
      | [] => .error .ended
      | c :: rest =>
          if c == close then .ok ([], rest)
          else if c == ',' then
            match skipSpace rest with
            | [] => .error .ended
            | c :: rest =>
                if c == close then .error .malformed
                else do
                  let (first, rest) ← member (c :: rest)
                  let (later, rest) ← laterMembers close member bound rest
                  .ok (first :: later, rest)
          else .error .malformed

/-- The members of a container, after its opening bracket. -/
def members {α : Type} (close : Char) (member : Reader α) : Reader (List α) := fun cs =>
  match skipSpace cs with
  | [] => .error .ended
  | c :: rest =>
      if c == close then .ok ([], rest)
      else do
        let (first, rest) ← member (c :: rest)
        let (later, rest) ← laterMembers close member (rest.length + 1) rest
        .ok (first :: later, rest)

/-- A field of an object: a name, a colon and a value. -/
def field (value : Reader Json) : Reader (String × Json)
  | '"' :: rest => do
      let (name, rest) ← string rest
      match skipSpace rest with
      | [] => .error .ended
      | ':' :: rest => do
          let (v, rest) ← value rest
          .ok ((name, v), rest)
      | _ :: _ => .error .malformed
  | _ => .error .malformed

/-- A value in whose text at most `room` containers are open at a time. -/
def value : Nat → Reader Json
  | room, cs =>
      match skipSpace cs with
      | [] => .error .ended
      | 'n' :: rest => do .ok (.null, ← expect ['u', 'l', 'l'] rest)
      | 't' :: rest => do .ok (.bool true, ← expect ['r', 'u', 'e'] rest)
      | 'f' :: rest => do .ok (.bool false, ← expect ['a', 'l', 's', 'e'] rest)
      | '"' :: rest => do
          let (s, rest) ← string rest
          .ok (.str s, rest)
      | '-' :: rest => Number.unsigned true rest
      | '[' :: rest =>
          match room with
          | 0 => .error .malformed
          | room + 1 => do
              let (elems, rest) ← members ']' (value room) rest
              .ok (.arr elems, rest)
      | '\x7b' :: rest =>
          match room with
          | 0 => .error .malformed
          | room + 1 => do
              let (fields, rest) ← members '\x7d' (field (value room)) rest
              .ok (.obj fields, rest)
      | c :: rest => if c.isDigit then Number.unsigned false (c :: rest) else .error .malformed

/-- What is left after a document: nothing but white space. -/
def atEnd (cs : List Char) : Except ReadError Unit :=
  if (skipSpace cs).isEmpty then .ok () else .error .malformed

/-- The value that a whole text denotes. -/
def parse (room : Nat) (text : String) : Except ReadError Json := do
  let (v, rest) ← value room text.toList
  atEnd rest
  .ok v

end MarkdownNodes.Json
