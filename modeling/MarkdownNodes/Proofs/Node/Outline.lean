import MarkdownNodes.Proofs.Node.EmptyTags
import MarkdownNodes.Proofs.Node.Markup

/-! What HTML tells of nodes. An outline has runs of text and elements, and nothing of what HTML does not
show: no fragments, no content of elements that HTML keeps empty, no flags that are not set, and no division of
text into parts. Nodes are written as their outline is. -/

namespace MarkdownNodes

/-- The attribute as it shows: bare if it is a flag, and otherwise with a value. A flag that is not set
does not show. -/
def AttrValue.shown? : String × AttrValue → Option (String × Option String)
  | (_, .bool false) => none
  | (name, .bool true) => some (name, none)
  | (name, .int n) => some (name, some (toString n))
  | (name, .str s) => some (name, some s)

/-- A piece of an outline. -/
inductive Piece where
  | text (run : List Char)
  /-- Trusted HTML. -/
  | html (s : String)
  /-- An element, with its attributes that show: a name, and a value unless the attribute is bare. -/
  | element (tag : String) (attrs : List (String × Option String)) (content : List Piece)

namespace Piece

/-- Puts a piece before others. Text makes one run with text that follows, and no text makes no piece. -/
def join : Piece → List Piece → List Piece
  | .text run, .text more :: rest => .text (run ++ more) :: rest
  | .text [], rest => rest
  | piece, rest => piece :: rest

/-- The pieces with all text in runs that are not empty and do not touch. -/
def joined (pieces : List Piece) : List Piece := pieces.foldr join []

/-- An attribute that shows, inside a start tag. -/
def attrChars : String × Option String → List Char
  | (name, none) => ' ' :: name.toList
  | (name, some value) => ' ' :: name.toList ++ ['=', '"'] ++ Text.escapeAll value.toList ++ ['"']

mutual

/-- A piece as HTML. -/
def chars : Piece → List Char
  | .text run => Text.escapeAll run
  | .html s => s.toList
  | .element tag attrs content =>
      '<' :: tag.toList ++ attrs.flatMap attrChars ++ ['>'] ++
        if Node.staysEmpty tag then [] else charsOf content ++ Node.endTag tag

def charsOf : List Piece → List Char
  | [] => []
  | piece :: rest => chars piece ++ charsOf rest

end

end Piece

namespace Node

mutual

/-- The pieces of a node. -/
def pieces : Node → List Piece
  | ⟨.fragment, _, content⟩ => contentPieces content
  | ⟨.element tag, attrs, content⟩ =>
      [.element tag (attrs.filterMap AttrValue.shown?)
        (if isVoid tag then [] else Piece.joined (contentPieces content))]

def contentPieces : Content Node → List Piece
  | .empty => []
  | .text s => [.text s.toList]
  | .html s => [.html s]
  | .nodes ns => piecesOf ns

def piecesOf : List Node → List Piece
  | [] => []
  | n :: ns => pieces n ++ piecesOf ns

end

/-- The outline of a forest: what HTML tells of it. -/
def outline (ns : List Node) : List Piece := Piece.joined (piecesOf ns)

end Node

namespace Piece

@[simp] theorem join_text_nil (ps : List Piece) : (text []).join ps = ps := by
  unfold join
  split <;> simp_all

@[simp] theorem join_text_text (run more : List Char) (rest : List Piece) :
    (text run).join (text more :: rest) = text (run ++ more) :: rest := rfl

theorem join_text {run : List Char} {ps : List Piece} (hrun : run ≠ [])
    (hps : ∀ more rest, ps ≠ text more :: rest) : (text run).join ps = text run :: ps := by
  unfold join
  split <;> simp_all

@[simp] theorem join_element (tag : String) (attrs : List (String × Option String)) (content ps : List Piece) :
    (element tag attrs content).join ps = element tag attrs content :: ps := rfl

@[simp] theorem joined_cons (p : Piece) (ps : List Piece) : joined (p :: ps) = p.join (joined ps) := rfl

end Piece

/-! ### Nodes are written as their outline is -/

namespace Piece

theorem charsOf_append (ps qs : List Piece) : charsOf (ps ++ qs) = charsOf ps ++ charsOf qs := by
  induction ps with
  | nil => simp [charsOf]
  | cons p ps ih => simp [charsOf, ih]

/-- Text that is put before text is written as the two are, one after the other. -/
theorem charsOf_join (p : Piece) (ps : List Piece) : charsOf (p.join ps) = p.chars ++ charsOf ps := by
  unfold join
  split
  case h_1 run more rest => simp [charsOf, chars, Text.escapeAll, List.flatMap_append]
  case h_2 rest _ => simp [chars, Text.escapeAll]
  case h_3 => rw [charsOf]

theorem charsOf_joined (ps : List Piece) : charsOf (joined ps) = charsOf ps := by
  induction ps with
  | nil => rfl
  | cons p ps ih =>
      rw [joined_cons, charsOf_join, ih, charsOf]

end Piece

namespace Node

theorem flatMap_attrChars (attrs : Entries AttrValue) :
    attrs.flatMap attrChars = (attrs.filterMap AttrValue.shown?).flatMap Piece.attrChars := by
  induction attrs with
  | nil => rfl
  | cons entry attrs ih =>
      rcases entry with ⟨name, s | n | _ | _⟩
      case bool.false => exact ih
      case int =>
        have hplain := Text.escapeAll_of_plain (plain_int n)
        simp only [List.flatMap_cons, List.filterMap_cons, AttrValue.shown?, attrChars, Piece.attrChars, hplain, ih]
      all_goals
        simp only [List.flatMap_cons, List.filterMap_cons, AttrValue.shown?, attrChars, Piece.attrChars, ih]

theorem charsOf_piecesOf {ns : List Node} (h : ∀ n ∈ ns, htmlChars n = Piece.charsOf (pieces n)) :
    Piece.charsOf (piecesOf ns) = htmlCharsOf ns := by
  induction ns with
  | nil => rfl
  | cons n ns ih =>
      rw [piecesOf, Piece.charsOf_append, htmlCharsOf, h n List.mem_cons_self,
        ih fun m hm => h m (List.mem_cons_of_mem n hm)]

theorem charsOf_pieces (n : Node) : htmlChars n = Piece.charsOf (pieces n) := by
  induction n using induct with
  | step n ih =>
      have hcontent : Piece.charsOf (contentPieces n.content) = contentHtmlChars n.content := by
        rcases n with ⟨kind, attrs, _ | s | s | ns⟩
        case nodes => exact charsOf_piecesOf ih
        all_goals simp [contentPieces, contentHtmlChars, Piece.charsOf, Piece.chars]
      rcases n with ⟨tag | _, attrs, content⟩
      · rw [htmlChars, pieces, Piece.charsOf, Piece.chars, startTag, flatMap_attrChars]
        by_cases hempty : staysEmpty tag = true
        · simp [hempty, Piece.charsOf]
        · have hvoid : isVoid tag ≠ true := mt staysEmpty_of_isVoid hempty
          simp [hempty, hvoid, Piece.charsOf, Piece.charsOf_joined, hcontent]
      · rw [htmlChars, pieces, hcontent]

/-- Nodes are written as their outline is: what the outline leaves out leaves no trace in HTML. -/
theorem htmlCharsOf_eq_charsOf_outline (ns : List Node) : htmlCharsOf ns = Piece.charsOf (outline ns) := by
  rw [outline, Piece.charsOf_joined, charsOf_piecesOf fun n _ => charsOf_pieces n]

end Node
end MarkdownNodes
