import MarkdownNodes.Proofs.Token.Descent
import Mathlib.Data.List.Basic

/-! What stands around a token. A token of a forest is held by the tokens around it, and directly by a
block quote, an item, or something that holds inline tokens. Its spot is told by its holders, innermost
first. The items of a list are not tokens, but they hold the tokens in them. -/

namespace MarkdownNodes

inductive Holder where
  /-- A heading, a paragraph, a cell, or anything else that holds inline tokens. -/
  | inline
  | blockquote
  | item (loose : Bool)
  deriving DecidableEq

/-- The flag of the nearest item among the holders; set if there is none. -/
def Holder.itemFlag : List Holder → Bool
  | [] => true
  | .item loose :: _ => loose
  | .inline :: holders | .blockquote :: holders => itemFlag holders

namespace Token

/-- The tokens one level down, in document order, each with what holds it. -/
def held : Token → List (Holder × Token)
  | .blockquote _ _ ts => ts.map fun u => (.blockquote, u)
  | .list _ _ _ _ items => items.flatMap fun item => item.tokens.map fun u => (.item item.loose, u)
  | .listItem item => item.tokens.map fun u => (.item item.loose, u)
  | t => t.inner.map fun u => (.inline, u)

theorem map_snd_held (t : Token) : t.held.map Prod.snd = t.inner := by
  cases t <;>
    simp [held, inner, children, items, header, rows, List.map_flatMap, Function.comp_def]

theorem mem_inner_of_mem_held {t : Token} {s : Holder × Token} (h : s ∈ t.held) : s.2 ∈ t.inner :=
  t.map_snd_held ▸ List.mem_map_of_mem h

/-- The token and the tokens at every depth inside it, in document order, each with its holders. -/
def spots (holders : List Holder) (t : Token) : List (List Holder × Token) :=
  (holders, t) :: t.held.attach.flatMap fun s => spots (s.val.1 :: holders) s.val.2
termination_by t
decreasing_by exact sizeOf_lt_of_mem_inner (mem_inner_of_mem_held s.property)

/-- The tokens at every depth of a forest, in document order, each with its holders. -/
def spotsOf (ts : List Token) : List (List Holder × Token) := ts.flatMap (spots [])

theorem spots_eq (holders : List Holder) (t : Token) :
    t.spots holders = (holders, t) :: t.held.flatMap fun s => s.2.spots (s.1 :: holders) := by
  rw [spots, flatMap_attach _ fun s : Holder × Token => s.2.spots (s.1 :: holders)]

theorem map_snd_spots (holders : List Holder) (t : Token) : (t.spots holders).map Prod.snd = t.all := by
  induction t using induct generalizing holders with
  | step t ih =>
      have hheld : (t.held.flatMap fun s => (s.2.spots (s.1 :: holders)).map Prod.snd) =
          t.held.flatMap fun s => s.2.all :=
        List.flatMap_congr fun s hs => ih s.2 (mem_inner_of_mem_held hs) _
      rw [spots_eq, all_eq, allOf, List.map_cons, List.map_flatMap, hheld, ← map_snd_held, List.flatMap_map]

/-- The spots of a forest are those of all its tokens, each token once. -/
theorem map_snd_spotsOf (ts : List Token) : (spotsOf ts).map Prod.snd = allOf ts := by
  rw [spotsOf, allOf, List.map_flatMap]
  exact List.flatMap_congr fun t _ => t.map_snd_spots []

end Token
end MarkdownNodes
