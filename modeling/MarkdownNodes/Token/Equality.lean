import MarkdownNodes.Token.Basic

/-! Equality of tokens can be decided: two tokens are the same if they are of one kind and agree in
every field, children included. -/

namespace MarkdownNodes

mutual

/-- The two tokens agree in kind and fields. -/
def Token.same : Token → Token → Bool
  | .space r, .space r' => r == r'
  | .hr r, .hr r' => r == r'
  | .heading r d s ts, .heading r' d' s' ts' => r == r' && d == d' && s == s' && Token.sameList ts ts'
  | .code r s l e, .code r' s' l' e' => r == r' && s == s' && l == l' && e == e'
  | .table r a h rs, .table r' a' h' rs' =>
      r == r' && a == a' && Cell.sameList h h' && Cell.sameRows rs rs'
  | .blockquote r s ts, .blockquote r' s' ts' => r == r' && s == s' && Token.sameList ts ts'
  | .list r o n l is, .list r' o' n' l' is' =>
      r == r' && o == o' && n == n' && l == l' && Item.sameList is is'
  | .listItem i, .listItem i' => Item.same i i'
  | .html r s b p, .html r' s' b' p' => r == r' && s == s' && b == b' && p == p'
  | .paragraph r s ts, .paragraph r' s' ts' => r == r' && s == s' && Token.sameList ts ts'
  | .text r s none e, .text r' s' none e' => r == r' && s == s' && e == e'
  | .text r s (some ts) e, .text r' s' (some ts') e' =>
      r == r' && s == s' && Token.sameList ts ts' && e == e'
  | .escape r s, .escape r' s' => r == r' && s == s'
  | .link r h t s ts, .link r' h' t' s' ts' =>
      r == r' && h == h' && t == t' && s == s' && Token.sameList ts ts'
  | .image r h t s, .image r' h' t' s' => r == r' && h == h' && t == t' && s == s'
  | .strong r s ts, .strong r' s' ts' => r == r' && s == s' && Token.sameList ts ts'
  | .em r s ts, .em r' s' ts' => r == r' && s == s' && Token.sameList ts ts'
  | .codespan r s, .codespan r' s' => r == r' && s == s'
  | .br r, .br r' => r == r'
  | .del r s ts, .del r' s' ts' => r == r' && s == s' && Token.sameList ts ts'
  | .custom k r s ts, .custom k' r' s' ts' => k == k' && r == r' && s == s' && Token.sameList ts ts'
  | _, _ => false

def Token.sameList : List Token → List Token → Bool
  | [], [] => true
  | t :: ts, t' :: ts' => Token.same t t' && Token.sameList ts ts'
  | _, _ => false

def Item.same : Item Token → Item Token → Bool
  | ⟨r, s, t, c, l, ts⟩, ⟨r', s', t', c', l', ts'⟩ =>
      r == r' && s == s' && t == t' && c == c' && l == l' && Token.sameList ts ts'

def Item.sameList : List (Item Token) → List (Item Token) → Bool
  | [], [] => true
  | i :: is, i' :: is' => Item.same i i' && Item.sameList is is'
  | _, _ => false

def Cell.same : Cell Token → Cell Token → Bool
  | ⟨s, ts, h, a⟩, ⟨s', ts', h', a'⟩ => s == s' && Token.sameList ts ts' && h == h' && a == a'

def Cell.sameList : List (Cell Token) → List (Cell Token) → Bool
  | [], [] => true
  | c :: cs, c' :: cs' => Cell.same c c' && Cell.sameList cs cs'
  | _, _ => false

def Cell.sameRows : List (List (Cell Token)) → List (List (Cell Token)) → Bool
  | [], [] => true
  | r :: rs, r' :: rs' => Cell.sameList r r' && Cell.sameRows rs rs'
  | _, _ => false

end

mutual

theorem Token.same_iff : (a b : Token) → (Token.same a b = true ↔ a = b)
  | .space _, b => by cases b <;> simp [Token.same]
  | .hr _, b => by cases b <;> simp [Token.same]
  | .heading _ _ _ ts, b => by cases b <;> simp [Token.same, Token.sameList_iff ts, and_assoc]
  | .code .., b => by cases b <;> simp [Token.same, and_assoc]
  | .table _ _ h rs, b => by
      cases b <;> simp [Token.same, Cell.sameList_iff h, Cell.sameRows_iff rs, and_assoc]
  | .blockquote _ _ ts, b => by cases b <;> simp [Token.same, Token.sameList_iff ts, and_assoc]
  | .list _ _ _ _ is, b => by cases b <;> simp [Token.same, Item.sameList_iff is, and_assoc]
  | .listItem i, b => by cases b <;> simp [Token.same, Item.same_iff i]
  | .html .., b => by cases b <;> simp [Token.same, and_assoc]
  | .paragraph _ _ ts, b => by cases b <;> simp [Token.same, Token.sameList_iff ts, and_assoc]
  | .text _ _ none _, b => by
      rcases b with _ | _ | _ | _ | _ | _ | _ | _ | _ | _ | ⟨_, _, _ | _, _⟩ <;>
        simp [Token.same, and_assoc]
  | .text _ _ (some ts) _, b => by
      rcases b with _ | _ | _ | _ | _ | _ | _ | _ | _ | _ | ⟨_, _, _ | _, _⟩ <;>
        simp [Token.same, Token.sameList_iff ts, and_assoc]
  | .escape .., b => by cases b <;> simp [Token.same]
  | .link _ _ _ _ ts, b => by cases b <;> simp [Token.same, Token.sameList_iff ts, and_assoc]
  | .image .., b => by cases b <;> simp [Token.same, and_assoc]
  | .strong _ _ ts, b => by cases b <;> simp [Token.same, Token.sameList_iff ts, and_assoc]
  | .em _ _ ts, b => by cases b <;> simp [Token.same, Token.sameList_iff ts, and_assoc]
  | .codespan .., b => by cases b <;> simp [Token.same]
  | .br _, b => by cases b <;> simp [Token.same]
  | .del _ _ ts, b => by cases b <;> simp [Token.same, Token.sameList_iff ts, and_assoc]
  | .custom _ _ _ ts, b => by cases b <;> simp [Token.same, Token.sameList_iff ts, and_assoc]

theorem Token.sameList_iff : (as bs : List Token) → (Token.sameList as bs = true ↔ as = bs)
  | [], bs => by cases bs <;> simp [Token.sameList]
  | a :: as, bs => by cases bs <;> simp [Token.sameList, Token.same_iff a, Token.sameList_iff as]

theorem Item.same_iff : (a b : Item Token) → (Item.same a b = true ↔ a = b)
  | ⟨_, _, _, _, _, ts⟩, b => by cases b; simp [Item.same, Token.sameList_iff ts, and_assoc]

theorem Item.sameList_iff : (as bs : List (Item Token)) → (Item.sameList as bs = true ↔ as = bs)
  | [], bs => by cases bs <;> simp [Item.sameList]
  | a :: as, bs => by cases bs <;> simp [Item.sameList, Item.same_iff a, Item.sameList_iff as]

theorem Cell.same_iff : (a b : Cell Token) → (Cell.same a b = true ↔ a = b)
  | ⟨_, ts, _, _⟩, b => by cases b; simp [Cell.same, Token.sameList_iff ts, and_assoc]

theorem Cell.sameList_iff : (as bs : List (Cell Token)) → (Cell.sameList as bs = true ↔ as = bs)
  | [], bs => by cases bs <;> simp [Cell.sameList]
  | a :: as, bs => by cases bs <;> simp [Cell.sameList, Cell.same_iff a, Cell.sameList_iff as]

theorem Cell.sameRows_iff :
    (as bs : List (List (Cell Token))) → (Cell.sameRows as bs = true ↔ as = bs)
  | [], bs => by cases bs <;> simp [Cell.sameRows]
  | a :: as, bs => by cases bs <;> simp [Cell.sameRows, Cell.sameList_iff a, Cell.sameRows_iff as]

end

instance : DecidableEq Token := fun a b => decidable_of_iff _ (Token.same_iff a b)

end MarkdownNodes
