import MarkdownNodes.Proofs.Token.Descent

/-! Where tokens may stand. A token stands among blocks or among inline tokens, and its kind says in
which of the two places it may; one that may not is a misfit. What a misfit holds stands nowhere. -/

namespace MarkdownNodes

inductive Place where
  | block
  | inline
  deriving DecidableEq

/-- Whether a token may stand in a place. A custom token may stand in neither. -/
def Place.admits : Place → Token → Bool
  | _, .custom .. => false
  | .block, .escape .. | .block, .link .. | .block, .image .. | .block, .strong .. | .block, .em ..
  | .block, .codespan .. | .block, .br .. | .block, .del .. => false
  | .inline, .space .. | .inline, .hr .. | .inline, .heading .. | .inline, .code .. | .inline, .table ..
  | .inline, .blockquote .. | .inline, .list .. | .inline, .listItem .. | .inline, .paragraph .. => false
  | _, _ => true

/-- A token in a place that does not admit it. -/
structure Misfit where
  place : Place
  token : Token

namespace Token

/-- The place where the tokens one level down stand. -/
def innerPlace : Token → Place
  | .blockquote .. | .list .. | .listItem .. => .block
  | _ => .inline

/-- The misfits from a token down, in document order, when the token stands in a place. -/
def misfits (place : Place) (t : Token) : List Misfit :=
  if place.admits t then t.inner.attach.flatMap fun u => misfits t.innerPlace u.val else [⟨place, t⟩]
termination_by t
decreasing_by exact sizeOf_lt_of_mem_inner u.property

/-- The misfits of a forest that stands in a place. -/
def misfitsOf (place : Place) (ts : List Token) : List Misfit := ts.flatMap (misfits place)

@[simp] theorem misfitsOf_nil (place : Place) : misfitsOf place [] = [] := rfl

@[simp] theorem misfitsOf_cons (place : Place) (t : Token) (ts : List Token) :
    misfitsOf place (t :: ts) = t.misfits place ++ misfitsOf place ts := rfl

@[simp] theorem misfitsOf_append (place : Place) (ts us : List Token) :
    misfitsOf place (ts ++ us) = misfitsOf place ts ++ misfitsOf place us := List.flatMap_append

theorem misfits_eq (place : Place) (t : Token) :
    t.misfits place = if place.admits t then misfitsOf t.innerPlace t.inner else [⟨place, t⟩] := by
  rw [misfits, misfitsOf, flatMap_attach]

theorem misfits_of_admits {place : Place} {t : Token} (h : place.admits t = true) :
    t.misfits place = misfitsOf t.innerPlace t.inner := by
  rw [misfits_eq, if_pos h]

/-- The tokens that are reached from a token that stands in a place, each with its own place, in document
order. Neither a misfit nor anything in it is reached. -/
def reached (place : Place) (t : Token) : List (Place × Token) :=
  if place.admits t then (place, t) :: t.inner.attach.flatMap fun u => reached t.innerPlace u.val else []
termination_by t
decreasing_by exact sizeOf_lt_of_mem_inner u.property

/-- The tokens that are reached in a forest that stands in a place. -/
def reachedOf (place : Place) (ts : List Token) : List (Place × Token) := ts.flatMap (reached place)

theorem reached_eq (place : Place) (t : Token) :
    t.reached place = if place.admits t then (place, t) :: reachedOf t.innerPlace t.inner else [] := by
  rw [reached, reachedOf, flatMap_attach]

theorem admits_of_mem_reached {place : Place} {t : Token} {s : Place × Token} (h : s ∈ t.reached place) :
    s.1.admits s.2 = true := by
  induction t using induct generalizing place with
  | step t ih =>
      rw [reached_eq] at h
      split at h
      case isFalse => exact absurd h List.not_mem_nil
      case isTrue hadmits =>
        rcases List.mem_cons.mp h with rfl | hinner
        · exact hadmits
        · obtain ⟨u, hu, hs⟩ := List.mem_flatMap.mp hinner
          exact ih u hu hs

theorem admits_of_mem_reachedOf {place : Place} {ts : List Token} {s : Place × Token}
    (h : s ∈ reachedOf place ts) : s.1.admits s.2 = true := by
  obtain ⟨t, _, hs⟩ := List.mem_flatMap.mp h
  exact admits_of_mem_reached hs

/-- A token that is reached brings no misfits but those met on the whole way. -/
theorem misfits_subset_of_mem_reached {place : Place} {t : Token} {s : Place × Token}
    (h : s ∈ t.reached place) : s.2.misfits s.1 ⊆ t.misfits place := by
  induction t using induct generalizing place with
  | step t ih =>
      rw [reached_eq] at h
      split at h
      case isFalse => exact absurd h List.not_mem_nil
      case isTrue hadmits =>
        rcases List.mem_cons.mp h with rfl | hinner
        · exact List.Subset.refl _
        · obtain ⟨u, hu, hs⟩ := List.mem_flatMap.mp hinner
          rw [misfits_of_admits hadmits]
          exact fun m hm => List.mem_flatMap.mpr ⟨u, hu, ih u hu hs hm⟩

theorem misfits_subset_of_mem_reachedOf {place : Place} {ts : List Token} {s : Place × Token}
    (h : s ∈ reachedOf place ts) : s.2.misfits s.1 ⊆ misfitsOf place ts := by
  obtain ⟨t, ht, hs⟩ := List.mem_flatMap.mp h
  exact fun m hm => List.mem_flatMap.mpr ⟨t, ht, misfits_subset_of_mem_reached hs hm⟩

end MarkdownNodes.Token
