import MarkdownNodes.Proofs.Render.Drawing
import MarkdownNodes.Proofs.Render.Offer
import Mathlib.Data.List.Flatten

/-! The way of a rendering through a forest. The tokens that are met in turn, and the failures that are
met on the way, are told by the rules alone: no token is met twice, and a rendering makes the calls of
the tokens that it meets, up to the first failure, and ends in the error of that. -/

namespace MarkdownNodes

/-- The tokens of a part, in order, each with the level at which it is rendered. -/
def Part.levelled (t : Token) : Part → List (Level × Token)
  | .children level => t.children.map fun u => (level, u)
  | .items => t.items.flatMap fun item => item.tokens.map fun u => (.block item.loose, u)
  | .header => t.header.flatMap fun cell => cell.tokens.map fun u => (.inline .primary, u)
  | .rows => t.rows.flatten.flatMap fun cell => cell.tokens.map fun u => (.inline .primary, u)

theorem Part.map_snd_levelled (t : Token) (part : Part) : (part.levelled t).map Prod.snd = part.tokens t := by
  cases part <;> simp [levelled, tokens, List.map_flatMap, Function.comp_def]

namespace Renderer

/-- The parts of a token that are rendered. -/
def partsOf (r : Renderer) (level : Level) (t : Token) : List Part :=
  (r.handling level.mode t).parts (r.recipe level t)

/-- The tokens one level down that are rendered on behalf of a token, in order. -/
def next (r : Renderer) (level : Level) (t : Token) : List (Level × Token) :=
  (r.partsOf level t).flatMap (Part.levelled t)

theorem children_sublist_inner (t : Token) : t.children.Sublist t.inner := by
  rw [Token.inner, List.append_assoc]
  exact List.sublist_append_left _ _

theorem textRecipe_sublist_inner (rule : TextRule) (s : String) (parsed : Bool) (t : Token) :
    ((textRecipe rule s parsed).parts.flatMap (Part.tokens t)).Sublist t.inner := by
  cases rule <;> cases parsed <;> simp [Part.tokens, children_sublist_inner]

/-- A built-in rule renders each part of its token once, and in order. -/
theorem recipe_sublist_inner (r : Renderer) (level : Level) (t : Token) :
    ((r.recipe level t).parts.flatMap (Part.tokens t)).Sublist t.inner := by
  cases t with
  | text raw s tokens escaped =>
      rcases level with top | _ | _ | _
      case block => exact textRecipe_sublist_inner r.text s tokens.isSome _
      case inline.primary => exact textRecipe_sublist_inner r.text s tokens.isSome _
      case inline.bracketed => exact textRecipe_sublist_inner .bracketed s tokens.isSome _
      case inline.plain => simp [recipe, plainRecipe]
  | _ =>
      rcases level with top | _ | _ | _ <;>
        simp [recipe, plainRecipe, Part.tokens, Token.inner, Token.children, Token.items, Token.header, Token.rows]

/-- The tokens that are rendered on behalf of a token are among those one level down, in order. -/
theorem map_snd_next_sublist (r : Renderer) (level : Level) (t : Token) :
    ((r.next level t).map Prod.snd).Sublist t.inner := by
  have htokens : (r.next level t).map Prod.snd = (r.partsOf level t).flatMap (Part.tokens t) := by
    simp only [next, List.map_flatMap, Part.map_snd_levelled]
  rw [htokens, partsOf]
  cases r.handling level.mode t with
  | builtIn => exact recipe_sublist_inner r level t
  | fails reason => exact List.nil_sublist _
  | gives nodes => exact List.nil_sublist _
  | around level' nodes => simpa [Handling.parts, Part.tokens] using children_sublist_inner t

theorem mem_inner_of_mem_next {r : Renderer} {level : Level} {t : Token} {s : Level × Token}
    (h : s ∈ r.next level t) : s.2 ∈ t.inner :=
  (r.map_snd_next_sublist level t).subset (List.mem_map_of_mem h)

/-! ### The tokens that are met -/

/-- The tokens that are met from a token on, in turn, each with the level at which it is rendered: the token
itself, and what is rendered on its behalf. -/
def visits (r : Renderer) (level : Level) (t : Token) : List (Level × Token) :=
  (level, t) :: (r.next level t).attach.flatMap fun s => visits r s.val.1 s.val.2
termination_by t
decreasing_by exact Token.sizeOf_lt_of_mem_inner (mem_inner_of_mem_next s.property)

/-- The tokens that are met in a forest. -/
def visitsOf (r : Renderer) (level : Level) (ts : List Token) : List (Level × Token) := ts.flatMap (r.visits level)

theorem visits_eq (r : Renderer) (level : Level) (t : Token) :
    r.visits level t = (level, t) :: (r.next level t).flatMap fun s => r.visits s.1 s.2 := by
  rw [visits, Token.flatMap_attach _ fun s : Level × Token => r.visits s.1 s.2]

/-- No token is met twice: those that are met are among the tokens at every depth, in document order. -/
theorem map_snd_visits_sublist (r : Renderer) (level : Level) (t : Token) :
    ((r.visits level t).map Prod.snd).Sublist t.all := by
  induction t using Token.induct generalizing level with
  | step t ih =>
      have hbelow : ((r.next level t).flatMap fun s => (r.visits s.1 s.2).map Prod.snd).Sublist
          ((r.next level t).flatMap fun s => s.2.all) :=
        List.Sublist.flatMap_right _ fun s hs => ih s.2 (mem_inner_of_mem_next hs) s.1
      have hinner := (r.map_snd_next_sublist level t).flatMap Token.all
      rw [List.flatMap_map] at hinner
      rw [visits_eq, Token.all_eq, List.map_cons, List.map_flatMap]
      exact (hbelow.trans hinner).cons_cons t

theorem map_snd_visitsOf_sublist (r : Renderer) (level : Level) (ts : List Token) :
    ((r.visitsOf level ts).map Prod.snd).Sublist (Token.allOf ts) := by
  rw [visitsOf, Token.allOf, List.map_flatMap]
  exact List.Sublist.flatMap_right ts fun t _ => r.map_snd_visits_sublist level t

/-! ### Failures -/

/-- A failure on the way: the token that is at fault and the level at which it is met, its error, and
the tokens around it, outermost first, each with the level at which it is met. -/
structure Failure where
  around : List (Level × Token)
  level : Level
  token : Token
  base : RenderError

/-- The same failure, met in what a token holds. -/
def Failure.inside (level : Level) (t : Token) (f : Failure) : Failure := { f with around := (level, t) :: f.around }

/-- What a token raises by itself: the reason of a rule that fails, or that there is no rule for it. -/
def fault? (r : Renderer) (level : Level) (t : Token) : Option RenderError :=
  match r.handling level.mode t, r.recipe level t with
  | .fails reason, _ => some (.extension t.kind reason)
  | .builtIn, .unknown => if r.silent then none else some (.unknownToken t.kind)
  | _, _ => none

/-- The failures that are met from a token on, in turn. Only the first of them comes to pass. -/
def failures (r : Renderer) (level : Level) (t : Token) : List Failure :=
  ((r.fault? level t).map (Failure.mk [] level t)).toList ++
    (r.next level t).attach.flatMap fun s =>
      (failures r s.val.1 s.val.2).map (Failure.inside level t)
termination_by t
decreasing_by exact Token.sizeOf_lt_of_mem_inner (mem_inner_of_mem_next s.property)

/-- The failures that are met in a forest. -/
def failuresOf (r : Renderer) (level : Level) (ts : List Token) : List Failure := ts.flatMap (r.failures level)

theorem failures_eq (r : Renderer) (level : Level) (t : Token) :
    r.failures level t = ((r.fault? level t).map (Failure.mk [] level t)).toList ++
      (r.next level t).flatMap fun s => (r.failures s.1 s.2).map (Failure.inside level t) := by
  rw [failures, Token.flatMap_attach _ fun s : Level × Token => (r.failures s.1 s.2).map (Failure.inside level t)]

/-- The kinds of the tokens around a failure that were in the hands of a rule that renders the children,
outermost first. -/
def Failure.kinds (r : Renderer) (f : Failure) : List String :=
  (f.around.filter fun s => r.recurses s.1.mode s.2).map fun s => s.2.kind

end Renderer

/-- An error that has passed out through extensions for tokens of the given kinds, outermost first. Each of
them takes the message of what it gets for the reason of its own failure. -/
def RenderError.through (e : RenderError) : List String → RenderError
  | [] => e
  | kind :: kinds => .extension kind (e.through kinds).message

namespace Renderer

/-- The error in which a failure ends the rendering. -/
def Failure.error (r : Renderer) (f : Failure) : RenderError := f.base.through (f.kinds r)

end Renderer
end MarkdownNodes
