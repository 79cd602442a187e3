import MarkdownNodes.Proofs.Render.Agreement
import MarkdownNodes.Proofs.Render.Strictness
import MarkdownNodes.Proofs.Token.Fields

/-! How far a set of rules reaches. The primary rule for text governs text at every depth, since all that the
built-in rules render of a token's parts they render by the primary rules. A set of rules that is asked for
covers one list of tokens and none of their parts. Either is the same as to rewrite the tokens. -/

namespace MarkdownNodes

namespace Token

def isText : Token → Bool
  | .text .. => true
  | _ => false

/-- Text in brackets and without its parts, for a text token; other tokens stay as they are. -/
def bracketed : Token → Token
  | .text raw s _ escaped => .text raw ("[" ++ s ++ "]") none escaped
  | t => t

/-- The token with text at every depth in brackets. -/
def bracketAll : Token → Token := rewrite bracketed

/-- What an inline token has in its field for text as a text token, for the token; other tokens stay as they
are. -/
def plain (t : Token) : Token := if Place.inline.admits t then .text t.raw t.textField none false else t

/-- An inline token's own text is what it has in its field for text; a break has no such field. -/
theorem ownText_eq_textField {t : Token} (h : Place.inline.admits t = true) : t.ownText = t.textField := by
  cases t <;> first | rfl | cases h

@[simp] theorem bracketAll_text (raw s : String) (ts : Option (List Token)) (escaped : Bool) :
    bracketAll (.text raw s ts escaped) = .text raw ("[" ++ s ++ "]") none escaped := by
  rw [bracketAll, rewrite_eq, mapInner, bracketed]

theorem bracketed_of_isText_eq_false {t : Token} (h : t.isText = false) : t.bracketed = t := by
  cases t with
  | text raw s ts escaped => cases h
  | _ => rfl

theorem bracketAll_of_isText_eq_false {t : Token} (h : t.isText = false) : t.bracketAll = t.mapInner bracketAll := by
  have hinner : (t.mapInner bracketAll).isText = false := by
    cases t with
    | text raw s ts escaped => cases h
    | _ => rfl
  rw [bracketAll, rewrite_eq]
  exact bracketed_of_isText_eq_false hinner

/-- A misfit among inline tokens is left where it is. -/
theorem misfits_plain (t : Token) :
    t.plain.misfits .inline = if Place.inline.admits t then [] else [⟨.inline, t⟩] := by
  by_cases h : Place.inline.admits t = true
  · rw [plain, if_pos h, if_pos h, misfits_eq]
    rfl
  · rw [plain, if_neg h, if_neg h, misfits_eq, if_neg h]

theorem misfitsOf_map_plain (ts : List Token) :
    misfitsOf .inline (ts.map plain) = (ts.filter fun t => !Place.inline.admits t).map (Misfit.mk .inline) := by
  induction ts with
  | nil => rfl
  | cons t ts ih =>
      rw [List.map_cons, misfitsOf_cons, misfits_plain, ih]
      by_cases h : Place.inline.admits t = true <;> simp [h]

end Token

namespace Renderer

/-- The renderer without extensions whose primary rule puts text in brackets, at every depth. -/
def bracketing (policy : Policy) (silent : Bool) : Renderer := { policy, silent, text := .bracketed }

/-- The rules do not look at the tokens one level down. -/
theorem recipe_mapInner (r : Renderer) (level : Level) (f : Token → Token) (t : Token) :
    r.recipe level (t.mapInner f) = r.recipe level t := by
  rcases level with top | _ | _ | _ <;> rcases t with _ | _ | _ | _ | _ | _ | _ | _ | _ | _ | ⟨_, _, _ | _, _⟩ <;> rfl

section Bracketing

variable (policy : Policy) (silent : Bool)

theorem recipe_bracketing {t : Token} (h : t.isText = false) (place : Place) (top : Bool) :
    (bracketing policy silent).recipe (place.level top) t = (ofPolicy policy silent).recipe (place.level top) t := by
  cases t with
  | text raw s ts escaped => cases h
  | _ => cases place <;> rfl

theorem step_bracketing (level : Level) (t : Token) (parts : Parts) :
    (bracketing policy silent).step level t parts = (bracketing policy silent).builtIn level t parts := rfl

theorem unknown_bracketing (mode : Mode) (kind : String) :
    (bracketing policy silent).unknown mode kind = (ofPolicy policy silent).unknown mode kind := rfl

theorem within_of_primary {t : Token} {part : Part} (h : Primary t part) :
    part.Within fun level => ∃ place : Place, ∃ top, level = place.level top := by
  cases part with
  | children level =>
      obtain ⟨top, hlevel⟩ := h
      exact ⟨t.innerPlace, top, hlevel⟩
  | _ => trivial

theorem renderToken_bracketing (t : Token) : ∀ (place : Place) (top : Bool),
    Run.Agree (· = ·) ((bracketing policy silent).renderToken (place.level top) t)
      ((ofPolicy policy silent).renderToken (place.level top) t.bracketAll) := by
  induction t using Token.induct with
  | step t ih =>
      intro place top
      rw [renderToken_eq_step, renderToken_eq_step, step_bracketing, step_ofPolicy, builtIn_eq_run, builtIn_eq_run]
      cases htext : t.isText with
      | true =>
          -- Neither rule looks at what the text has been parsed into.
          cases t with
          | text raw s ts escaped =>
              rw [Token.bracketAll_text]
              cases place <;> exact .ofOk rfl
          | _ => cases htext
      | false =>
          rw [Token.bracketAll_of_isText_eq_false htext, recipe_mapInner, recipe_bracketing policy silent htext,
            Token.kind_mapInner, recipe_eq_recipeIn, unknown_bracketing]
          have hunknown : Run.Agree (fun n n' : Node => [n] = [n'])
              ((ofPolicy policy silent).unknown (place.level top).mode t.kind)
              ((ofPolicy policy silent).unknown (place.level top).mode t.kind) := .refl (by simp) _
          refine (Recipe.Alike.eq _).run_agree hunknown fun part hpart => ?_
          -- Whatever part is rendered, the rules for it are the primary ones again.
          refine parts_agree (fun top => ⟨.block, top, rfl⟩) ⟨.inline, true, rfl⟩ (Carries.eq policy) ?_
            (within_of_primary (primary_of_mem_parts hpart))
          rintro u hu level ⟨place', top', rfl⟩
          exact ih u hu place' top'

end Bracketing

/-- To render with a primary rule that puts text in brackets is to put the text at every depth in brackets and
to render with the usual one, among blocks with either flag and among inline tokens. -/
theorem bracketing_governs_every_depth (policy : Policy) (silent top : Bool) (place : Place) (ts : List Token) :
    (bracketing policy silent).renderTokens (place.level top) ts =
      (ofPolicy policy silent).renderTokens (place.level top) (ts.map Token.bracketAll) := by
  have h : Run.Agree (· = ·) ((bracketing policy silent).renderTokens (place.level top) ts)
      ((ofPolicy policy silent).renderTokens (place.level top) (ts.map Token.bracketAll)) :=
    renderTokens_agree (Carries.eq policy) fun t _ => renderToken_bracketing policy silent t place top
  exact h.eq

example : (bracketing {} false).renderTokens (.inline .primary)
      [.strong "" "" [.text "" "a" none false], .text "" "b" none false] =
    .ok [Node.ofStrong [Node.span "[a]"], Node.span "[b]"] := rfl

/-! ### Sets of rules that are asked for -/

section Explicit

variable (policy : Policy) (silent : Bool)

theorem renderToken_bracketed (t : Token) :
    (ofPolicy policy silent).renderToken (.inline .bracketed) t =
      (ofPolicy policy silent).renderToken (.inline .primary) t.bracketed := by
  rw [renderToken_eq_step, renderToken_eq_step, step_ofPolicy, step_ofPolicy, builtIn_eq_run, builtIn_eq_run]
  cases t <;> rfl

theorem renderToken_plain (t : Token) :
    (ofPolicy policy silent).renderToken (.inline .plain) t =
      (ofPolicy policy silent).renderToken (.inline .primary) t.plain := by
  rw [renderToken_eq_step, renderToken_eq_step, step_ofPolicy, step_ofPolicy, builtIn_eq_run, builtIn_eq_run]
  cases t <;> rfl

theorem renderTokens_eq_of_renderToken_eq {r : Renderer} {style : InlineStyle} {f : Token → Token}
    (h : ∀ t, r.renderToken (.inline style) t = r.renderToken (.inline .primary) (f t)) (ts : List Token) :
    r.renderTokens (.inline style) ts = r.renderInline (ts.map f) := by
  have hagree : Run.Agree (· = ·) (r.renderTokens (.inline style) ts) (r.renderTokens (.inline .primary) (ts.map f)) :=
    renderTokens_agree (Carries.eq r.policy) fun t _ => by
      rw [h t]
      exact .refl (fun ns => rfl) _
  exact hagree.eq

/-- A run that settles fails at its first misfit, unless the renderer is silent. -/
theorem settle_eq_error_iff {α : Type} {misfits : List Misfit} {a : α} {e : RenderError} :
    (settle silent misfits a).outcome = .error e ↔
      silent = false ∧ ∃ m, misfits.head? = some m ∧ e = .unknownToken m.token.kind := by
  cases silent with
  | true => simp [settle]
  | false => simp [settle_false_eq_error_iff]

/-- The first of the tokens that may not stand among inline tokens. -/
def firstMisfit? (ts : List Token) : Option Token := ts.find? fun t => !Place.inline.admits t

theorem head?_misfitsOf_map_plain (ts : List Token) :
    (Token.misfitsOf .inline (ts.map Token.plain)).head? = (firstMisfit? ts).map (Misfit.mk .inline) := by
  rw [Token.misfitsOf_map_plain, List.head?_map, List.head?_filter, firstMisfit?]

/-- To keep only the text of tokens fails at the first that may not stand among inline tokens, whatever the
tokens hold. -/
theorem renderTokens_plain_eq_settle (ts : List Token) :
    (ofPolicy policy silent).renderTokens (.inline .plain) ts =
      settle silent (Token.misfitsOf .inline (ts.map Token.plain)) (drawOf policy .inline (ts.map Token.plain)) := by
  rw [renderTokens_eq_of_renderToken_eq (renderToken_plain policy silent)]
  exact renderTokens_eq_settle policy .inline silent true _

end Explicit

/-- A set of rules that is asked for covers one list of tokens, and comes to the same as rewriting these and no
others. With the rules that keep only text, rendering and the bare text fail at the first of them that is no
inline token, and never on account of what they hold. -/
theorem explicit_style_covers_one_list (policy : Policy) (silent : Bool) (ts : List Token) :
    (ofPolicy policy silent).renderTokens (.inline .bracketed) ts =
      (ofPolicy policy silent).renderInline (ts.map Token.bracketed) ∧
    (ofPolicy policy silent).renderTokens (.inline .plain) ts =
      (ofPolicy policy silent).renderInline (ts.map Token.plain) ∧
    (∀ e, ((ofPolicy policy silent).renderTokens (.inline .plain) ts).outcome = .error e ↔
      silent = false ∧ ∃ t, firstMisfit? ts = some t ∧ e = .unknownToken t.kind) ∧
    (∀ e, ((ofPolicy policy silent).bareText ts).outcome = .error e ↔
      silent = false ∧ ∃ t, firstMisfit? ts = some t ∧ e = .unknownToken t.kind) := by
  refine ⟨renderTokens_eq_of_renderToken_eq (renderToken_bracketed policy silent) ts,
    renderTokens_eq_of_renderToken_eq (renderToken_plain policy silent) ts, fun e => ?rendered, fun e => ?text⟩
  case rendered =>
    rw [renderTokens_plain_eq_settle, settle_eq_error_iff, head?_misfitsOf_map_plain]
    simp
  case text =>
    rw [bareText, renderTokens_plain_eq_settle, Run.map_eq, settle_andThen_ok, settle_eq_error_iff,
      head?_misfitsOf_map_plain]
    simp

example : (ofPolicy {} false).renderTokens (.inline .bracketed)
      [.strong "" "" [.text "" "a" none false], .text "" "b" none false] =
    .ok [Node.ofStrong [Node.span "a"], Node.span "[b]"] := rfl

end Renderer
end MarkdownNodes
