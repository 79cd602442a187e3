import MarkdownNodes.Proofs.Render.Drawing
import Mathlib.Data.List.Forall2

/-! Strict rendering without extensions. A run fails exactly if the forest has a misfit, and then with
the first one in document order; a run that succeeds makes one node of every token, blank lines among
blocks aside, which show nothing. -/

namespace MarkdownNodes

/-- Whether a token that may stand in a place shows there. Blank lines among blocks do not. -/
def Place.shows : Place → Token → Bool
  | .block, .space _ => false
  | _, _ => true

namespace Renderer

theorem settle_false_eq_error_iff {α : Type} {misfits : List Misfit} {a : α} {e : RenderError} :
    (settle false misfits a).outcome = .error e ↔
      ∃ m, misfits.head? = some m ∧ e = .unknownToken m.token.kind := by
  cases misfits with
  | nil => simp [settle, Run.ok]
  | cons m rest => simp [settle, Run.fail, eq_comm]

theorem draw_of_not_shows {policy : Policy} {place : Place} {t : Token} (h : place.shows t = false) :
    draw policy place t = [] := by
  rw [draw_eq]
  cases place with
  | inline => simp [Place.shows] at h
  | block =>
      cases t with
      | space raw => rfl
      | _ => simp [Place.shows] at h

theorem exists_draw_eq_of_shows (policy : Policy) {place : Place} {t : Token} (h : place.shows t = true) :
    ∃ n, draw policy place t = [n] := by
  rw [draw_eq]
  cases place with
  | block =>
      cases t with
      | space raw => simp [Place.shows] at h
      | text raw s tokens escaped => cases tokens <;> exact ⟨_, rfl⟩
      | _ => exact ⟨_, rfl⟩
  | inline =>
      cases t with
      | text raw s tokens escaped => cases tokens <;> exact ⟨_, rfl⟩
      | _ => exact ⟨_, rfl⟩

/-- The drawing has one node for each token that shows, in order. -/
theorem forall₂_drawOf (policy : Policy) (place : Place) (ts : List Token) :
    List.Forall₂ (fun t n => draw policy place t = [n]) (ts.filter place.shows) (drawOf policy place ts) := by
  induction ts with
  | nil => exact List.Forall₂.nil
  | cons t ts ih =>
      rw [drawOf, List.flatMap_cons]
      by_cases h : place.shows t = true
      · obtain ⟨n, hn⟩ := exists_draw_eq_of_shows policy h
        rw [List.filter_cons_of_pos h, hn]
        exact List.Forall₂.cons hn ih
      · rw [List.filter_cons_of_neg h, draw_of_not_shows (by simpa using h)]
        exact ih

/-- A strict run without extensions, among blocks with either flag or among inline tokens: it fails if
and only if there is a misfit, with the kind of the first; otherwise the tokens that show have one node
each, in order, the one that each has when rendered alone. -/
theorem strict_outcome (policy : Policy) (place : Place) (top : Bool) (ts : List Token) :
    ((∃ e, ((ofPolicy policy false).renderTokens (place.level top) ts).outcome = .error e) ↔
      Token.misfitsOf place ts ≠ []) ∧
    (∀ e, ((ofPolicy policy false).renderTokens (place.level top) ts).outcome = .error e →
      ∃ m, (Token.misfitsOf place ts).head? = some m ∧ e = .unknownToken m.token.kind) ∧
    (Token.misfitsOf place ts = [] →
      ∃ nodes, ((ofPolicy policy false).renderTokens (place.level top) ts).outcome = .ok nodes ∧
        List.Forall₂ (fun t n => ((ofPolicy policy false).renderToken (place.level top) t).outcome = .ok [n])
          (ts.filter place.shows) nodes) := by
  simp only [renderTokens_eq_settle]
  refine ⟨?fails, fun e he => settle_false_eq_error_iff.mp he, fun hnone => ?succeeds⟩
  case fails =>
    simp only [settle_false_eq_error_iff]
    cases hmisfits : Token.misfitsOf place ts <;> simp
  case succeeds =>
    rw [hnone, settle_nil]
    refine ⟨drawOf policy place ts, rfl, ?_⟩
    -- Without misfits in the forest there are none in its tokens, so each settles to its drawing.
    have hfit : ∀ t ∈ ts.filter place.shows, t.misfits place = [] := fun t ht =>
      List.flatMap_eq_nil_iff.mp hnone t (List.mem_of_mem_filter ht)
    refine ((List.forall₂_and_left _ _).mpr ⟨hfit, forall₂_drawOf policy place ts⟩).imp ?_
    rintro t n ⟨ht, hn⟩
    rw [settles policy t place false top, ht, hn, settle_nil]
    rfl

/-- Blank lines are the reason why tokens and nodes may differ in number: they are no misfit, and a strict
run shows nothing of them. -/
theorem blank_lines_among_blocks_show_nothing :
    Token.misfitsOf .block [.space "\n\n"] = [] ∧
      ¬ ∃ nodes, ((ofPolicy {} false).renderBlocks [.space "\n\n"]).outcome = .ok nodes ∧
        nodes.length = [Token.space "\n\n"].length := by
  constructor
  · simp [Token.misfits_eq, Place.admits, Token.inner, Token.children, Token.items, Token.header, Token.rows]
  · rintro ⟨nodes, hrun, hlength⟩
    cases hrun
    simp at hlength

end Renderer
end MarkdownNodes
