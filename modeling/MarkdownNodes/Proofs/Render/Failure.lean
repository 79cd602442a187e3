import MarkdownNodes.Proofs.Render.Progress

/-! The errors in which renderings end. An error comes of the first failure on the way. It passes out
unchanged through the tokens of the built-in rules, and each rule that renders the children of its token
puts its announcement before the message. -/

namespace MarkdownNodes

/-- What the message of an extension's failure begins with. -/
def RenderError.announcement (kind : String) : String := "Extension for \"" ++ kind ++ "\" tokens failed: "

theorem RenderError.message_through (e : RenderError) (kinds : List String) :
    (e.through kinds).message = kinds.foldr (fun kind message => announcement kind ++ message) e.message := by
  induction kinds with
  | nil => rfl
  | cons kind kinds ih => rw [List.foldr_cons, ← ih]; rfl

namespace Renderer

variable {r : Renderer}

/-! ### Where failures come about -/

/-- The way down from a token to another one that is rendered on its behalf, with the tokens in between,
the first among them. -/
inductive Leads (r : Renderer) : Level × Token → List (Level × Token) → Level × Token → Prop where
  | here (s : Level × Token) : Leads r s [] s
  | inside {s s' u : Level × Token} {around : List (Level × Token)} (h : s' ∈ r.next s.1 s.2)
      (hleads : Leads r s' around u) : Leads r s (s :: around) u

/-- What a token raises: it is unknown and no rule takes it, or the rule for its kind fails. -/
inductive Raises (r : Renderer) (level : Level) (t : Token) : RenderError → Prop where
  | unknown (hsilent : r.silent = false) (hrecipe : r.recipe level t = .unknown)
      (hdefer : ∀ rule, r.extensions.rule? t.kind = some rule → rule.appliesIn level.mode = true →
        rule.action = .defer) :
      Raises r level t (.unknownToken t.kind)
  | rule {rule : Rule} {reason : String} (hrule : r.extensions.rule? t.kind = some rule)
      (happlies : rule.appliesIn level.mode = true) (haction : rule.action = .error reason) :
      Raises r level t (.extension t.kind reason)

theorem Raises.ne_unknownToken {level : Level} {t : Token} {e : RenderError} (h : r.Raises level t e)
    (hsilent : r.silent = true) (kind : String) : e ≠ .unknownToken kind := by
  cases h with
  | unknown hstrict hrecipe hdefer => cases hsilent.symm.trans hstrict
  | rule hrule happlies haction => simp

/-- A failure comes about: its token is met on the way from a token of the forest, and raises its error. -/
structure Failure.Arises (r : Renderer) (level : Level) (ts : List Token) (f : Failure) : Prop where
  leads : ∃ t ∈ ts, r.Leads (level, t) f.around (f.level, f.token)
  raises : r.Raises f.level f.token f.base

theorem fault?_eq_some_iff {level : Level} {t : Token} {e : RenderError} :
    r.fault? level t = some e ↔ r.Raises level t e := by
  constructor
  · intro h
    unfold fault? at h
    split at h
    case h_1 reason hhandling =>
      obtain ⟨rule, hrule, happlies, haction⟩ := handling_eq_fails_iff.mp hhandling
      cases h
      exact .rule hrule happlies haction
    case h_2 hhandling hrecipe =>
      split at h
      case isTrue => cases h
      case isFalse hsilent =>
        cases h
        exact .unknown (Bool.eq_false_iff.mpr hsilent) hrecipe (handling_eq_builtIn_iff.mp hhandling)
    case h_3 => cases h
  · rintro (⟨hsilent, hrecipe, hdefer⟩ | ⟨hrule, happlies, haction⟩)
    · have hhandling : r.handling level.mode t = .builtIn := handling_eq_builtIn_iff.mpr hdefer
      simp [fault?, hhandling, hrecipe, hsilent]
    · rw [fault?, handling_eq_fails_iff.mpr ⟨_, hrule, happlies, haction⟩]

theorem arises_of_mem_failures {level : Level} {t : Token} {f : Failure} (h : f ∈ r.failures level t) :
    r.Leads (level, t) f.around (f.level, f.token) ∧ r.Raises f.level f.token f.base := by
  induction t using Token.induct generalizing level f with
  | step t ih =>
      rw [failures_eq, List.mem_append] at h
      rcases h with hown | hbelow
      · obtain ⟨e, hfault, rfl⟩ := Option.map_eq_some_iff.mp (Option.mem_toList.mp hown)
        exact ⟨.here _, fault?_eq_some_iff.mp hfault⟩
      · obtain ⟨s, hs, hf⟩ := List.mem_flatMap.mp hbelow
        obtain ⟨g, hg, rfl⟩ := List.mem_map.mp hf
        obtain ⟨hleads, hraises⟩ := ih s.2 (mem_inner_of_mem_next hs) hg
        exact ⟨.inside hs hleads, hraises⟩

theorem mem_failures_of_leads {s u : Level × Token} {around : List (Level × Token)} {base : RenderError}
    (hleads : r.Leads s around u) (hraises : r.Raises u.1 u.2 base) :
    ⟨around, u.1, u.2, base⟩ ∈ r.failures s.1 s.2 := by
  induction hleads with
  | here s =>
      rw [failures_eq, fault?_eq_some_iff.mpr hraises]
      exact List.mem_cons_self
  | inside hnext hleads ih =>
      rw [failures_eq]
      exact List.mem_append_right _ (List.mem_flatMap.mpr ⟨_, hnext, List.mem_map_of_mem (ih hraises)⟩)

/-- The failures that are met in a forest are those that come about in it. -/
theorem mem_failuresOf_iff {level : Level} {ts : List Token} {f : Failure} :
    f ∈ r.failuresOf level ts ↔ f.Arises r level ts := by
  constructor
  · intro h
    obtain ⟨t, ht, hf⟩ := List.mem_flatMap.mp h
    obtain ⟨hleads, hraises⟩ := arises_of_mem_failures hf
    exact ⟨⟨t, ht, hleads⟩, hraises⟩
  · rintro ⟨⟨t, ht, hleads⟩, hraises⟩
    exact List.mem_flatMap.mpr ⟨t, ht, mem_failures_of_leads hleads hraises⟩

/-! ### The error of a failure -/

/-- What is made of the error of a failure, on account of the kinds of the tokens around it that were in the
hands of a rule that renders the children. -/
structure Failure.EndsIn (r : Renderer) (f : Failure) (e : RenderError) : Prop where
  bare : f.kinds r = [] → e = f.base
  wrapped : ∀ kind kinds, f.kinds r = kind :: kinds → ∃ reason, e = .extension kind reason
  message : e.message = (f.kinds r).foldr (fun kind message => RenderError.announcement kind ++ message) f.base.message

theorem Failure.endsIn_error (r : Renderer) (f : Failure) : f.EndsIn r (f.error r) where
  bare h := by rw [Failure.error, h, RenderError.through]
  wrapped kind kinds h := by
    rw [Failure.error, h, RenderError.through]
    exact ⟨_, rfl⟩
  message := RenderError.message_through f.base (f.kinds r)

section Follows

variable {α : Type} {level : Level} {ts : List Token} {run : Run RenderError α}

/-- A rendering that fails ends in the error of the first failure. -/
theorem outcome_eq_error_iff (h : run.Follows (r.callsOf level ts) (r.raisedOf level ts)) (e : RenderError) :
    run.outcome = .error e ↔ ∃ f, (r.failuresOf level ts).head? = some f ∧ f.error r = e := by
  rw [h.error_iff, raisedOf_eq, List.head?_map, Option.map_eq_some_iff]

theorem exists_ok_of_failuresOf_eq_nil (h : run.Follows (r.callsOf level ts) (r.raisedOf level ts))
    (hfailures : r.failuresOf level ts = []) : ∃ a, run.outcome = .ok a := by
  cases ho : run.outcome with
  | ok a => exact ⟨a, rfl⟩
  | error e =>
      obtain ⟨f, hf, _⟩ := (outcome_eq_error_iff h e).mp ho
      rw [hfailures] at hf
      cases hf

end Follows

/-- No failure comes about where nothing is unknown and no rule fails. -/
theorem failuresOf_eq_nil (hsilent : r.silent = true)
    (h : ∀ kind rule, r.extensions.rule? kind = some rule → ∀ reason, rule.action ≠ .error reason)
    (level : Level) (ts : List Token) : r.failuresOf level ts = [] := by
  rw [List.eq_nil_iff_forall_not_mem]
  rintro ⟨around, inner, t, base⟩ hf
  have hraises : r.Raises inner t base := (mem_failuresOf_iff.mp hf).raises
  cases hraises with
  | unknown hstrict hrecipe hdefer => cases hsilent.symm.trans hstrict
  | rule hrule happlies haction => exact h t.kind _ hrule _ haction

/-- A rendering that fails ends in the error of its first failure: that of the token at fault, with the
announcements of the rules around it that render the children, the outermost first. A silent renderer has no
unknown tokens, and without a rule that fails it always succeeds. -/
theorem error_of_first_failure (r : Renderer) (ts : List Token) :
    (∀ level e, (r.renderTokens level ts).outcome = .error e ↔
      ∃ f, (r.failuresOf level ts).head? = some f ∧ f.error r = e) ∧
    (∀ e, (r.bareText ts).outcome = .error e ↔
      ∃ f, (r.failuresOf (.inline .plain) ts).head? = some f ∧ f.error r = e) ∧
    (∀ level f, f ∈ r.failuresOf level ts ↔ f.Arises r level ts) ∧
    (∀ f : Failure, f.EndsIn r (f.error r)) ∧
    (r.silent = true →
      (∀ level, ∀ f ∈ r.failuresOf level ts, ∀ kind, f.base ≠ .unknownToken kind) ∧
      ((∀ kind rule, r.extensions.rule? kind = some rule → ∀ reason, rule.action ≠ .error reason) →
        (∀ level, ∃ nodes, (r.renderTokens level ts).outcome = .ok nodes) ∧
          ∃ s, (r.bareText ts).outcome = .ok s)) := by
  have htokens := fun level => r.renderTokens_proceeds level ts
  have hplain := r.bareText_proceeds ts
  refine ⟨fun level => outcome_eq_error_iff (htokens level), outcome_eq_error_iff hplain,
    fun level f => mem_failuresOf_iff, Failure.endsIn_error r, ?silent⟩
  intro hsilent
  refine ⟨fun level f hf => (mem_failuresOf_iff.mp hf).raises.ne_unknownToken hsilent, fun hrules => ?_⟩
  have hnone := fun level => failuresOf_eq_nil hsilent hrules level ts
  exact ⟨fun level => exists_ok_of_failuresOf_eq_nil (htokens level) (hnone level),
    exists_ok_of_failuresOf_eq_nil hplain (hnone _)⟩

/-- A rule that fails in the hands of two that render the children, with a paragraph in between; and a silent
renderer that meets an unknown token in the hands of such a rule. -/
theorem error_of_first_failure_in_quote :
    (let r : Renderer :=
      { extensions := { rules :=
          [("blockquote", { action := .unwrapBlock }), ("em", { action := .wrapInline "i" }),
            ("br", { action := .error "no breaks" })] } }
    let ts : List Token := [.blockquote "" "" [.paragraph "" "" [.em "" "" [.br ""]]]]
    ∃ f, (r.failuresOf (.block true) ts).head? = some f ∧
      f.error r = .extension "blockquote"
        "Extension for \"em\" tokens failed: Extension for \"br\" tokens failed: no breaks" ∧
      f.Arises r (.block true) ts ∧ f.EndsIn r (f.error r)) ∧
    (let r : Renderer := { extensions := { rules := [("blockquote", { action := .unwrapBlock })] }, silent := true }
    ∃ nodes, (r.renderTokens (.block true) [.blockquote "" "" [.custom "note" "" "" []]]).outcome = .ok nodes) := by
  constructor
  · intro r ts
    have h := error_of_first_failure r ts
    obtain ⟨f, hf, herror⟩ := (h.1 (.block true) _).mp rfl
    have harises := (h.2.2.1 (.block true) f).mp (List.mem_of_mem_head? hf)
    exact ⟨f, hf, herror, harises, h.2.2.2.1 f⟩
  · intro r
    refine (((error_of_first_failure r _).2.2.2.2 rfl).2 fun kind rule hrule reason haction => ?_).1 (.block true)
    obtain ⟨rfl, rfl⟩ := Prod.mk.inj (List.mem_singleton.mp (Entries.mem_of_get? hrule))
    cases haction

end Renderer
end MarkdownNodes
