import MarkdownNodes.Proofs.Render.Overrides

/-! Extensions that are put together step by step. A step adds one rule or merges other extensions; all that
the steps come to is their rules, one after the other. A kind is listed where its first rule came, and has its
last. Merging is associative, with no extensions as its unit, and to merge extensions into themselves changes
nothing. -/

namespace MarkdownNodes

/-- A step in putting extensions together. -/
inductive Registration where
  | add (kind : String) (rule : Rule)
  | merge (other : Extensions)

namespace Registration

/-- The rules that a step registers, one after the other: of other extensions all, in their own order. -/
def rules : Registration → Entries Rule
  | .add kind rule => [(kind, rule)]
  | .merge other => other.rules

def apply (extensions : Extensions) : Registration → Extensions
  | .add kind rule => extensions.add kind rule
  | .merge other => extensions.merge other

/-- The rules that the steps register, one after the other. -/
def rulesOf (steps : List Registration) : Entries Rule := steps.flatMap rules

end Registration

namespace Extensions

/-- The extensions that the steps come to, from none on. -/
def after (steps : List Registration) : Extensions := steps.foldl Registration.apply {}

variable {a b c : Extensions}

theorem eq_of_rules_eq (h : a.rules = b.rules) : a = b := by
  cases a
  cases b
  exact congrArg mk h

/-! ### Steps are their rules -/

theorem apply_eq_addAll (extensions : Extensions) (step : Registration) :
    step.apply extensions = extensions.addAll step.rules := by
  cases step <;> rfl

theorem foldl_apply (extensions : Extensions) (steps : List Registration) :
    steps.foldl Registration.apply extensions = extensions.addAll (Registration.rulesOf steps) := by
  induction steps generalizing extensions with
  | nil => rfl
  | cons step steps ih =>
      have hrules : Registration.rulesOf (step :: steps) = step.rules ++ Registration.rulesOf steps := List.flatMap_cons
      rw [List.foldl_cons, ih, apply_eq_addAll, hrules]
      exact List.foldl_append.symm

/-- The steps come to the same as their rules, added one after the other. -/
theorem after_eq_ofList (steps : List Registration) : after steps = ofList (Registration.rulesOf steps) :=
  foldl_apply {} steps

/-! ### Kinds -/

theorem nodup_kinds_addAll (ha : a.kinds.Nodup) (rules : Entries Rule) : (a.addAll rules).kinds.Nodup := by
  rw [kinds, rules_addAll]
  exact Entries.nodup_names_setAll ha rules

theorem nodup_kinds_merge (ha : a.kinds.Nodup) : (a.merge b).kinds.Nodup := nodup_kinds_addAll ha b.rules

/-- No step gives a kind a second rule. -/
theorem nodup_kinds_after (steps : List Registration) : (after steps).kinds.Nodup := by
  have hnone : ({} : Extensions).kinds.Nodup := List.nodup_nil
  rw [after_eq_ofList, ofList]
  exact nodup_kinds_addAll hnone _

theorem kinds_ofList (rules : Entries Rule) : (ofList rules).kinds = rules.names.eraseDups := by
  rw [ofList, kinds, rules_addAll, Entries.names_setAll]
  simp [Entries.names, List.removeAll]

/-- Behind the kinds that are there come the new ones of the others. -/
theorem kinds_merge (hb : b.kinds.Nodup) : (a.merge b).kinds = a.kinds ++ b.kinds.removeAll a.kinds := by
  rw [merge, kinds, rules_addAll, Entries.names_setAll]
  exact congrArg (a.kinds ++ ·) (eraseDups_of_nodup (hb.filter _))

/-! ### Rules -/

theorem rule?_reverse (hb : b.kinds.Nodup) (kind : String) : Entries.get? b.rules.reverse kind = b.rule? kind :=
  (Entries.get?_eq_of_perm hb (List.reverse_perm b.rules).symm kind).symm

/-- What the others have a rule for, they decide. -/
theorem rule?_merge (hb : b.kinds.Nodup) (kind : String) :
    (a.merge b).rule? kind = (b.rule? kind).or (a.rule? kind) := by
  rw [merge, rule?_addAll, rule?_reverse hb]

/-- Extensions with one rule for each kind are the same if they list the same kinds and have the same rules. -/
theorem eq_of_rule?_eq (ha : a.kinds.Nodup) (hkinds : a.kinds = b.kinds) (hrule : ∀ kind, a.rule? kind = b.rule? kind) :
    a = b :=
  eq_of_rules_eq (Entries.eq_of_get?_eq ha hkinds hrule)

theorem merge_assoc (ha : a.kinds.Nodup) (hb : b.kinds.Nodup) (hc : c.kinds.Nodup) :
    (a.merge b).merge c = a.merge (b.merge c) := by
  have hbc : (b.merge c).kinds.Nodup := nodup_kinds_merge hb
  refine eq_of_rule?_eq (nodup_kinds_merge (nodup_kinds_merge ha)) ?kinds fun kind => ?rule
  case kinds =>
    rw [kinds_merge hc, kinds_merge hb, kinds_merge hbc, kinds_merge hc]
    simp only [List.removeAll, List.filter_append, List.append_assoc, List.filter_filter]
    congr 2
    refine List.filter_congr fun kind hkind => ?_
    by_cases hmem : kind ∈ a.kinds <;> simp [hmem]
  case rule => rw [rule?_merge hc, rule?_merge hb, rule?_merge hbc, rule?_merge hc, Option.or_assoc]

theorem merge_self (ha : a.kinds.Nodup) : a.merge a = a := by
  refine eq_of_rule?_eq (nodup_kinds_merge ha) ?kinds fun kind => ?rule
  case kinds => simp [kinds_merge ha, List.removeAll]
  case rule => rw [rule?_merge ha, Option.or_self]

theorem merge_none (a : Extensions) : a.merge {} = a := rfl

theorem none_merge (ha : a.kinds.Nodup) : merge {} a = a := by
  refine eq_of_rule?_eq (nodup_kinds_merge List.nodup_nil) ?kinds fun kind => ?rule
  case kinds =>
    rw [kinds_merge ha]
    simp [kinds, Entries.names, List.removeAll]
  case rule => rw [rule?_merge ha, show rule? {} kind = none from rfl, Option.or_none]

/-! ### All laws -/

/-- Extensions come to rules that are registered one after the other: of several for one kind the first gives the
place, and the last is the rule. -/
structure ComeTo (extensions : Extensions) (rules : Entries Rule) : Prop where
  /-- A kind is listed once. -/
  nodup : extensions.kinds.Nodup
  /-- The kinds are listed in the order of their first rules. -/
  kinds : extensions.kinds = rules.names.eraseDups
  /-- There are as many entries as there are different kinds. -/
  size : extensions.rules.length = rules.names.eraseDups.length
  /-- The last rule for a kind is the one that is found. -/
  last (kind : String) :
    extensions.rule? kind = ((rules.filter fun entry => entry.1 == kind).getLast?).map Prod.snd

theorem comeTo_rulesOf (steps : List Registration) : (after steps).ComeTo (Registration.rulesOf steps) where
  nodup := nodup_kinds_after steps
  kinds := by rw [after_eq_ofList, kinds_ofList]
  size := by
    rw [← kinds_ofList, ← after_eq_ofList]
    exact (List.length_map _).symm
  last kind := by
    rw [after_eq_ofList, ofList, rule?_addAll, Entries.get?_reverse]
    exact Option.or_none

end Extensions

namespace Renderer

open Extensions

/-- Extensions that are put together step by step come to the rules of the steps, one after the other. So merging is
associative, with no extensions as its unit; to merge extensions into themselves changes nothing; and a renderer does
the same with them as with the extensions to which those rules are added one by one. -/
theorem registering_step_by_step :
    (∀ steps, (after steps).ComeTo (Registration.rulesOf steps)) ∧
    (∀ steps others more, ((after steps).merge (after others)).merge (after more) =
      (after steps).merge ((after others).merge (after more))) ∧
    (∀ steps, (after steps).merge (after steps) = after steps) ∧
    (∀ steps, (after steps).merge {} = after steps ∧ merge {} (after steps) = after steps) ∧
    (∀ (r : Renderer) steps ts,
      (∀ level, (r.withExtensions (after steps)).renderTokens level ts =
        (r.withExtensions (.ofList (Registration.rulesOf steps))).renderTokens level ts) ∧
      (r.withExtensions (after steps)).bareText ts =
        (r.withExtensions (.ofList (Registration.rulesOf steps))).bareText ts) := by
  refine ⟨comeTo_rulesOf, fun steps others more => ?assoc, fun steps => merge_self (nodup_kinds_after steps),
    fun steps => ⟨merge_none _, none_merge (nodup_kinds_after steps)⟩, fun r steps ts => ?rendered⟩
  case assoc => exact merge_assoc (nodup_kinds_after steps) (nodup_kinds_after others) (nodup_kinds_after more)
  case rendered =>
    rw [after_eq_ofList]
    exact ⟨fun level => rfl, rfl⟩

/-- A rule that is replaced by a merge keeps its place. -/
example : (after [.add "a" { action := .suppress }, .add "b" { action := .defer },
    .merge (after [.add "c" { action := .mode }, .add "a" { action := .silent }])]).rules =
    [("a", { action := .silent }), ("b", { action := .defer }), ("c", { action := .mode })] := rfl

end Renderer
end MarkdownNodes
