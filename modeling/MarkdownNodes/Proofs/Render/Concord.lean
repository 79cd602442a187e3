import MarkdownNodes.Proofs.Render.Lockstep

/-! Strict and silent rendering with extensions. Up to the first unknown token the two runs are the same.
There the strict run fails, while the silent run logs an error and goes on, so that the calls of the
strict run are the first calls of the silent run. A rule that fails of its own accord ends both. -/

namespace MarkdownNodes

/-- The call is of a rule that applies in the mode and fails of its own accord. -/
def Extensions.Raises (extensions : Extensions) (c : Call) : Prop :=
  ∃ rule reason, extensions.rule? c.token.kind = some rule ∧ rule.appliesIn c.mode = true ∧
    rule.action = .error reason

namespace Run

variable {ε ε' α β : Type}

def Fails (run : Run ε α) : Prop := ∃ e, run.outcome = .error e

def LogsError (run : Run ε α) : Prop := ∃ record ∈ run.logs, record.level = .error

/-- A call that raises is among the calls of the run. -/
def Raised (raises : Call → Prop) (run : Run ε α) : Prop := ∃ c ∈ run.calls, raises c

/-- How a strict run agrees with the silent run of the same tokens. -/
structure Concord (raises : Call → Prop) (strict silent : Run ε α) : Prop where
  ok_iff : ∀ a, strict.outcome = .ok a ↔ silent.outcome = .ok a ∧ ¬ silent.LogsError
  records_of_ok : ∀ a, strict.outcome = .ok a → strict.calls = silent.calls ∧ strict.logs = silent.logs
  prefix_of_fails : strict.Fails → strict.calls <+: silent.calls
  eq_of_raised : strict.Raised raises → strict.Fails ∧ strict = silent

/-- The course of a strict and a silent run: they stay together, or part at an unknown token. -/
inductive Course (raises : Call → Prop) : Run ε α → Run ε α → Prop where
  | together {run : Run ε α} (quiet : ¬ run.LogsError) (raised : run.Raised raises ↔ run.Fails) :
      Course raises run run
  | parted {strict silent : Run ε α} (fails : strict.Fails) (unraised : ¬ strict.Raised raises)
      (calls : strict.calls <+: silent.calls) (logged : silent.LogsError) : Course raises strict silent

@[simp] theorem not_fails_ok (a : α) : ¬ (ok a : Run ε α).Fails := by simp [Fails, ok]

@[simp] theorem not_logsError_ok (a : α) : ¬ (ok a : Run ε α).LogsError := by simp [LogsError, ok]

@[simp] theorem not_raised_ok (raises : Call → Prop) (a : α) : ¬ (ok a : Run ε α).Raised raises := by
  simp [Raised, ok]

theorem calls_prefix_andThen (run : Run ε α) (next : α → Run ε β) : run.calls <+: (run.andThen next).calls := by
  rcases h : run.outcome with e | a
  · simp [andThen_of_error h]
  · rw [andThen_of_ok h]
    exact List.prefix_append _ _

theorem LogsError.andThen {run : Run ε α} (h : run.LogsError) (next : α → Run ε β) :
    (run.andThen next).LogsError := by
  obtain ⟨record, hmem, hlevel⟩ := h
  refine ⟨record, ?_, hlevel⟩
  rcases ho : run.outcome with e | a
  · rwa [andThen_of_error ho]
  · rw [andThen_of_ok ho]
    exact List.mem_append_left _ hmem

namespace Course

variable {raises : Call → Prop}

theorem ofOk (a : α) : Course raises (Run.ok a : Run ε α) (Run.ok a) := .together (by simp) (by simp)

theorem ofLog {record : LogRecord} (h : record.level ≠ .error) :
    Course raises (Run.log record : Run ε Unit) (Run.log record) :=
  .together (by simpa [LogsError, log] using h) (by simp [Raised, Fails, log])

theorem ofCall {c : Call} (h : ¬ raises c) : Course raises (Run.call c : Run ε Unit) (Run.call c) :=
  .together (by simp [LogsError, call]) (by simpa [Raised, Fails, call] using h)

theorem ofRaise {c : Call} (h : raises c) (e : ε) :
    Course raises ((Run.call c).andThen fun _ => (Run.fail e : Run ε α))
      ((Run.call c).andThen fun _ => Run.fail e) :=
  .together (by simp [LogsError, call, fail, andThen]) (by simpa [Raised, Fails, call, fail, andThen] using h)

/-- What comes first in both runs changes nothing, if it neither raises nor logs an error. -/
theorem after {strict silent : Run ε α} (h : Course raises strict silent) {calls : List Call}
    {logs : List LogRecord} (hcalls : ∀ c ∈ calls, ¬ raises c) (hlogs : ∀ record ∈ logs, record.level ≠ .error) :
    Course raises { strict with calls := calls ++ strict.calls, logs := logs ++ strict.logs }
      { silent with calls := calls ++ silent.calls, logs := logs ++ silent.logs } := by
  have hraised : ∀ run : Run ε α,
      { run with calls := calls ++ run.calls, logs := logs ++ run.logs }.Raised raises ↔ run.Raised raises := by
    intro run
    simp only [Raised, List.mem_append]
    exact ⟨fun ⟨c, hc, hr⟩ => ⟨c, hc.resolve_left fun hc => hcalls c hc hr, hr⟩,
      fun ⟨c, hc, hr⟩ => ⟨c, Or.inr hc, hr⟩⟩
  have hlogged : ∀ run : Run ε α,
      { run with calls := calls ++ run.calls, logs := logs ++ run.logs }.LogsError ↔ run.LogsError := by
    intro run
    simp only [LogsError, List.mem_append]
    exact ⟨fun ⟨r, hr, he⟩ => ⟨r, hr.resolve_left fun hr => hlogs r hr he, he⟩,
      fun ⟨r, hr, he⟩ => ⟨r, Or.inr hr, he⟩⟩
  cases h with
  | together quiet raised =>
      exact .together (by rwa [hlogged]) (by rw [hraised]; exact raised)
  | parted fails unraised prefixed logged =>
      exact .parted fails (by rwa [hraised]) ((List.prefix_append_right_inj calls).mpr prefixed)
        ((hlogged silent).mpr logged)

theorem andThen {strict silent : Run ε α} {next next' : α → Run ε β} (h : Course raises strict silent)
    (hnext : ∀ a, Course raises (next a) (next' a)) :
    Course raises (strict.andThen next) (silent.andThen next') := by
  cases h with
  | parted fails unraised calls logged =>
      obtain ⟨e, he⟩ := fails
      rw [andThen_of_error he]
      exact .parted ⟨e, rfl⟩ unraised (calls.trans (calls_prefix_andThen silent next')) (logged.andThen next')
  | together quiet raised =>
      rcases ho : strict.outcome with e | a
      · rw [andThen_of_error ho, andThen_of_error ho]
        exact .together quiet (raised.trans ⟨fun _ => ⟨e, rfl⟩, fun _ => ⟨e, ho⟩⟩)
      · -- A run that succeeds has not raised, so all is up to what comes after it.
        have hunraised : ¬ strict.Raised raises := by
          rw [raised, Fails, ho]
          simp
        rw [andThen_of_ok ho, andThen_of_ok ho]
        exact (hnext a).after (fun c hc hr => hunraised ⟨c, hc, hr⟩) fun r hr he => quiet ⟨r, hr, he⟩

theorem composes : Run.Composes (fun {_ _} => Course raises) where
  ok := ofOk
  andThen := andThen

theorem mapError {strict silent : Run ε α} (h : Course raises strict silent) (f : ε → ε') :
    Course raises (strict.mapError f) (silent.mapError f) := by
  have hfails : ∀ run : Run ε α, (run.mapError f).Fails ↔ run.Fails := by
    rintro ⟨e | a, calls, logs⟩
    · exact iff_of_true ⟨f e, rfl⟩ ⟨e, rfl⟩
    · refine iff_of_false ?_ ?_
      · rintro ⟨_, ⟨⟩⟩
      · rintro ⟨_, ⟨⟩⟩
  cases h with
  | together quiet raised => exact .together quiet (raised.trans (hfails strict).symm)
  | parted fails unraised calls logged => exact .parted ((hfails strict).mpr fails) unraised calls logged

/-- Runs on such a course agree. -/
theorem concord {strict silent : Run ε α} (h : Course raises strict silent) : Concord raises strict silent := by
  cases h with
  | together quiet raised =>
      exact {
        ok_iff := fun a => (and_iff_left quiet).symm
        records_of_ok := fun a _ => ⟨rfl, rfl⟩
        prefix_of_fails := fun _ => List.prefix_rfl
        eq_of_raised := fun h => ⟨raised.mp h, rfl⟩ }
  | parted fails unraised calls logged =>
      obtain ⟨e, he⟩ := fails
      exact {
        ok_iff := fun a => ⟨fun h => (nomatch he.symm.trans h), fun h => absurd logged h.2⟩
        records_of_ok := fun a h => (nomatch he.symm.trans h)
        prefix_of_fails := fun _ => calls
        eq_of_raised := fun h => absurd h unraised }

end Course
end Run

namespace Renderer

variable {extensions : Extensions}

/-- An action that neither looks at whether the renderer is silent nor fails of its own accord. -/
theorem course_apply {raises : Call → Prop} {action : Action} (hsilent : action ≠ .silent)
    (herror : ∀ reason, action ≠ .error reason) (mode : Mode) (source : String)
    {children children' : Level → Run String (List Node)}
    (h : ∀ level, Run.Course raises (children level) (children' level)) :
    Run.Course raises (action.apply false mode source children) (action.apply true mode source children') := by
  cases action with
  | silent => exact absurd rfl hsilent
  | error reason => exact absurd rfl (herror reason)
  | wrapBlock | unwrapBlock => exact Run.Course.composes.map (h _) _
  | wrapInline | unwrapInline => exact Run.Course.composes.map (h _) _
  | plainText => exact Run.Course.composes.map (h _) _
  | _ => exact Run.Course.ofOk _

theorem course_call {rule : Rule} {t : Token} (hrule : extensions.rule? t.kind = some rule)
    (hsilent : rule.action ≠ .silent) (mode : Mode) {children children' : Level → Run String (List Node)}
    (h : ∀ level, Run.Course extensions.Raises (children level) (children' level)) :
    Run.Course extensions.Raises (rule.call false mode t children) (rule.call true mode t children') := by
  by_cases hraises : extensions.Raises ⟨t, mode, rule.action⟩
  · obtain ⟨_, reason, hsame, happlies, herror⟩ := id hraises
    cases hrule.symm.trans hsame
    have hcall : ∀ silent children, rule.call silent mode t children =
        (Run.call ⟨t, mode, rule.action⟩).andThen fun _ => Run.fail reason := by
      intro silent children
      rw [Rule.call, if_pos happlies, herror]
      rfl
    rw [hcall, hcall]
    exact Run.Course.ofRaise hraises reason
  · rw [Rule.call, Rule.call, Run.bind_eq, Run.bind_eq]
    refine (Run.Course.ofCall hraises).andThen fun _ => ?_
    by_cases happlies : rule.appliesIn mode = true
    · rw [if_pos happlies, if_pos happlies]
      exact course_apply hsilent (fun reason herror => hraises ⟨rule, reason, hrule, happlies, herror⟩) mode t.raw h
    · rw [if_neg happlies, if_neg happlies]
      exact Run.Course.ofOk _

/-- The renderer, made silent or strict. -/
def withSilent (r : Renderer) (silent : Bool) : Renderer := { r with silent }

/-- No rule tells a silent renderer from a strict one. -/
def Deaf (r : Renderer) : Prop := ∀ entry ∈ r.extensions.rules, entry.2.action ≠ .silent

section Steps

variable {r : Renderer} {parts parts' : Parts}

theorem course_extend (hdeaf : r.Deaf) (level : Level) (t : Token)
    (h : ∀ part, Run.Course r.extensions.Raises (parts part) (parts' part)) :
    Run.Course r.extensions.Raises ((r.withSilent false).extend level t parts)
      ((r.withSilent true).extend level t parts') := by
  rw [extend, extend]
  cases hrule : r.extensions.rule? t.kind with
  | none =>
      simp only [withSilent, hrule]
      exact Run.Course.ofOk none
  | some rule =>
      have hcall := course_call hrule (hdeaf _ (Entries.mem_of_get? hrule)) level.mode fun level =>
        (h (.children level)).mapError RenderError.message
      simp only [withSilent, hrule]
      refine (hcall.mapError _).andThen fun output => ?_
      cases output.nodes? with
      | none => exact (Run.Course.ofLog (by simp [LogRecord.level])).andThen fun _ => Run.Course.ofOk none
      | some nodes => exact Run.Course.ofOk (some nodes)

theorem course_unknown (r : Renderer) {raises : Call → Prop} (mode : Mode) (kind : String) :
    Run.Course raises ((r.withSilent false).unknown mode kind) ((r.withSilent true).unknown mode kind) :=
  .parted ⟨.unknownToken kind, rfl⟩ (by simp [Run.Raised, unknown, withSilent, Run.fail]) List.nil_prefix
    ⟨.unknownToken kind, List.mem_cons_self, rfl⟩

theorem course_step (hdeaf : r.Deaf) (level : Level) (t : Token)
    (h : ∀ part, Run.Course r.extensions.Raises (parts part) (parts' part)) :
    Run.Course r.extensions.Raises ((r.withSilent false).step level t parts)
      ((r.withSilent true).step level t parts') := by
  have hrecipe : (r.withSilent true).recipe level t = (r.withSilent false).recipe level t := by
    rcases level with top | _ | _ | _ <;> rfl
  refine (course_extend hdeaf level t h).andThen fun nodes => ?_
  cases nodes with
  | some nodes => exact Run.Course.ofOk nodes
  | none =>
      simp only [builtIn_eq_run, hrecipe]
      exact Recipe.run_lockstep Run.Course.composes (course_unknown r level.mode t.kind) h _

/-- A strict and a silent run, with extensions that cannot tell them apart, stay together or part at an
unknown token. -/
theorem course_renderTokens (hdeaf : r.Deaf) (level : Level) (ts : List Token) :
    Run.Course r.extensions.Raises ((r.withSilent false).renderTokens level ts)
      ((r.withSilent true).renderTokens level ts) := by
  have hpolicy : (r.withSilent true).policy = (r.withSilent false).policy := rfl
  exact renderTokens_of_steps Run.Course.composes hpolicy
    (fun t _ level _ _ h => course_step hdeaf level t h) level

end Steps

/-- Strict and silent rendering, with extensions that cannot tell them apart: among blocks with either
flag, among inline tokens by any set of rules, and for bare text. The strict run succeeds just when the
silent run does without an error in its log, and then they agree in everything; where it fails, its calls
are the first calls of the silent run; and a rule that fails of its own accord ends both in the same way. -/
theorem strict_concords_with_silent (r : Renderer) (hdeaf : r.Deaf) (ts : List Token) :
    (∀ level, Run.Concord r.extensions.Raises ((r.withSilent false).renderTokens level ts)
      ((r.withSilent true).renderTokens level ts)) ∧
    Run.Concord r.extensions.Raises ((r.withSilent false).bareText ts) ((r.withSilent true).bareText ts) :=
  ⟨fun level => (course_renderTokens hdeaf level ts).concord,
    (Run.Course.composes.map (course_renderTokens hdeaf (.inline .plain) ts) Node.text).concord⟩

/-- An unknown token in a box ends the strict run there. The silent run goes on to a rule that fails. -/
theorem strict_concords_with_silent_of_boxed_unknown :
    let rules : Entries Rule := [("box", { action := .wrapBlock "div" }), ("bad", { action := .error "no" })]
    let r : Renderer := { extensions := .ofList rules }
    let ts : List Token := [.custom "box" "" "" [.custom "odd" "" "" []], .custom "bad" "" "" []]
    r.Deaf ∧
      ((r.withSilent false).renderBlocks ts).outcome =
        .error (.extension "box" "Token with \"odd\" type was not found.") ∧
      ((r.withSilent true).renderBlocks ts).outcome = .error (.extension "bad" "no") ∧
      Run.Concord r.extensions.Raises ((r.withSilent false).renderBlocks ts) ((r.withSilent true).renderBlocks ts) := by
  intro rules r ts
  have hdeaf : r.Deaf := by simp [r, rules, Deaf, Extensions.ofList, Extensions.addAll, Extensions.add, Entries.set]
  exact ⟨hdeaf, rfl, rfl, (strict_concords_with_silent r hdeaf ts).1 (.block true)⟩

end Renderer
end MarkdownNodes
