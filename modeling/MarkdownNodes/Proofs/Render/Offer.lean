import MarkdownNodes.Proofs.Render.Recipe

/-! What an extension does with a token that it is offered, said without running it. It leaves the token
to the built-in rule, fails, gives nodes without a look at the children, or renders the children once and
makes nodes of theirs; which of these depends on the rule, the mode and the token only. One step of the
renderer offers the token to its extension, and then does this. -/

namespace MarkdownNodes

inductive Handling where
  /-- The token is left to the built-in rule. -/
  | builtIn
  | fails (reason : String)
  | gives (nodes : List Node)
  /-- The children are rendered at a level; an error in them becomes the extension's own. -/
  | around (level : Level) (nodes : List Node → List Node)

namespace Handling

def isBuiltIn : Handling → Bool
  | .builtIn => true
  | _ => false

def isAround : Handling → Bool
  | .around .. => true
  | _ => false

/-- The parts of a token that are rendered, if the built-in rule has the given recipe. -/
def parts (recipe : Recipe) : Handling → List Part
  | .builtIn => recipe.parts
  | .fails _ | .gives _ => []
  | .around level _ => [.children level]

/-- Carries out what was decided for a token of a kind. -/
def run (kind : String) (builtIn : Run RenderError (List Node)) (parts : Parts) :
    Handling → Run RenderError (List Node)
  | .builtIn => builtIn
  | .fails reason => Run.fail (.extension kind reason)
  | .gives nodes => pure nodes
  | .around level nodes =>
      nodes <$> (parts (.children level)).mapError fun e => .extension kind e.message

end Handling

namespace Run

variable {ε ε' ε'' α β : Type}

@[simp] theorem mapError_ok (f : ε → ε') (a : α) : (ok a : Run ε α).mapError f = ok a := rfl

@[simp] theorem mapError_call (f : ε → ε') (c : Call) : (call c : Run ε Unit).mapError f = call c := rfl

theorem mapError_mapError (f : ε → ε') (g : ε' → ε'') (run : Run ε α) :
    (run.mapError f).mapError g = run.mapError fun e => g (f e) := by
  rcases run with ⟨_ | _, calls, logs⟩ <;> rfl

theorem mapError_andThen (f : ε → ε') (run : Run ε α) (next : α → Run ε β) :
    (run.andThen next).mapError f = (run.mapError f).andThen fun a => (next a).mapError f := by
  rcases run with ⟨_ | _, calls, logs⟩ <;> rfl

end Run

/-- What an action decides, in a mode, for a token with the given source. -/
def Action.handling (silent : Bool) (mode : Mode) (source : String) : Action → Handling
  | .defer => .builtIn
  | .suppress => .gives []
  | .node n => .gives [n]
  | .nodes ns => .gives ns
  | .text s => .gives [Node.span s]
  | .error reason => .fails reason
  | .raw tag => .gives [(Node.element tag).holdText source]
  | .mode => .gives [Node.span mode.name]
  | .wrapBlock tag => .around (.block mode.top) fun ns => [(Node.element tag).hold ns]
  | .wrapInline tag => .around (.inline .primary) fun ns => [(Node.element tag).hold ns]
  | .unwrapBlock => .around (.block mode.top) fun ns => ns
  | .unwrapInline => .around (.inline .primary) fun ns => ns
  | .plainText => .around (.inline .plain) fun ns => [Node.span (Node.text ns)]
  | .silent => .gives [Node.span (toString silent)]

theorem Action.handling_eq_builtIn_iff {silent : Bool} {mode : Mode} {source : String} {action : Action} :
    action.handling silent mode source = .builtIn ↔ action = .defer := by
  cases action <;> simp [handling]

theorem Action.handling_eq_fails_iff {silent : Bool} {mode : Mode} {source reason : String} {action : Action} :
    action.handling silent mode source = .fails reason ↔ action = .error reason := by
  cases action <;> simp [handling]

/-- The actions that render the children. -/
def Action.recurses : Action → Bool
  | .wrapBlock _ | .wrapInline _ | .unwrapBlock | .unwrapInline | .plainText => true
  | _ => false

/-- The call that offers a token, met in a mode, to the extension for its kind. -/
def Extensions.call? (extensions : Extensions) (mode : Mode) (t : Token) : Option Call :=
  (extensions.rule? t.kind).map fun rule => ⟨t, mode, rule.action⟩

namespace Renderer

/-- What is decided for a token that is met in a mode. -/
def handling (r : Renderer) (mode : Mode) (t : Token) : Handling :=
  match r.extensions.rule? t.kind with
  | none => .builtIn
  | some rule => if rule.appliesIn mode then rule.action.handling r.silent mode t.raw else .builtIn

/-- A token is left to the built-in rule unless a rule applies that does not defer. -/
theorem handling_eq_builtIn_iff {r : Renderer} {mode : Mode} {t : Token} :
    r.handling mode t = .builtIn ↔
      ∀ rule, r.extensions.rule? t.kind = some rule → rule.appliesIn mode = true → rule.action = .defer := by
  rw [handling]
  cases r.extensions.rule? t.kind with
  | none => simp
  | some rule => by_cases happlies : rule.appliesIn mode = true <;> simp [happlies, Action.handling_eq_builtIn_iff]

theorem handling_eq_fails_iff {r : Renderer} {mode : Mode} {t : Token} {reason : String} :
    r.handling mode t = .fails reason ↔
      ∃ rule, r.extensions.rule? t.kind = some rule ∧ rule.appliesIn mode = true ∧ rule.action = .error reason := by
  rw [handling]
  cases r.extensions.rule? t.kind with
  | none => simp
  | some rule => by_cases happlies : rule.appliesIn mode = true <;> simp [happlies, Action.handling_eq_fails_iff]

/-- Whether a token that is met in a mode is in the hands of a rule that renders its children. -/
def recurses (r : Renderer) (mode : Mode) (t : Token) : Bool :=
  (r.extensions.rule? t.kind).any fun rule => rule.appliesIn mode && rule.action.recurses

/-- Offers a token to the extension for its kind, if there is one. -/
def offer (r : Renderer) (mode : Mode) (t : Token) : Run RenderError Unit :=
  { outcome := .ok ()
    calls := (r.extensions.call? mode t).toList
    logs := if (r.extensions.rule? t.kind).isSome && (r.handling mode t).isBuiltIn then [.deferred t.kind] else [] }

/-- The rules that render the children are those that make nodes around them. -/
theorem recurses_eq (r : Renderer) (mode : Mode) (t : Token) :
    r.recurses mode t = (r.handling mode t).isAround := by
  rw [recurses, handling]
  cases r.extensions.rule? t.kind with
  | none => rfl
  | some rule =>
      by_cases happlies : rule.appliesIn mode = true
      · cases haction : rule.action <;> simp [happlies, haction, Action.recurses, Action.handling, Handling.isAround]
      · simp [happlies, Handling.isAround]

/-- What becomes of the output of a rule: nodes, or the built-in rule's doing. -/
def conclude (kind : String) (builtIn : Run RenderError (List Node)) (run : Run String Output) :
    Run RenderError (List Node) :=
  (run.mapError (.extension kind)).andThen fun output =>
    match output.nodes? with
    | none => (Run.log (.deferred kind)).andThen fun _ => builtIn
    | some nodes => Run.ok nodes

theorem conclude_call_around {kind : String} {builtIn : Run RenderError (List Node)} (c : Call)
    (children : Run RenderError (List Node)) {output : List Node → Output} {nodes : List Node → List Node}
    (h : ∀ ns, (output ns).nodes? = some (nodes ns)) :
    conclude kind builtIn ((Run.call c).andThen fun _ => output <$> children.mapError RenderError.message) =
      (Run.call c).andThen fun _ => nodes <$> children.mapError fun e => .extension kind e.message := by
  simp only [conclude, Run.map_eq, Run.mapError_andThen, Run.mapError_call, Run.mapError_mapError, Run.mapError_ok,
    Run.andThen_assoc, Run.ok_andThen, h]

theorem step_of_rule {r : Renderer} {level : Level} {t : Token} {rule : Rule}
    (hrule : r.extensions.rule? t.kind = some rule) (parts : Parts) :
    r.step level t parts = conclude t.kind (r.builtIn level t parts)
      (rule.call r.silent level.mode t fun level => (parts (.children level)).mapError RenderError.message) := by
  simp only [step, extend, hrule, conclude, Run.bind_eq, Run.andThen_assoc]
  congr 1
  funext output
  cases output.nodes? <;> rfl

/-- One step: the token is offered to its extension, and what is decided for it is carried out. -/
theorem step_eq (r : Renderer) (level : Level) (t : Token) (parts : Parts) :
    r.step level t parts = (r.offer level.mode t).andThen fun _ =>
      (r.handling level.mode t).run t.kind (r.builtIn level t parts) parts := by
  cases hrule : r.extensions.rule? t.kind with
  | none => simp [step, extend, offer, handling, Extensions.call?, hrule, Handling.run, Run.andThen, Run.ok]
  | some rule =>
      obtain ⟨action, modes⟩ := rule
      rw [step_of_rule hrule, offer, handling, Extensions.call?, hrule, Rule.call]
      by_cases happlies : Rule.appliesIn ⟨action, modes⟩ level.mode = true
      · simp only [if_pos happlies]
        cases action with
        | wrapBlock | wrapInline | unwrapBlock | unwrapInline | plainText =>
            exact conclude_call_around _ _ fun ns => rfl
        | _ => rfl
      · simp only [if_neg happlies]
        rfl

end Renderer
end MarkdownNodes
