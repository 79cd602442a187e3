import MarkdownNodes.Render.Rule
import MarkdownNodes.Text.Quoted
import MarkdownNodes.Token.Basic

/-! Runs of the renderer. A run ends in a value or an error, and either way leaves a record of the
extensions that were called and of what was logged, in order. -/

namespace MarkdownNodes

inductive RenderError where
  /-- No rule applies to tokens of this kind where one stands. -/
  | unknownToken (kind : String)
  /-- The extension for this kind failed, for the reason given. -/
  | extension (kind reason : String)
  deriving DecidableEq

def RenderError.message : RenderError → String
  | .unknownToken kind => "Token with \"" ++ kind ++ "\" type was not found."
  | .extension kind reason => "Extension for \"" ++ kind ++ "\" tokens failed: " ++ reason

/-- The call of an extension: the token, the mode it was met in, and the action of the rule. -/
structure Call where
  token : Token
  mode : Mode
  action : Action

inductive LogRecord where
  /-- An unknown token was shown as an error. -/
  | unknownToken (kind : String)
  /-- An extension left a token to the built-in rule. -/
  | deferred (kind : String)
  deriving DecidableEq

inductive LogLevel where
  | error
  | trace
  deriving DecidableEq

def LogRecord.level : LogRecord → LogLevel
  | .unknownToken _ => .error
  | .deferred _ => .trace

def LogRecord.message : LogRecord → String
  | .unknownToken kind => (RenderError.unknownToken kind).message
  | .deferred kind => "extension for " ++ Text.quoted kind ++ " deferred to the built-in rule"

structure Run (ε α : Type) where
  outcome : Except ε α
  calls : List Call := []
  logs : List LogRecord := []

namespace Run

variable {ε ε' α β γ : Type}

def ok (a : α) : Run ε α := { outcome := .ok a }

def fail (e : ε) : Run ε α := { outcome := .error e }

/-- Continues a run that has not failed; the records are put together. -/
def andThen (run : Run ε α) (next : α → Run ε β) : Run ε β :=
  match run.outcome with
  | .error e => { outcome := .error e, calls := run.calls, logs := run.logs }
  | .ok a =>
      let rest := next a
      { outcome := rest.outcome, calls := run.calls ++ rest.calls, logs := run.logs ++ rest.logs }

instance : Monad (Run ε) where
  pure := ok
  bind := andThen

/-- Records the call of an extension. -/
def call (c : Call) : Run ε Unit := { outcome := .ok (), calls := [c] }

def log (record : LogRecord) : Run ε Unit := { outcome := .ok (), logs := [record] }

/-- The same run with its error put in other terms. -/
def mapError (f : ε → ε') (run : Run ε α) : Run ε' α :=
  { outcome := run.outcome.mapError f, calls := run.calls, logs := run.logs }

@[simp] theorem pure_eq (a : α) : (pure a : Run ε α) = ok a := rfl

@[simp] theorem bind_eq (run : Run ε α) (next : α → Run ε β) : run >>= next = run.andThen next := rfl

@[simp] theorem map_eq (f : α → β) (run : Run ε α) : f <$> run = run.andThen fun a => ok (f a) := rfl

@[simp] theorem ok_andThen (a : α) (next : α → Run ε β) : (ok a).andThen next = next a := rfl

@[simp] theorem fail_andThen (e : ε) (next : α → Run ε β) : (fail e).andThen next = fail e := rfl

@[simp] theorem andThen_ok (run : Run ε α) : run.andThen ok = run := by
  rcases run with ⟨_ | _, calls, logs⟩ <;> simp [andThen, ok]

theorem andThen_of_error {run : Run ε α} {e : ε} (h : run.outcome = .error e) (next : α → Run ε β) :
    run.andThen next = { outcome := .error e, calls := run.calls, logs := run.logs } := by
  rw [andThen, h]

theorem andThen_of_ok {run : Run ε α} {a : α} (h : run.outcome = .ok a) (next : α → Run ε β) :
    run.andThen next =
      { outcome := (next a).outcome, calls := run.calls ++ (next a).calls, logs := run.logs ++ (next a).logs } := by
  rw [andThen, h]

theorem andThen_assoc (run : Run ε α) (f : α → Run ε β) (g : β → Run ε γ) :
    (run.andThen f).andThen g = run.andThen fun a => (f a).andThen g := by
  rcases run with ⟨_ | a, calls, logs⟩
  · rfl
  · rcases h : f a with ⟨_ | b, calls', logs'⟩ <;> simp [andThen, h]

end MarkdownNodes.Run
