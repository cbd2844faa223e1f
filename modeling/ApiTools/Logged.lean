import ApiTools.Text.Basic

/-!
# Computations with warnings

A computation gives a value or fails, and leaves warnings in either case. Warnings of later
parts stand behind those of earlier ones.
-/

namespace ApiTools

/-- A computation that may fail with an `ε`, and its warnings. -/
structure Logged (ε α : Type) where
  warnings : List Text
  outcome : Except ε α

namespace Logged

variable {ε δ α β : Type}

/-- A failure. -/
def fail (e : ε) : Logged ε α := ⟨[], .error e⟩

/-- One warning. -/
def warn (message : Text) : Logged ε Unit := ⟨[message], .ok ()⟩

/-- An outcome without warnings. -/
def ofExcept (outcome : Except ε α) : Logged ε α := ⟨[], outcome⟩

instance : Monad (Logged ε) where
  pure a := ⟨[], .ok a⟩
  bind x f :=
    match x.outcome with
    | .ok a => let y := f a; ⟨x.warnings ++ y.warnings, y.outcome⟩
    | .error e => ⟨x.warnings, .error e⟩

/-- A computation with its failures changed. -/
def mapError (f : ε → δ) (x : Logged ε α) : Logged δ α :=
  ⟨x.warnings, match x.outcome with
    | .ok a => .ok a
    | .error e => .error (f e)⟩

/-- A later part is reached exactly when the earlier one gives a value. -/
theorem outcome_bind (x : Logged ε α) (f : α → Logged ε β) :
    (x >>= f).outcome = x.outcome.bind fun a ↦ (f a).outcome := by
  cases h : x.outcome <;> simp [bind, h, Except.bind]

end Logged

end ApiTools
