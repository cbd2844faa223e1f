import Mathlib.Data.List.Forall2
import ApiTools.Logged
import ApiTools.Validation.Issue

/-!
# Outcomes

When a composed computation gives a value: its parts do.
-/

namespace ApiTools

namespace Outcome

variable {ε α β γ : Type}

/-- A computation with a later part gives a value when both parts do. -/
theorem bind_ok_iff {x : Except ε α} {f : α → Except ε β} {b : β} :
    x >>= f = .ok b ↔ ∃ a, x = .ok a ∧ f a = .ok b := by
  cases x with
  | error e => simp [bind, Except.bind]
  | ok a => simp [bind, Except.bind]

/-- A computation with a later part fails when one of both parts does. -/
theorem bind_error_iff {x : Except ε α} {f : α → Except ε β} {e : ε} :
    x >>= f = .error e ↔ x = .error e ∨ ∃ a, x = .ok a ∧ f a = .error e := by
  cases x with
  | error e' => simp [bind, Except.bind]
  | ok a => simp [bind, Except.bind]

/-- A changed outcome is a value if the outcome was one, and it was changed to it. -/
theorem map_ok_iff {x : Except ε α} {f : α → β} {b : β} :
    x.map f = .ok b ↔ ∃ a, x = .ok a ∧ f a = b := by
  cases x with
  | error e => simp [Except.map]
  | ok a => simp [Except.map]

/-- A changed outcome is a failure if the outcome was that one. -/
theorem map_error_iff {x : Except ε α} {f : α → β} {e : ε} : x.map f = .error e ↔ x = .error e := by
  cases x with
  | error e' => simp [Except.map]
  | ok a => simp [Except.map]

/-- An outcome without a failure is a value. -/
theorem exists_of_isOk {x : Except ε α} (h : x.isOk = true) : ∃ a, x = .ok a := by
  cases x with
  | error e => cases h
  | ok a => exact ⟨a, rfl⟩

/-- An outcome without a value is a failure. -/
theorem exists_of_not_isOk {x : Except ε α} (h : x.isOk = false) : ∃ e, x = .error e := by
  cases x with
  | error e => exact ⟨e, rfl⟩
  | ok a => cases h

/-- A list of texts, records or the like that each give what they were made of gives it in order. -/
theorem mapM_map_ok {f : α → β} {g : β → Except ε α} (h : ∀ a, g (f a) = .ok a) (as : List α) :
    (as.map f).mapM g = .ok as := by
  induction as with
  | nil => rfl
  | cons a rest ih =>
    rw [List.map_cons, List.mapM_cons, h, ih]
    rfl

/-- A list that is gone through gives values when each of its elements does. -/
theorem exists_of_mapM_ok {f : α → Except ε β} {as : List α} {bs : List β}
    (h : as.mapM f = .ok bs) : ∀ a ∈ as, ∃ b, f a = .ok b := by
  induction as generalizing bs with
  | nil => exact nofun
  | cons a rest ih =>
    rw [List.mapM_cons, bind_ok_iff] at h
    obtain ⟨b, hb, h⟩ := h
    obtain ⟨others, hothers, -⟩ := bind_ok_iff.mp h
    exact List.forall_mem_cons.mpr ⟨⟨b, hb⟩, ih hothers⟩

/-- What a list is gone through to has every property that each element gives. -/
theorem forall_of_mapM_ok {f : α → Except ε β} {p : β → Prop} {as : List α} {bs : List β}
    (h : as.mapM f = .ok bs) (hp : ∀ a b, f a = .ok b → p b) : ∀ b ∈ bs, p b := by
  induction as generalizing bs with
  | nil =>
    cases h
    exact nofun
  | cons a rest ih =>
    rw [List.mapM_cons, bind_ok_iff] at h
    obtain ⟨b, hb, h⟩ := h
    obtain ⟨others, hothers, h⟩ := bind_ok_iff.mp h
    cases h
    exact List.forall_mem_cons.mpr ⟨hp a b hb, ih hothers⟩

/-- A list that is gone through fails when one of its elements does. -/
theorem exists_of_mapM_error {f : α → Except ε β} {as : List α} {e : ε}
    (h : as.mapM f = .error e) : ∃ a ∈ as, f a = .error e := by
  induction as with
  | nil => cases h
  | cons a rest ih =>
    rw [List.mapM_cons, bind_error_iff] at h
    rcases h with h | ⟨b, -, h⟩
    · exact ⟨a, List.mem_cons_self, h⟩
    · rcases bind_error_iff.mp h with h | ⟨others, -, h⟩
      · obtain ⟨a', ha', herror⟩ := ih h
        exact ⟨a', List.mem_cons_of_mem a ha', herror⟩
      · cases h

end Outcome

namespace Logged

variable {ε α β : Type}

/-- A computation with a later part gives a value when both parts do. -/
theorem bind_ok_iff {x : Logged ε α} {f : α → Logged ε β} {b : β} :
    (x >>= f).outcome = .ok b ↔ ∃ a, x.outcome = .ok a ∧ (f a).outcome = .ok b := by
  rw [outcome_bind]
  exact Outcome.bind_ok_iff

/-- Changing failures keeps values. -/
theorem mapError_ok_iff {δ : Type} {f : ε → δ} {x : Logged ε α} {a : α} :
    (x.mapError f).outcome = .ok a ↔ x.outcome = .ok a := by
  unfold mapError
  cases x.outcome with
  | error e => simp
  | ok b => simp

end Logged

namespace Checked

variable {α β γ : Type}

/-- A step to a part changes no value. -/
theorem under_ok_iff {step : Step} {x : Checked α} {a : α} : x.under step = .ok a ↔ x = .ok a := by
  cases x with
  | error issues => simp [under]
  | ok b => simp [under]

/-- Two parts side by side give a value when both do. -/
theorem both_ok_iff {f : α → β → γ} {x : Checked α} {y : Checked β} {c : γ} :
    both f x y = .ok c ↔ ∃ a b, x = .ok a ∧ y = .ok b ∧ f a b = c := by
  cases x <;> cases y <;> simp [both]

/-- A list of parts gives values when each part does. -/
theorem all_ok_iff {step : Nat → α → Step} {read : α → Checked β} {i : Nat} {parts : List α}
    {values : List β} :
    all step read i parts = .ok values ↔
      List.Forall₂ (fun a b ↦ read a = .ok b) parts values := by
  induction parts generalizing i values with
  | nil => simp [all, eq_comm]
  | cons a rest ih =>
    simp only [all, both_ok_iff, under_ok_iff, ih]
    constructor
    · rintro ⟨b, more, hread, hmore, rfl⟩
      exact .cons hread hmore
    · intro h
      cases h with
      | cons hread hmore => exact ⟨_, _, hread, hmore, rfl⟩

end Checked

end ApiTools
