import Mathlib.Data.List.Forall2
import ApiTools.Json.Value
import ApiTools.Logged
import ApiTools.Proofs.Fields

/-!
# Corresponding values

Fields correspond when their names are the same in the same order and the values of each name are
related in the way that the name asks for; values correspond when they are the same or built of
corresponding parts. Two computations agree when they fail alike or give related values, and keep
agreeing in what follows them (`Agree.bind`).
-/

namespace ApiTools

open List (Forall₂)

/-- Something in one list has a property when something in a corresponding list has the property
that goes with it. -/
theorem exists_mem_congr {α β : Type} {R : α → β → Prop} {p : α → Prop} {q : β → Prop} {l : List α}
    {m : List β} (h : Forall₂ R l m) (hpq : ∀ a b, R a b → (p a ↔ q b)) :
    (∃ a ∈ l, p a) ↔ ∃ b ∈ m, q b := by
  induction h with
  | nil => simp
  | cons hab _ ih => simp [hpq _ _ hab, ih]

/-- Whatever is in the second of two corresponding lists has a partner in the first. -/
theorem exists_partner {α β : Type} {R : α → β → Prop} {l : List α} {m : List β} (h : Forall₂ R l m)
    {b : β} (hb : b ∈ m) : ∃ a ∈ l, R a b := by
  induction h with
  | nil => cases hb
  | cons hab _ ih =>
    rcases List.mem_cons.mp hb with rfl | hb
    · exact ⟨_, List.mem_cons_self, hab⟩
    · obtain ⟨a, ha, hrest⟩ := ih hb
      exact ⟨a, List.mem_cons_of_mem _ ha, hrest⟩

namespace Fields

variable {α β : Type}

/-- Fields of the same names in the same order, with related values. -/
def Corresponds (R : Text → α → β → Prop) (fields : Fields α) (others : Fields β) : Prop :=
  Forall₂ (fun f g ↦ f.1 = g.1 ∧ R f.1 f.2 g.2) fields others

variable {R : Text → α → β → Prop} {fields : Fields α} {others : Fields β}

/-- Fields correspond to themselves if their values are related to themselves. -/
theorem Corresponds.refl {R : Text → α → α → Prop} (hR : ∀ name v, R name v v)
    (fields : Fields α) : Corresponds R fields fields :=
  List.forall₂_same.mpr fun f _ ↦ ⟨rfl, hR f.1 f.2⟩

/-- A name has a value in neither, or related values. -/
theorem Corresponds.get?_cases (h : Corresponds R fields others) (name : Text) :
    (fields.get? name = none ∧ others.get? name = none) ∨
      ∃ v w, fields.get? name = some v ∧ others.get? name = some w ∧ R name v w := by
  induction h with
  | nil => exact .inl ⟨rfl, rfl⟩
  | @cons f g _ _ hfg _ ih =>
    obtain ⟨hname, hvalue⟩ := hfg
    rw [get?_cons, get?_cons, ← hname]
    by_cases hwanted : f.1 = name
    · subst hwanted
      rw [if_pos rfl, if_pos rfl]
      exact .inr ⟨f.2, g.2, rfl, rfl, hvalue⟩
    · rw [if_neg hwanted, if_neg hwanted]
      exact ih

/-- A name has related values, if what stands for a missing one is related. -/
theorem Corresponds.getD (h : Corresponds R fields others) {name : Text} {v : α} {w : β}
    (hmissing : R name v w) :
    R name ((fields.get? name).getD v) ((others.get? name).getD w) := by
  rcases h.get?_cases name with ⟨hfield, hother⟩ | ⟨v, w, hfield, hother, hvalue⟩
  · rw [hfield, hother]
    exact hmissing
  · rw [hfield, hother]
    exact hvalue

/-- Fields that correspond have the same names. -/
theorem Corresponds.has_eq (h : Corresponds R fields others) (name : Text) :
    fields.has name = others.has name := by
  unfold has
  rcases h.get?_cases name with ⟨hfield, hother⟩ | ⟨v, w, hfield, hother, -⟩
  · rw [hfield, hother]
    rfl
  · rw [hfield, hother]
    rfl

/-- Setting related values keeps the correspondence. -/
theorem Corresponds.set (h : Corresponds R fields others) {name : Text} {v : α} {w : β}
    (hvalue : R name v w) : Corresponds R (fields.set name v) (others.set name w) := by
  induction h with
  | nil => exact .cons ⟨rfl, hvalue⟩ .nil
  | @cons f g _ _ hfg hrest ih =>
    obtain ⟨other, old⟩ := f
    obtain ⟨_, new⟩ := g
    obtain ⟨rfl, hold⟩ := hfg
    unfold Fields.set
    by_cases hname : other = name
    · subst hname
      rw [if_pos rfl, if_pos rfl]
      exact .cons ⟨rfl, hvalue⟩ hrest
    · rw [if_neg hname, if_neg hname]
      exact .cons ⟨rfl, hold⟩ ih

/-- Changes of the values by their names that relate them anew keep the correspondence. -/
theorem Corresponds.mapNamed {R S : Text → α → α → Prop} {fields others : Fields α}
    (h : Corresponds R fields others) {f : Text → α → α}
    (hf : ∀ name v w, R name v w → S name (f name v) (f name w)) :
    Corresponds S (fields.mapNamed f) (others.mapNamed f) := by
  induction h with
  | nil => exact .nil
  | @cons g g' _ _ hg _ ih =>
    obtain ⟨name, v⟩ := g
    obtain ⟨_, w⟩ := g'
    obtain ⟨rfl, hvalue⟩ := hg
    exact .cons ⟨rfl, hf name v w hvalue⟩ ih

/-- The values of one name are related or the same, all others are the same. -/
def OnlyAt (name : Text) (R : α → α → Prop) (other : Text) (v w : α) : Prop :=
  v = w ∨ (other = name ∧ R v w)

/-- Fields that correspond at one name are the same at any other. -/
theorem Corresponds.get?_of_ne {name other : Text} {R : α → α → Prop} {fields others : Fields α}
    (h : Corresponds (OnlyAt name R) fields others) (hother : other ≠ name) :
    fields.get? other = others.get? other := by
  rcases h.get?_cases other with ⟨hfield, hnone⟩ | ⟨v, w, hfield, hsome, rfl | ⟨hname, -⟩⟩
  · rw [hfield, hnone]
  · rw [hfield, hsome]
  · exact absurd hname hother

end Fields

namespace Value

variable {ε : Type}

/-- The same values, or objects of corresponding fields. -/
def SameOrObjects (R : Text → Value ε → Value ε → Prop) (v w : Value ε) : Prop :=
  v = w ∨ ∃ fields others : Fields (Value ε), v = .object fields ∧ w = .object others ∧
    Fields.Corresponds R fields others

/-- The same values, or arrays of related items. -/
def SameOrArrays (R : Value ε → Value ε → Prop) (v w : Value ε) : Prop :=
  v = w ∨ ∃ items others, v = .array items ∧ w = .array others ∧ Forall₂ R items others

end Value

namespace Outcome

variable {ε α β γ δ : Type}

/-- Two computations fail alike or give related values. -/
inductive Agree (R : α → β → Prop) : Except ε α → Except ε β → Prop where
  | error (e : ε) : Agree R (.error e) (.error e)
  | ok {a : α} {b : β} : R a b → Agree R (.ok a) (.ok b)

/-- An outcome agrees with itself if its values are related to themselves. -/
theorem Agree.refl {R : α → α → Prop} (hR : ∀ a, R a a) (x : Except ε α) : Agree R x x := by
  cases x with
  | error e => exact .error e
  | ok a => exact .ok (hR a)

/-- Computations that agree up to equality are the same. -/
theorem Agree.eq {x y : Except ε α} (h : Agree Eq x y) : x = y := by
  cases h with
  | error e => rfl
  | ok h => rw [h]

/-- Computations agree if their first parts do and their later parts do on related values. -/
theorem Agree.bind {R : α → β → Prop} {S : γ → δ → Prop} {x : Except ε α} {y : Except ε β}
    {f : α → Except ε γ} {g : β → Except ε δ} (h : Agree R x y)
    (hfg : ∀ a b, R a b → Agree S (f a) (g b)) : Agree S (x.bind f) (y.bind g) := by
  cases h with
  | error e => exact .error e
  | ok hab => exact hfg _ _ hab

end Outcome

namespace Logged

open Outcome (Agree)

variable {ε α β γ δ : Type}

/-- The outcomes of two computations agree if those of their first parts do and those of their
later parts do on related values. -/
theorem agree_bind {R : α → β → Prop} {S : γ → δ → Prop} {x : Logged ε α} {y : Logged ε β}
    {f : α → Logged ε γ} {g : β → Logged ε δ} (h : Agree R x.outcome y.outcome)
    (hfg : ∀ a b, R a b → Agree S (f a).outcome (g b).outcome) :
    Agree S (x >>= f).outcome (y >>= g).outcome := by
  rw [outcome_bind, outcome_bind]
  exact h.bind hfg

/-- The same later part after first parts of the same outcome has the same outcome. -/
theorem outcome_bind_congr {x y : Logged ε α} {f g : α → Logged ε β} (h : x.outcome = y.outcome)
    (hfg : ∀ a, (f a).outcome = (g a).outcome) : (x >>= f).outcome = (y >>= g).outcome := by
  rw [outcome_bind, outcome_bind, h]
  simp only [hfg]

end Logged

end ApiTools
