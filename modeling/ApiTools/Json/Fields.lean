import ApiTools.Text.Basic

/-!
# Named fields in order

The fields of an object are a list of names with values. A name is meant to occur once
(`Distinct`); setting a field keeps the place of an earlier one of that name, and a new field
goes to the end.
-/

namespace ApiTools

/-- Named values in order. -/
abbrev Fields (α : Type) := List (Text × α)

namespace Fields

variable {α β : Type}

/-- The value of the first field of a name. -/
def get? : Fields α → Text → Option α
  | [], _ => none
  | (name, value) :: rest, wanted => if name = wanted then some value else get? rest wanted

/-- Is there a field of this name? -/
def has (fields : Fields α) (name : Text) : Bool := (fields.get? name).isSome

/-- Does a surrogate stand in a name? -/
def hasSurrogateName (fields : Fields α) : Bool := fields.any fun f ↦ f.1.any CodePoint.isSurrogate

/-- The names in order. -/
def names (fields : Fields α) : List Text := fields.map (·.1)

/-- The values in order. -/
def values (fields : Fields α) : List α := fields.map (·.2)

/-- The fields with one of them set: in its place if the name is there, else at the end. -/
def set : Fields α → Text → α → Fields α
  | [], name, value => [(name, value)]
  | (other, old) :: rest, name, value =>
    if other = name then (other, value) :: rest else (other, old) :: set rest name value

/-- The fields without those of a name. -/
def erase : Fields α → Text → Fields α
  | [], _ => []
  | (other, v) :: rest, name =>
    if other = name then erase rest name else (other, v) :: erase rest name

/-- The fields with those of another list set one after the other. -/
def update (fields others : Fields α) : Fields α :=
  others.foldl (fun all f ↦ all.set f.1 f.2) fields

/-- The fields that a sequence of settings leaves: each name in its first place with its last
value. -/
def ofList (settings : Fields α) : Fields α := update [] settings

/-- Every value changed by a function of it. -/
def mapValues (f : α → β) (fields : Fields α) : Fields β := fields.map fun (name, v) ↦ (name, f v)

/-- The values of a name changed by a function of them. -/
def adjust (fields : Fields α) (name : Text) (f : α → α) : Fields α :=
  fields.map fun (other, v) ↦ (other, if other = name then f v else v)

/-- No name occurs twice. -/
def Distinct (fields : Fields α) : Prop := fields.names.Nodup

/-- Nothing is found among no fields. -/
theorem get?_nil (name : Text) : get? ([] : Fields α) name = none := rfl

/-- A name is found in the first field or behind it. -/
theorem get?_cons (f : Text × α) (rest : Fields α) (name : Text) :
    get? (f :: rest) name = if f.1 = name then some f.2 else rest.get? name := rfl

/-- A field that was set is read back, and every other field is as before. -/
theorem get?_set (fields : Fields α) (name wanted : Text) (value : α) :
    (fields.set name value).get? wanted =
      if name = wanted then some value else fields.get? wanted := by
  induction fields with
  | nil => simp [set, get?]
  | cons f rest ih =>
    by_cases h : f.1 = name
    · by_cases w : name = wanted <;> simp [set, get?, h, w]
    · by_cases w : name = wanted
      · subst w
        simp [set, get?, h, ih]
      · simp [set, get?, h, w, ih]

/-- Setting a field adds its name at the end, unless it is there. -/
theorem names_set (fields : Fields α) (name : Text) (value : α) :
    (fields.set name value).names =
      if name ∈ fields.names then fields.names else fields.names ++ [name] := by
  induction fields with
  | nil => simp [set, names]
  | cons f rest ih =>
    by_cases h : f.1 = name
    · simp [set, names, h]
    · have h' : ¬name = f.1 := fun e ↦ h e.symm
      have ih' := ih
      simp only [names] at ih'
      by_cases m : name ∈ rest.map (·.1) <;> simp_all [set, names]

/-- Setting a field keeps the names distinct. -/
theorem Distinct.set {fields : Fields α} (h : fields.Distinct) (name : Text) (value : α) :
    (fields.set name value).Distinct := by
  unfold Distinct at *
  rw [names_set]
  split
  · exact h
  · next m =>
    rw [List.nodup_append]
    refine ⟨h, by simp, ?_⟩
    intro a ha b hb
    simp only [List.mem_singleton] at hb
    subst hb
    exact fun e ↦ m (e ▸ ha)

end Fields

end ApiTools
