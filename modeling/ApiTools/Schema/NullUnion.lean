import ApiTools.Json.Value

/-!
# Null unions

A null union is a schema whose `anyOf` has two members, one of type `null` and one of another
named type. Version 3.0 of the document format has no null type; there the same schema is the
other member with `nullable: true`. Lifting moves the other member's fields into the node.

Main statement: a node is no larger after lifting (`size_lift_le`), which is why lifting in a
whole tree ends although every node is overwritten before its children are visited.
-/

namespace ApiTools

namespace Schema

/-- A schema node: the fields of its object. -/
abbrev Node := Fields Json

/-- The name of a node's type, if it is a text. -/
def typeName? (node : Node) : Option Text := (node.get? "type").bind Value.text?

/-- The member that a null union is a union of null with. -/
def lifted? : Json → Json → Option Node
  | .object a, .object b =>
    if typeName? a = some "null" then
      if typeName? b = some "null" ∨ typeName? b = none then none else some b
    else if typeName? b = some "null" ∧ typeName? a ≠ none then some a
    else none
  | _, _ => none

/-- The member that a node lifts, if the node is a null union. -/
def nullUnion? (node : Node) : Option Node :=
  match node.get? "anyOf" with
  | some (.array [a, b]) => lifted? a b
  | _ => none

/-- A null union becomes its other member with `nullable: true`; any other node is kept. -/
def liftNullUnion (node : Node) : Node :=
  match nullUnion? node with
  | some main => ((node.update main).set "nullable" (.bool true)).erase "anyOf"
  | none => node

section Size

open Value

private theorem fieldsSize_set_le (node : Node) (name : Text) (v : Json) :
    fieldsSize (node.set name v) ≤ fieldsSize node + v.size := by
  induction node with
  | nil => simp [Fields.set, fieldsSize]
  | cons f rest ih =>
    obtain ⟨n, w⟩ := f
    by_cases h : n = name
    · simp [Fields.set, fieldsSize, h]; omega
    · simp [Fields.set, fieldsSize, h]; omega

/-- Erasing a name makes no node larger. -/
theorem fieldsSize_erase_le (node : Node) (name : Text) :
    fieldsSize (node.erase name) ≤ fieldsSize node := by
  induction node with
  | nil => simp [Fields.erase, fieldsSize]
  | cons f rest ih =>
    obtain ⟨n, v⟩ := f
    by_cases h : n = name <;> simp [Fields.erase, fieldsSize, h] <;> omega

/-- Erasing a field that is there takes at least its value's size away. -/
theorem fieldsSize_erase_add_le {node : Node} {name : Text} {v : Json}
    (h : node.get? name = some v) : fieldsSize (node.erase name) + v.size ≤ fieldsSize node := by
  induction node with
  | nil => simp [Fields.get?] at h
  | cons f rest ih =>
    obtain ⟨n, w⟩ := f
    by_cases hn : n = name
    · simp only [Fields.get?, hn, if_true, Option.some.injEq] at h
      subst h
      have := fieldsSize_erase_le rest name
      simp [Fields.erase, fieldsSize, hn]
      omega
    · simp only [Fields.get?, hn, if_false] at h
      have := ih h
      simp [Fields.erase, fieldsSize, hn]
      omega

private theorem erase_set (node : Node) (erased name : Text) (v : Json) :
    (node.set name v).erase erased =
      if name = erased then node.erase erased else (node.erase erased).set name v := by
  induction node with
  | nil => by_cases h : name = erased <;> simp [Fields.set, Fields.erase, h]
  | cons f rest ih =>
    obtain ⟨n, w⟩ := f
    by_cases hn : n = name
    · subst hn
      by_cases h : n = erased <;> simp [Fields.set, Fields.erase, h]
    · by_cases h : name = erased
      · subst h
        simp [Fields.set, Fields.erase, hn, ih]
      · by_cases he : n = erased
        · have hne : ¬erased = name := fun e ↦ h e.symm
          simp [Fields.set, Fields.erase, he, h, hne, ih]
        · simp [Fields.set, Fields.erase, hn, he, h, ih]

private theorem fieldsSize_erase_update_le (node other : Node) (name : Text) :
    fieldsSize ((node.update other).erase name) ≤
      fieldsSize (node.erase name) + fieldsSize other := by
  unfold Fields.update
  induction other generalizing node with
  | nil => simp [fieldsSize]
  | cons f rest ih =>
    obtain ⟨n, v⟩ := f
    have h₁ := ih (node.set n v)
    rw [erase_set] at h₁
    simp only [List.foldl_cons, fieldsSize]
    split at h₁
    · omega
    · have h₂ := fieldsSize_set_le (node.erase name) n v
      omega

/-- A node is no larger after lifting. -/
theorem size_lift_le (node : Node) : fieldsSize (liftNullUnion node) ≤ fieldsSize node := by
  unfold liftNullUnion
  split
  · next main found =>
    unfold nullUnion? at found
    split at found
    · next a b any =>
      have removed := fieldsSize_erase_add_le any
      have larger : fieldsSize main + 2 ≤ (Value.array [a, b] : Json).size := by
        unfold lifted? at found
        split at found
        · simp only [size, itemsSize]
          split at found
          · split at found
            · cases found
            · cases found; omega
          · split at found
            · cases found; omega
            · cases found
        · cases found
      have updated := fieldsSize_erase_update_le node main "anyOf"
      rw [erase_set, if_neg (by decide)]
      have set := fieldsSize_set_le ((node.update main).erase "anyOf") "nullable" (.bool true)
      have one : (Value.bool true : Json).size = 1 := rfl
      omega
    · cases found
  · exact Nat.le_refl _

end Size

end Schema

end ApiTools
