import ApiTools.Schema.NullUnion

/-!
# Repairing schema trees

A repair acts on one schema node and never makes it larger. Applied everywhere it visits the
node first and then, in what it left, the schemas under `properties` and `items`; nothing else
is looked at.
-/

namespace ApiTools

namespace Schema

/-- A change of single schema nodes that makes none larger. -/
structure Repair where
  apply : Node → Node
  size_le : ∀ node, Value.fieldsSize (apply node) ≤ Value.fieldsSize node

/-- The repair of null unions. -/
def nullUnions : Repair := ⟨liftNullUnion, size_lift_le⟩

/-- The fields that schemas carry in the wild and that no version of the format knows. -/
def nonStandardFields : List Text := ["error_messages", "hide_error_details"]

/-- A node without the fields that no version of the format knows. -/
def dropNonStandard (node : Node) : Node := nonStandardFields.foldl Fields.erase node

/-- The removal of the fields that no version of the format knows. -/
def nonStandard : Repair where
  apply := dropNonStandard
  size_le node := by
    unfold dropNonStandard nonStandardFields
    exact Nat.le_trans (fieldsSize_erase_le _ _) (fieldsSize_erase_le _ _)

/-- A value of a field is smaller than all the fields together. -/
theorem size_le_of_mem {node : Node} {name : Text} {v : Json} (h : (name, v) ∈ node) :
    v.size ≤ Value.fieldsSize node := by
  induction node with
  | nil => cases h
  | cons f rest ih =>
    obtain ⟨n, w⟩ := f
    rcases List.mem_cons.mp h with e | m
    · cases e; simp [Value.fieldsSize]
    · have := ih m; simp [Value.fieldsSize]; omega

namespace Repair

/-- A node with the repair applied to it and then to every schema reached from it through
`properties` and `items`. -/
def everywhere (r : Repair) (node : Node) : Node :=
  (r.apply node).attach.map fun ⟨(name, v), _visited⟩ ↦
    if name = "properties" then
      match v, _visited with
      | .object schemas, _visited =>
        (name, .object (schemas.attach.map fun ⟨(property, schema), _inside⟩ ↦
          match schema, _inside with
          | .object child, _inside => (property, .object (everywhere r child))
          | schema, _ => (property, schema)))
      | v, _ => (name, v)
    else if name = "items" then
      match v, _visited with
      | .object child, _visited => (name, .object (everywhere r child))
      | v, _ => (name, v)
    else (name, v)
termination_by Value.fieldsSize node
decreasing_by
  · have h₁ := size_le_of_mem _inside
    have h₂ := size_le_of_mem _visited
    have h₃ := r.size_le node
    simp only [Value.size] at h₁ h₂
    omega
  · have h₂ := size_le_of_mem _visited
    have h₃ := r.size_le node
    simp only [Value.size] at h₂
    omega

end Repair

end Schema

end ApiTools
