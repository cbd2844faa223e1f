import ApiTools.Proofs.Outcome
import ApiTools.Tool.Record

/-!
# Reading records of tools

A tool is read back from its record.
-/

namespace ApiTools

namespace Parameter

private theorem texts?_map (values : List Text) : texts? (values.map Value.string) = .ok
    values := by
  induction values with
  | nil => rfl
  | cons t rest ih =>
    rw [List.map_cons, texts?, ih]
    rfl

/-- A parameter is read back from its record. -/
theorem ofRecord_toRecord (p : Parameter) : ofRecord p.toRecord = .ok p := by
  obtain ⟨name, sanitizedName, location, required, primitiveType, enumValues, description⟩ := p
  cases enumValues with
  | none => cases description <;> rfl
  | some values =>
    have hread : ofRecord
        (toRecord ⟨name, sanitizedName, location, required, primitiveType, some values,
          description⟩) =
          ((texts? (values.map Value.string)).bind fun texts ↦ .ok (some texts)).bind fun read ↦
            .ok ⟨name, sanitizedName, location, required, primitiveType, read, description⟩ := by
      cases description <;> rfl
    rw [hread, texts?_map]
    rfl

end Parameter

namespace Tool

/-- A tool is read back from its record. -/
theorem ofRecord_toRecord (tool : Tool) : ofRecord tool.toRecord = .ok tool := by
  obtain ⟨id, description, path, method, parameters, hasBody, bodyRequired, bodyDescription⟩ := tool
  have hread : ofRecord
      (toRecord ⟨id, description, path, method, parameters, hasBody, bodyRequired,
        bodyDescription⟩) =
        ((parameters.map Parameter.toRecord).mapM Parameter.ofRecord).bind fun read ↦
          .ok ⟨id, description, path, method, read, hasBody, bodyRequired, bodyDescription⟩ := by
    cases bodyDescription <;> rfl
  rw [hread, Outcome.mapM_map_ok Parameter.ofRecord_toRecord]
  rfl

end Tool

end ApiTools
