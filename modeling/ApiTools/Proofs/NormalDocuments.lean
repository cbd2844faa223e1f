import ApiTools.Proofs.JsonRoundTrip
import ApiTools.Proofs.Places

/-!
# Documents in normal form

A document in normal form is read back as the normal form of what was read, and is its own normal
form (`normalize_fixed`): the bytes of a normal document are written once and for all.
-/

namespace ApiTools

namespace Spec

/-- The normal form of a document in normal form is the document. -/
theorem normalTree_normalTree (spec : Fields Json) :
    normalTree (normalTree spec) = normalTree spec :=
  Value.object.inj (Place.normal_normal .document (.object spec))

/-- A document has a normal form when it is an object whose text can be written. -/
theorem normalize_eq_ok_iff {bytes normal : Bytes} :
    normalize bytes = .ok normal ↔ ∃ spec, Json.decode? bytes = some (.object spec) ∧
      Encoding.encodeUtf8? (Json.write .compact (.object (normalTree spec))) = some normal := by
  unfold normalize normalText
  cases Json.decode? bytes with
  | none => simp [bind, Except.bind]
  | some v =>
    cases v with
    | object spec =>
      simp only [bind, Except.bind, Option.some.injEq, Value.object.injEq, exists_eq_left']
      split
      · next encoded h => simp [h]
      · next h => simp [h]
    | other e => exact e.elim
    | _ => simp [bind, Except.bind]

/-- The bytes of a normal form are those of a document that is read as the normal form of what was
read and that is in normal form. -/
theorem normalize_fixed {bytes normal : Bytes} (h : normalize bytes = .ok normal) :
    normalize normal = .ok normal ∧ ∃ spec, Json.decode? bytes = some (.object spec) ∧
      Json.decode? normal = some (.object (normalTree spec)) := by
  obtain ⟨spec, hspec, hnormal⟩ := normalize_eq_ok_iff.mp h
  have hnames := Json.distinctNames_of_decode? hspec
  have hdistinct : (Value.object (normalTree spec) : Json).DistinctNames :=
    Place.distinctNames_normal .document hnames
  have hnumbers : (Value.object (normalTree spec) : Json).NumbersWithin (some Text.digitLimit) :=
    Place.numbersWithin_normal .document hnames (Json.numbersWithin_of_decode? hspec)
  have hread := Json.decode?_of_encode? Json.Style.isLawful_compact hdistinct hnumbers nofun
    hnormal
  refine ⟨normalize_eq_ok_iff.mpr ⟨normalTree spec, hread, ?_⟩, spec, hspec, hread⟩
  rw [normalTree_normalTree]
  exact hnormal

/-- A document for version 3.1 whose one schema is a null union of a schema with another null union
in it, with a name beyond ASCII and an undefined number beside. -/
private def nullableSpec : Fields Json :=
  [("openapi", .string "3.1.0"), ("é", .float .nan), ("components", .object [("schemas", .object
    [("A", .object [("anyOf", .array [.object [("type", .string "null")], .object
      [("type", .string "array"), ("items", .object [("anyOf", .array
        [.object [("type", .string "string")], .object [("type", .string "null")]])])]])])])])]

/-- The same document in normal form. -/
private def nullableNormal : Fields Json :=
  [("openapi", .string "3.0.0"), ("é", .float .nan), ("components", .object [("schemas", .object
    [("A", .object [("type", .string "array"), ("items", .object [("type", .string "string"),
      ("nullable", .bool true)]), ("nullable", .bool true)])])])]

/-- A document with a null union, and what it is normalized to. -/
theorem normalize_fixed_nullable :
    normalize ((Json.write .indented (.object nullableSpec)).flatMap Encoding.utf8Bytes) =
      .ok ((Json.write .compact (.object nullableNormal)).flatMap Encoding.utf8Bytes) ∧
    normalize ((Json.write .compact (.object nullableNormal)).flatMap Encoding.utf8Bytes) =
      .ok ((Json.write .compact (.object nullableNormal)).flatMap Encoding.utf8Bytes) := by
  have hread : Json.decode? ((Json.write .indented (.object nullableSpec)).flatMap
      Encoding.utf8Bytes) = some (.object nullableSpec) := by decide +kernel
  have hsize : (Value.object nullableSpec : Json).size ≤ 30 := by decide +kernel
  have hwithin :
      Place.normalWithin 30 .document (.object nullableSpec) = .object nullableNormal := by
    decide +kernel
  have hnormal : normalTree nullableSpec = nullableNormal :=
    Value.object.inj ((Place.normalWithin_eq .document hsize).symm.trans hwithin)
  have hclean : Encoding.encodeUtf8? (Json.write .compact (.object nullableNormal)) =
      some ((Json.write .compact (.object nullableNormal)).flatMap Encoding.utf8Bytes) := by
    decide +kernel
  have h : normalize ((Json.write .indented (.object nullableSpec)).flatMap Encoding.utf8Bytes) =
      .ok ((Json.write .compact (.object nullableNormal)).flatMap Encoding.utf8Bytes) := by
    refine normalize_eq_ok_iff.mpr ⟨nullableSpec, hread, ?_⟩
    rw [hnormal]
    exact hclean
  exact ⟨h, (normalize_fixed h).1⟩

end Spec

end ApiTools
