import ApiTools.Proofs.UntouchedParts
import ApiTools.Redaction

/-!
# Hidden values

What a payload looks like in a log does not depend on what stands under sensitive names in it, as
long as objects alone lead there: two payloads are shown alike exactly if they differ in such values
only (`redacted_alike_iff`). A list is shown as it is, and so are the sensitive fields of the
objects in it (`redacted_list_differs`).
-/

namespace ApiTools

namespace Redaction

variable {ε : Type}

mutual

/-- Two values differ at most in what stands under sensitive names in objects. Lists are the same,
or only alike item by item if `inLists` allows it. -/
def Alike (inLists : Bool) : Value ε → Value ε → Prop
  | .object fields, .object others => AlikeFields inLists fields others
  | .array items, .array others =>
    if inLists = true then AlikeItems inLists items others else items = others
  | v, w => v = w

/-- Two lists of values are alike item by item. -/
def AlikeItems (inLists : Bool) : List (Value ε) → List (Value ε) → Prop
  | [], [] => True
  | v :: vs, w :: ws => Alike inLists v w ∧ AlikeItems inLists vs ws
  | _, _ => False

/-- Two lists of fields have the same names, and values that are alike unless the name is
sensitive. -/
def AlikeFields (inLists : Bool) : List (Text × Value ε) → List (Text × Value ε) → Prop
  | [], [] => True
  | (name, v) :: vs, (other, w) :: ws =>
    name = other ∧ (isSensitive name = true ∨ Alike inLists v w) ∧ AlikeFields inLists vs ws
  | _, _ => False

end

mutual

/-- Two values are shown alike exactly if they differ in what is hidden. -/
theorem value_eq_iff (v w : Value ε) : value v = value w ↔ Alike false v w := by
  cases v <;> cases w <;> simp [value, Alike, payload_eq_iff]

/-- Two payloads are shown alike exactly if they differ in what is hidden. -/
theorem payload_eq_iff (fields others : List (Text × Value ε)) :
    payload fields = payload others ↔ AlikeFields false fields others := by
  cases fields with
  | nil => cases others <;> simp [payload, AlikeFields]
  | cons f fields =>
    obtain ⟨name, v⟩ := f
    cases others with
    | nil => simp [payload, AlikeFields]
    | cons g others =>
      obtain ⟨other, w⟩ := g
      simp only [payload, AlikeFields, List.cons.injEq, Prod.mk.injEq, payload_eq_iff fields others,
        and_assoc]
      refine and_congr_right fun hname ↦ and_congr_left fun _ ↦ ?_
      subst hname
      by_cases hsensitive : isSensitive name = true
      · simp [hsensitive]
      · simp [hsensitive, value_eq_iff v w]

end

/-- What is shown of a value: an object with its names in their order, anything else as it is. -/
structure Shows (v shown : Value ε) : Prop where
  names : ∀ fields, v = .object fields →
    ∃ others, shown = .object others ∧ Fields.names others = Fields.names fields
  other : v.fields? = none → shown = v

/-- No name on a path is sensitive. -/
def Avoids (path : List Step) : Prop := ∀ name, .field name ∈ path → isSensitive name = false

private theorem names_payload (fields : Fields (Value ε)) :
    Fields.names (payload fields) = Fields.names fields := by
  induction fields with
  | nil => rfl
  | cons f rest ih => exact congrArg (f.1 :: ·) ih

/-- A field that is not sensitive is shown as its value is. -/
theorem get?_payload {name : Text} (h : isSensitive name = false) (fields : Fields (Value ε)) :
    Fields.get? (payload fields) name = (fields.get? name).map value := by
  induction fields with
  | nil => rfl
  | cons f rest ih =>
    obtain ⟨other, v⟩ := f
    rw [payload, Fields.get?_cons, Fields.get?_cons, ih]
    dsimp only
    split
    · next hname => simp [hname, h]
    · rfl

/-- A value shows itself. -/
theorem Shows.refl (v : Value ε) : Shows v v where
  names fields h := ⟨fields, h, rfl⟩
  other _ := rfl

private theorem shows_value (v : Value ε) : Shows v (value v) where
  names := by
    rintro fields rfl
    exact ⟨payload fields, rfl, names_payload fields⟩
  other h := by
    cases v with
    | object fields => cases h
    | _ => rfl

/-- A path without sensitive names leads to what is shown of the part that it leads to. -/
theorem at?_value {path : List Step} (h : Avoids path) (v : Value ε) :
    Option.Rel Shows (v.at? path) ((value v).at? path) := by
  have hsame : ∀ found : Option (Value ε), Option.Rel Shows found found := fun found ↦ by
    cases found with
    | none => exact .none
    | some w => exact .some (.refl w)
  induction path generalizing v with
  | nil => exact .some (shows_value v)
  | cons step path ih =>
    cases v with
    | object fields =>
      cases step with
      | index i => exact .none
      | field name =>
        have hget := get?_payload (h name List.mem_cons_self) fields
        have hstep : (value (.object fields)).step? (.field name) =
            ((Value.object fields).step? (.field name)).map value := by
          rw [value]
          exact hget
        rw [Value.at?, Value.at?, hstep]
        cases (Value.object fields).step? (.field name) with
        | none => exact .none
        | some w => exact ih (fun other hother ↦ h other (List.mem_cons_of_mem _ hother)) w
    | _ => exact hsame _

/-- Two payloads are shown alike exactly if they differ in nothing but what stands under sensitive
names in objects that no list holds. A path without sensitive names leads to nothing in a payload
and in what is shown of it, or to a part of the one and to the same in the other, where an object
has its names in their order. -/
theorem redacted_alike_iff (fields others : Fields (Value ε)) :
    (payload fields = payload others ↔ AlikeFields false fields others) ∧
      ∀ path, Avoids path → Option.Rel Shows (Value.at? (.object fields) path)
        (Value.at? (.object (payload fields)) path) :=
  ⟨payload_eq_iff fields others, fun _ h ↦ at?_value h (.object fields)⟩

/-- A payload with a password inside of an object and a token that is one. -/
private def login (password : Text) (token : Json) : Fields Json :=
  [("user", .object [("PassWord", .string password), ("name", .string "n")]), ("X-Token", token)]

/-- The password and the token are hidden, the name is shown. -/
theorem redacted_alike_login :
    payload (login "a" (.object [("id", .int 1)])) = payload (login "b" .null) ∧
      Value.at? (.object (payload (login "a" .null))) [.field "user", .field "name"] =
        some (.string "n") := by
  have hpassword : isSensitive "PassWord" = true := by decide +kernel
  have htoken : isSensitive "X-Token" = true := by decide +kernel
  have halike : AlikeFields false (login "a" (.object [("id", .int 1)])) (login "b" .null) := by
    simp [login, AlikeFields, Alike, hpassword, htoken]
  have havoids : Avoids [.field "user", .field "name"] := by
    intro name hname
    simp only [List.mem_cons, Step.field.injEq, List.not_mem_nil, or_false] at hname
    rcases hname with rfl | rfl <;> decide +kernel
  obtain ⟨_, hpath⟩ := redacted_alike_iff (login "a" .null) (login "b" .null)
  refine ⟨(redacted_alike_iff _ _).1.mpr halike, ?_⟩
  have hrel := hpath _ havoids
  rw [show Value.at? (.object (login "a" .null)) [.field "user", .field "name"] =
    some (.string "n") by decide +kernel] at hrel
  cases hname : Value.at? (.object (payload (login "a" .null)))
    [.field "user", .field "name"] with
  | none =>
    rw [hname] at hrel
    cases hrel
  | some shown =>
    rw [hname] at hrel
    cases hrel with
    | some hshows => rw [hshows.other rfl]

/-- Two payloads that differ in a password alone, which a list leads to, are not shown alike. -/
theorem redacted_list_differs :
    let payloadOf (password : Text) : Fields Json :=
      [("items", .array [.object [("password", .string password)]])]
    AlikeFields true (payloadOf "a") (payloadOf "b") ∧
      payload (payloadOf "a") ≠ payload (payloadOf "b") := by
  have hpassword : isSensitive "password" = true := by decide +kernel
  refine ⟨?_, by decide +kernel⟩
  simp [AlikeFields, AlikeItems, Alike, hpassword]

end Redaction

end ApiTools
