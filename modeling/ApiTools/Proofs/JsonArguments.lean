import ApiTools.Proofs.AsciiTexts
import ApiTools.Proofs.DistinctNames
import ApiTools.Proofs.RequestParts

/-!
# Arguments that are JSON

JSON is read back from arguments, unless it holds a whole number of too many digits, or a number
that is not finite and these are refused (`Value.toJson_lift_cases`). But for such whole numbers it
has a text in every place of a request, and only the text of a string can hold surrogates
(`Argument.format_lift_cases`). A query can be encoded if none of its names and texts holds any
(`Query.exists_encode?_iff`).
-/

namespace ApiTools

namespace Value

variable {ε : Type}

/-- Every number of a value can be written: no whole number has too many digits, and all doubles are
finite if they have to be. -/
def IsWritable (finite : Bool) (v : Value ε) : Prop :=
  v.AllNumbers (fun i ↦ Text.isShort i = true) fun x ↦ finite = true → x.isFinite = true

/-- Where numbers need not be finite, a value can be written if its whole numbers are short enough.
-/
theorem isWritable_false_iff {v : Value ε} :
    v.IsWritable false ↔ v.NumbersWithin (some Text.digitLimit) :=
  ⟨AllNumbers.imp (fun _ h ↦ h) fun _ _ ↦ trivial, AllNumbers.imp (fun _ h ↦ h) fun _ _ ↦ nofun⟩

section Lifting

variable {p : Int → Prop} {q : Double → Prop}

mutual

/-- The numbers of JSON are those of its lifting. -/
theorem allNumbers_lift_iff (v : Json) :
    (Json.lift v : Value ε).AllNumbers p q ↔ v.AllNumbers p q := by
  match v with
  | .null => exact iff_of_true .null .null
  | .bool b => exact iff_of_true (.bool b) (.bool b)
  | .string t => exact iff_of_true (.string t) (.string t)
  | .int i => exact allNumbers_int_iff.trans allNumbers_int_iff.symm
  | .float x => exact allNumbers_float_iff.trans allNumbers_float_iff.symm
  | .array items =>
    rw [Json.lift_array, allNumbers_array_iff, allNumbers_array_iff]
    exact allNumbers_liftItems_iff items
  | .object fields =>
    rw [Json.lift_object, allNumbers_object_iff, allNumbers_object_iff]
    exact allNumbers_liftFields_iff fields

private theorem allNumbers_liftItems_iff (items : List Json) :
    (∀ v ∈ (items.map Json.lift : List (Value ε)), v.AllNumbers p q) ↔
      ∀ v ∈ items, v.AllNumbers p q := by
  match items with
  | [] => exact iff_of_true nofun nofun
  | v :: rest =>
    rw [List.map_cons, List.forall_mem_cons, List.forall_mem_cons, allNumbers_lift_iff v,
      allNumbers_liftItems_iff rest]

private theorem allNumbers_liftFields_iff (fields : Fields Json) :
    (∀ f ∈ (fields.mapValues Json.lift : Fields (Value ε)), f.2.AllNumbers p q) ↔
      ∀ f ∈ fields, f.2.AllNumbers p q := by
  match fields with
  | [] => exact iff_of_true nofun nofun
  | (name, v) :: rest =>
    have hrest := allNumbers_liftFields_iff rest
    rw [Fields.mapValues] at hrest ⊢
    rw [List.map_cons, List.forall_mem_cons, List.forall_mem_cons, allNumbers_lift_iff v, hrest]

end

end Lifting

mutual

/-- JSON is read back from its lifting if its numbers can be written, and else refused. -/
theorem toJson_lift_cases (finite : Bool) (v : Json) :
    (v.IsWritable finite ∧ toJson finite (Json.lift v : Value ε) = .ok v) ∨
      (¬v.IsWritable finite ∧ ∃ e, toJson finite (Json.lift v : Value ε) = .error e) := by
  match v with
  | .null => exact .inl ⟨.null, rfl⟩
  | .bool b => exact .inl ⟨.bool b, rfl⟩
  | .string t => exact .inl ⟨.string t, rfl⟩
  | .int i =>
    rw [IsWritable, allNumbers_int_iff]
    change _ ∧ toJson finite (int i) = _ ∨ _ ∧ ∃ e, toJson finite (int i) = _
    rw [toJson]
    split
    · next h => exact .inl ⟨h, rfl⟩
    · next h => exact .inr ⟨h, _, rfl⟩
  | .float x =>
    rw [IsWritable, allNumbers_float_iff]
    change _ ∧ toJson finite (float x) = _ ∨ _ ∧ ∃ e, toJson finite (float x) = _
    rw [toJson]
    cases finite <;> cases x.isFinite <;> simp
  | .array items =>
    rw [Json.lift_array, toJson, IsWritable, allNumbers_array_iff]
    rcases toJsonItems_lift_cases finite items with ⟨hnumber, hitems⟩ | ⟨hnumber, e, hitems⟩
    · exact .inl ⟨hnumber, by rw [hitems]; rfl⟩
    · exact .inr ⟨hnumber, e, by rw [hitems]; rfl⟩
  | .object fields =>
    rw [Json.lift_object, toJson, IsWritable, allNumbers_object_iff]
    rcases toJsonFields_lift_cases finite fields with ⟨hnumber, hfields⟩ | ⟨hnumber, e, hfields⟩
    · exact .inl ⟨hnumber, by rw [hfields]; rfl⟩
    · exact .inr ⟨hnumber, e, by rw [hfields]; rfl⟩

private theorem toJsonItems_lift_cases (finite : Bool) (items : List Json) :
    ((∀ v ∈ items, v.IsWritable finite) ∧
        toJsonItems finite (items.map Json.lift : List (Value ε)) = .ok items) ∨
      ((¬∀ v ∈ items, v.IsWritable finite) ∧
        ∃ e, toJsonItems finite (items.map Json.lift : List (Value ε)) = .error e) := by
  match items with
  | [] => exact .inl ⟨nofun, rfl⟩
  | v :: rest =>
    rw [List.map_cons, toJsonItems, List.forall_mem_cons]
    rcases toJson_lift_cases finite v with ⟨hv, hread⟩ | ⟨hv, e, hread⟩
    · rw [hread]
      rcases toJsonItems_lift_cases finite rest with ⟨hrest, hitems⟩ | ⟨hrest, e, hitems⟩
      · exact .inl ⟨⟨hv, hrest⟩, by rw [hitems]; rfl⟩
      · exact .inr ⟨fun h ↦ hrest h.2, e, by rw [hitems]; rfl⟩
    · exact .inr ⟨fun h ↦ hv h.1, e, by rw [hread]; rfl⟩

private theorem toJsonFields_lift_cases (finite : Bool) (fields : Fields Json) :
    ((∀ f ∈ fields, f.2.IsWritable finite) ∧
        toJsonFields finite (fields.mapValues Json.lift : Fields (Value ε)) = .ok fields) ∨
      ((¬∀ f ∈ fields, f.2.IsWritable finite) ∧
        ∃ e, toJsonFields finite (fields.mapValues Json.lift : Fields (Value ε)) = .error e) := by
  match fields with
  | [] => exact .inl ⟨nofun, rfl⟩
  | (name, v) :: rest =>
    rw [Fields.mapValues, List.map_cons, toJsonFields, List.forall_mem_cons]
    rcases toJson_lift_cases finite v with ⟨hv, hread⟩ | ⟨hv, e, hread⟩
    · rw [hread]
      rcases toJsonFields_lift_cases finite rest with ⟨hrest, hfields⟩ | ⟨hrest, e, hfields⟩
      · rw [Fields.mapValues] at hfields
        exact .inl ⟨⟨hv, hrest⟩, by rw [hfields]; rfl⟩
      · rw [Fields.mapValues] at hfields
        exact .inr ⟨fun h ↦ hrest h.2, e, by rw [hfields]; rfl⟩
    · exact .inr ⟨fun h ↦ hv h.1, e, by rw [hread]; rfl⟩

end

end Value

namespace Argument

open Text (isAscii_ofInt)

private theorem isAscii_formatDouble (x : Double) : (formatDouble x).IsAscii := by
  have hrender : (x.render Double.literalLayout).IsAscii :=
    Double.isAscii_render (by decide) (by decide) x
  unfold formatDouble
  split
  · split
    · exact isAscii_ofInt _
    · exact hrender
  · exact hrender

/-- The text of an argument is in ASCII unless it is a string. -/
theorem isAscii_of_format {v : Argument} {t : Text} (h : v.format = .ok t) :
    v = .string t ∨ t.IsAscii := by
  have hwritten : ∀ v : Json, (Json.write .compactAscii v).IsAscii :=
    Json.isAscii_write Json.Style.writesAscii_compactAscii
  match v with
  | .null =>
    cases h
    exact .inr (by decide)
  | .bool b =>
    cases h
    cases b <;> exact .inr (by decide)
  | .int i =>
    rw [format] at h
    split at h
    · cases h
      exact .inr (isAscii_ofInt i)
    · cases h
  | .float x =>
    cases h
    exact .inr (isAscii_formatDouble x)
  | .string t =>
    cases h
    exact .inl rfl
  | .array items =>
    obtain ⟨w, -, hw⟩ := Outcome.bind_ok_iff.mp h
    cases hw
    exact .inr (hwritten w)
  | .object fields =>
    obtain ⟨w, -, hw⟩ := Outcome.bind_ok_iff.mp h
    cases hw
    exact .inr (hwritten w)
  | .other bs =>
    cases h
    exact .inr (Literal.isAscii_bytes bs)

private theorem format_write_cases {v : Json} {written : Argument}
    (h : format written =
      (do return Json.write .compactAscii (← (Json.lift v : Argument).toJson false))) :
    (v.IsWritable false ∧ ∃ t, format written = .ok t) ∨
      (¬v.IsWritable false ∧ ∃ e, format written = .error e) := by
  rw [h]
  rcases @Value.toJson_lift_cases Bytes false v with ⟨hnumbers, hread⟩ | ⟨hnumbers, e, hread⟩
  · exact .inl ⟨hnumbers, _, by rw [hread]; rfl⟩
  · exact .inr ⟨hnumbers, e, by rw [hread]; rfl⟩

/-- JSON has a text in a URL and in a header, in ASCII unless it is a string, if its whole numbers
can be written. -/
theorem format_lift_cases (v : Json) :
    (v.IsWritable false ∧ ∃ t, format v.lift = .ok t ∧ (v = .string t ∨ t.IsAscii)) ∨
      (¬v.IsWritable false ∧ ∃ e, format v.lift = .error e) := by
  have hformat : (v.IsWritable false ∧ ∃ t, format v.lift = .ok t) ∨
      (¬v.IsWritable false ∧ ∃ e, format v.lift = .error e) := by
    match v with
    | .null => exact .inl ⟨.null, _, rfl⟩
    | .bool b => exact .inl ⟨.bool b, _, rfl⟩
    | .float x => exact .inl ⟨.float nofun, _, rfl⟩
    | .string t => exact .inl ⟨.string t, _, rfl⟩
    | .int i =>
      rw [Value.IsWritable, Value.allNumbers_int_iff]
      change _ ∧ (∃ t, format (.int i) = _) ∨ _ ∧ ∃ e, format (.int i) = _
      rw [format]
      split
      · next h => exact .inl ⟨h, _, rfl⟩
      · next h => exact .inr ⟨h, _, rfl⟩
    | .array items => exact format_write_cases (by rw [Json.lift_array]; rfl)
    | .object fields => exact format_write_cases (by rw [Json.lift_object]; rfl)
  refine hformat.imp_left fun ⟨hnumbers, t, ht⟩ ↦ ⟨hnumbers, t, ht, ?_⟩
  refine (isAscii_of_format ht).imp_left fun hlift ↦ ?_
  cases v with
  | string u =>
    cases hlift
    rfl
  | other e => exact nomatch e
  | _ => cases hlift

end Argument

/-- Arguments that are JSON. -/
def Arguments.ofJson (fields : Fields Json) : Arguments := fields.mapValues Json.lift

/-- The whole numbers of arguments that are JSON are those of the JSON. -/
theorem Arguments.numbersWithin_ofJson_iff {fields : Fields Json} {limit : Option Nat} :
    (Value.object (Arguments.ofJson fields)).NumbersWithin limit ↔
      (Value.object fields).NumbersWithin limit := by
  rw [ofJson, ← Json.lift_object]
  exact Value.allNumbers_lift_iff (.object fields)

/-- What JSON arguments give is a lifted JSON value. -/
theorem Arguments.exists_of_given? {fields : Fields Json} {name : Text} {v : Argument}
    (h : (ofJson fields).given? name = some v) : ∃ w : Json, v = w.lift := by
  have hget : (ofJson fields).get? name = some v := by
    unfold given? at h
    split at h
    · cases h
    · exact h
  obtain ⟨f, -, hf⟩ := List.mem_map.mp (Fields.mem_of_get? hget)
  cases hf
  exact ⟨f.2, rfl⟩

namespace Query

/-- A text is encoded if they are clean. -/
theorem encodeText?_eq_some_iff {t encoded : Text} :
    encodeText? t = some encoded ↔ t.IsClean ∧ t.flatMap encodeChar = encoded := by
  simp [encodeText?, Text.IsClean]

private theorem exists_encodePair?_iff {pair : Text × Text} :
    (∃ encoded, encodePair? pair = some encoded) ↔ pair.1.IsClean ∧ pair.2.IsClean := by
  simp only [encodePair?, bind, pure, Option.bind_eq_some_iff, encodeText?_eq_some_iff]
  constructor
  · rintro ⟨_, _, ⟨hname, _⟩, _, ⟨htext, _⟩, _⟩
    exact ⟨hname, htext⟩
  · rintro ⟨hname, htext⟩
    exact ⟨_, _, ⟨hname, rfl⟩, _, ⟨htext, rfl⟩, rfl⟩

/-- A query is encoded exactly if all its names and texts are clean. -/
theorem exists_encode?_iff (pairs : List (Text × Text)) :
    (∃ query, encode? pairs = some query) ↔ ∀ t ∈ pairs, t.1.IsClean ∧ t.2.IsClean := by
  have hparts : (∃ parts, pairs.mapM encodePair? = some parts) ↔
      ∀ t ∈ pairs, ∃ encoded, encodePair? t = some encoded := by
    induction pairs with
    | nil => simp
    | cons t rest ih =>
      simp only [List.mapM_cons, bind, pure, Option.bind_eq_some_iff, List.forall_mem_cons, ← ih]
      constructor
      · rintro ⟨_, encoded, hencoded, parts, hparts, _⟩
        exact ⟨⟨encoded, hencoded⟩, parts, hparts⟩
      · rintro ⟨⟨encoded, hencoded⟩, parts, hparts⟩
        exact ⟨_, encoded, hencoded, parts, hparts, rfl⟩
  simp only [exists_encodePair?_iff] at hparts
  rw [← hparts]
  simp only [encode?, bind, pure, Option.bind_eq_some_iff]
  constructor
  · rintro ⟨_, parts, hparts, _⟩
    exact ⟨parts, hparts⟩
  · rintro ⟨parts, hparts⟩
    exact ⟨_, parts, hparts, rfl⟩

end Query

end ApiTools
