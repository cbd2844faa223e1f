import Mathlib.Algebra.Group.Int.Defs
import ApiTools.Proofs.FieldOrder
import ApiTools.Proofs.JsonArguments
import ApiTools.Proofs.JsonRoundTrip

/-!
# The texts of bodies

The canonical bytes of a value are a document from which the value is read back but for the order of
fields, so they are a normal form of the data (`Request.encodeBody_eq_iff`). There are none exactly
if a number of the value cannot be written: one that is not finite, or a whole one of too many
digits. A body is made of the argument of that name or of the arguments that are left for it, and it
is read back as them (`Request.body_read_back`).
-/

namespace ApiTools

namespace Value

variable {ε : Type} {v : Value ε}

/-- Ordering fields neither hides nor adds numbers. -/
theorem allNumbers_sortFields_iff {p : Int → Prop} {q : Double → Prop} (h : v.DistinctNames) :
    v.sortFields.AllNumbers p q ↔ v.AllNumbers p q := by
  induction h with
  | array _ ih =>
    rw [sortFields_array, allNumbers_array_iff, allNumbers_array_iff, List.forall_mem_map]
    exact forall₂_congr ih
  | object _ _ ih =>
    rw [sortFields_object, allNumbers_object_iff, allNumbers_object_iff]
    constructor
    · intro hnumbers f hf
      exact (ih f hf).mp (hnumbers (f.1, f.2.sortFields) (mem_sortFields.mpr ⟨f.2, hf, rfl⟩))
    · intro hnumbers f hf
      obtain ⟨v, hv, hvalue⟩ := mem_sortFields.mp hf
      rw [← hvalue]
      exact (ih _ hv).mpr (hnumbers _ hv)
  | _ => rfl

section Lifting

mutual

/-- Fields are ordered before or after lifting. -/
theorem sortFields_lift (v : Json) :
    (Json.lift v : Value ε).sortFields = Json.lift v.sortFields := by
  match v with
  | .null | .bool _ | .int _ | .float _ | .string _ => rfl
  | .array items =>
    rw [Json.lift_array, sortFields, sortFields, Json.lift_array, sortItems_lift items]
  | .object fields =>
    have hvalues := sortValues_lift fields
    rw [Json.lift_object, sortFields, sortFields, Json.lift_object, hvalues]
    exact congrArg object (Fields.mapValues_sorted Json.lift _).symm

private theorem sortItems_lift (items : List Json) :
    sortItems (items.map Json.lift : List (Value ε)) = (sortItems items).map Json.lift := by
  match items with
  | [] => rfl
  | v :: rest =>
    rw [List.map_cons, sortItems, sortItems, List.map_cons, sortFields_lift v, sortItems_lift rest]

private theorem sortValues_lift (fields : Fields Json) :
    sortValues (fields.mapValues Json.lift : Fields (Value ε)) =
      Fields.mapValues Json.lift (sortValues fields) := by
  match fields with
  | [] => rfl
  | (name, v) :: rest =>
    have hrest := sortValues_lift rest
    rw [Fields.mapValues, Fields.mapValues] at hrest
    rw [Fields.mapValues, Fields.mapValues, List.map_cons, sortValues, sortValues, List.map_cons,
      sortFields_lift v, hrest]

end

end Lifting

end Value

namespace Json

variable {v w : Json}

/-- A value that was written in ASCII is read back from its bytes, if its whole numbers can be
written. -/
theorem decode?_write {style : Style} (hlaw : style.IsLawful) (hascii : style.WritesAscii)
    (h : v.DistinctNames) (hnumbers : v.NumbersWithin (some Text.digitLimit))
    (htexts : v.AllTexts Text.IsJoined) :
    decode? ((write style v).flatMap Encoding.utf8Bytes) = some v := by
  have hparse := parse?_write hlaw h hnumbers fun _ ↦ htexts
  have hwritten := isAscii_write hascii v
  obtain ⟨c, t, htext, -⟩ := exists_writeAt style 0 v
  rw [write, htext] at hparse hwritten ⊢
  have hc := hwritten c List.mem_cons_self
  have ht : ∀ d ∈ t.head?, d.val ≠ 0 := fun d hd ↦
    Nat.ne_of_gt (hwritten d (List.mem_cons_of_mem c (List.mem_of_head? hd))).1
  rw [decode?, Encoding.decode?_flatMap (Nat.ne_of_gt hc.1) hc.2 ht]
  exact hparse

/-- A value as a call is given it: no object has a name twice, and no text holds a surrogate. -/
structure IsWellFormed (v : Json) : Prop where
  distinct : v.DistinctNames
  clean : v.AllTexts Text.IsClean

/-- The bytes of a value in the one form that all values of the same data have. -/
def canonicalBytes (v : Json) : Bytes :=
  (write .compactAscii v.sortFields).flatMap Encoding.utf8Bytes

private theorem IsWellFormed.decode?_canonicalBytes (h : v.IsWellFormed)
    (hwritable : v.IsWritable true) :
    decode? v.canonicalBytes = some v.sortFields := by
  have hnumbers : v.sortFields.NumbersWithin (some Text.digitLimit) :=
    ((Value.allNumbers_sortFields_iff h.distinct).mpr hwritable).imp (fun _ h ↦ h) fun _ _ ↦ trivial
  exact decode?_write Style.isLawful_compactAscii Style.writesAscii_compactAscii
    h.distinct.sortFields hnumbers (h.clean.sortFields.imp fun _ ↦ Text.IsClean.isJoined)

/-- The canonical bytes are those of the data. -/
theorem canonicalBytes_eq_iff (hv : v.IsWellFormed) (hw : w.IsWellFormed)
    (hvwritable : v.IsWritable true) (hwwritable : w.IsWritable true) :
    v.canonicalBytes = w.canonicalBytes ↔ v.SameData w := by
  rw [← Value.sortFields_eq_iff hv.distinct hw.distinct]
  constructor
  · intro h
    have hread := hv.decode?_canonicalBytes hvwritable
    rw [h, hw.decode?_canonicalBytes hwwritable] at hread
    exact (Option.some.inj hread).symm
  · intro h
    rw [canonicalBytes, canonicalBytes, h]

end Json

namespace Request

variable {tool : Tool} {fields : Fields Json}

/-- A value has canonical bytes exactly if its numbers can be written. -/
theorem encodeBody_lift_cases {v : Json} (h : v.DistinctNames) :
    (v.IsWritable true ∧ encodeBody v.lift = .ok v.canonicalBytes) ∨
      (¬v.IsWritable true ∧ ∃ reason, encodeBody v.lift = .error (.body reason)) := by
  have hnumbers : v.sortFields.IsWritable true ↔ v.IsWritable true :=
    Value.allNumbers_sortFields_iff h
  rw [← hnumbers, encodeBody, Value.canonicalText, Value.sortFields_lift]
  rcases @Value.toJson_lift_cases Bytes true v.sortFields with
    ⟨hwritable, hread⟩ | ⟨hwritable, reason, hread⟩
  · exact .inl ⟨hwritable, by rw [hread]; rfl⟩
  · exact .inr ⟨hwritable, reason, by rw [hread]; rfl⟩

/-- The bytes of values whose numbers can be written agree exactly if the values are the same
data. -/
theorem encodeBody_eq_iff {v w : Json} (hv : v.IsWellFormed) (hw : w.IsWellFormed)
    (hvwritable : v.IsWritable true) (hwwritable : w.IsWritable true) :
    ∃ b c, encodeBody v.lift = .ok b ∧ encodeBody w.lift = .ok c ∧ (b = c ↔ v.SameData w) := by
  have hiff := Json.canonicalBytes_eq_iff hv hw hvwritable hwwritable
  rcases encodeBody_lift_cases hv.distinct with ⟨-, hb⟩ | ⟨hnot, -⟩
  · rcases encodeBody_lift_cases hw.distinct with ⟨-, hc⟩ | ⟨hnot, -⟩
    · exact ⟨_, _, hb, hc, hiff⟩
    · exact absurd hwwritable hnot
  · exact absurd hvwritable hnot

/-- A body is read back as some data, or is refused for a number in it that cannot be written. -/
def Carries (body : Except RequestError (Option Bytes)) (v : Json) : Prop :=
  (v.IsWritable true ∧ ∃ b w, body = .ok (some b) ∧ Json.decode? b = some w ∧ w.SameData v) ∨
    (¬v.IsWritable true ∧ ∃ reason, body = .error (.body reason))

private theorem carries_encodeBody {v : Json} (h : v.IsWellFormed) :
    Carries ((encodeBody v.lift).map some) v := by
  rcases encodeBody_lift_cases h.distinct with ⟨hwritable, hencode⟩ | ⟨hwritable, reason, hencode⟩
  · refine .inl ⟨hwritable, v.canonicalBytes, v.sortFields, by rw [hencode]; rfl, ?_, ?_⟩
    · exact h.decode?_canonicalBytes hwritable
    · exact Value.sameData_sortFields h.distinct
  · exact .inr ⟨hwritable, reason, by rw [hencode]; rfl⟩

section Parts

private theorem given?_ofJson (fields : Fields Json) (name : Text) :
    (Arguments.ofJson fields).given? name =
      ((fields.get? name).filter (· ≠ .null)).map Json.lift := by
  rw [Arguments.given?, Arguments.ofJson, Fields.get?_mapValues]
  cases fields.get? name with
  | none => rfl
  | some v =>
    cases v with
    | other e => exact e.elim
    | _ => rfl

private theorem given?_of_null {name : Text}
    (h : fields.get? name = none ∨ fields.get? name = some .null) :
    (Arguments.ofJson fields).given? name = none := by
  rw [given?_ofJson]
  rcases h with hget | hget <;> rw [hget] <;> rfl

private theorem given?_of_get? {name : Text} {v : Json} (hget : fields.get? name = some v)
    (hnull : v ≠ .null) : (Arguments.ofJson fields).given? name = some v.lift := by
  rw [given?_ofJson, hget, Option.filter_some, if_pos (decide_eq_true hnull), Option.map_some]

/-- The arguments that are left for a body: those that are not null and that no path or query
parameter claims. -/
def remaining (tool : Tool) (fields : Fields Json) : Fields Json :=
  let claimed := (tool.parametersIn [Location.path, Location.query]).map (·.name)
  fields.filter fun f ↦ f.1 ∉ claimed ∧ f.2 ≠ .null

private theorem unclaimed_ofJson (tool : Tool) (fields : Fields Json) :
    unclaimed tool (.ofJson fields) = .ofJson (remaining tool fields) := by
  rw [unclaimed, Arguments.ofJson, Arguments.ofJson, Fields.mapValues, Fields.mapValues,
    List.filter_map, remaining]
  congr 1
  apply List.filter_congr
  rintro ⟨name, v⟩ -
  cases v with
  | other e => exact e.elim
  | _ => simp [Json.lift, Value.mapOther]

private theorem isWellFormed_remaining (h : Json.IsWellFormed (.object fields)) (tool : Tool) :
    Json.IsWellFormed (.object (remaining tool fields)) := by
  have hmem : ∀ f ∈ remaining tool fields, f ∈ fields := fun f ↦ List.mem_of_mem_filter
  obtain ⟨hdistinct, hvalues⟩ := Value.distinctNames_object_iff.mp h.distinct
  cases h.clean with
  | object hnames htexts =>
    refine ⟨.object ?_ fun f hf ↦ hvalues f (hmem f hf),
      .object (fun f hf ↦ hnames f (hmem f hf)) fun f hf ↦ htexts f (hmem f hf)⟩
    exact hdistinct.sublist (List.filter_sublist.map _)

private theorem isWellFormed_of_get? (h : Json.IsWellFormed (.object fields)) {name : Text}
    {v : Json}
    (hget : fields.get? name = some v) : v.IsWellFormed := by
  have hmem := Fields.mem_of_get? hget
  obtain ⟨-, hvalues⟩ := Value.distinctNames_object_iff.mp h.distinct
  cases h.clean with
  | object _ htexts => exact ⟨hvalues _ hmem, htexts _ hmem⟩

private theorem buildBody_of_null
    (hmissing : fields.get? "body" = none ∨ fields.get? "body" = some .null)
    (hremaining : remaining tool fields = []) : buildBody tool (.ofJson fields) = .ok none := by
  refine buildBody_eq_none fun _ ↦ ⟨given?_of_null hmissing, ?_⟩
  rw [unclaimed_ofJson, hremaining]
  rfl

private theorem carries_of_missing (hbody : tool.hasBody = true)
    (h : Json.IsWellFormed (.object fields))
    (hmissing : fields.get? "body" = none ∨ fields.get? "body" = some .null)
    (hremaining : remaining tool fields ≠ []) :
    Carries (buildBody tool (.ofJson fields)) (.object (remaining tool fields)) := by
  have hunclaimed : unclaimed tool (.ofJson fields) ≠ [] := by
    rw [unclaimed_ofJson]
    exact fun hnil ↦ hremaining (List.map_eq_nil_iff.mp hnil)
  rw [buildBody_of_missing hbody (given?_of_null hmissing) hunclaimed, unclaimed_ofJson,
    Arguments.ofJson,
    ← Json.lift_object]
  exact carries_encodeBody (isWellFormed_remaining h tool)

private theorem carries_of_given (hbody : tool.hasBody = true)
    (h : Json.IsWellFormed (.object fields))
    {v : Json} (hget : fields.get? "body" = some v) (hnull : v ≠ .null)
    (hstring : ∀ t, v ≠ .string t) : Carries (buildBody tool (.ofJson fields)) v := by
  have hsent : sentBody v.lift = encodeBody v.lift := by
    cases v with
    | string t => exact absurd rfl (hstring t)
    | other e => exact e.elim
    | _ => rfl
  rw [buildBody_of_given hbody (given?_of_get? hget hnull), hsent]
  exact carries_encodeBody (isWellFormed_of_get? h hget)

private theorem buildBody_of_string (hbody : tool.hasBody = true)
    (h : Json.IsWellFormed (.object fields)) {t : Text}
    (hget : fields.get? "body" = some (.string t)) :
    ∃ b, Encoding.encodeUtf8? t = some b ∧ buildBody tool (.ofJson fields) = .ok (some b) := by
  have hclean : t.IsClean := by
    cases (isWellFormed_of_get? h hget).clean
    assumption
  have hencode : Encoding.encodeUtf8? t = some (t.flatMap Encoding.utf8Bytes) := by
    simpa [Encoding.encodeUtf8?, Text.IsClean] using hclean
  have hnull : (.string t : Json) ≠ .null := by
    intro h
    cases h
  refine ⟨_, hencode, ?_⟩
  rw [buildBody_of_given hbody (given?_of_get? hget hnull), Json.lift, Value.mapOther, sentBody,
    hencode]
  rfl

end Parts

/-- Where a tool has a body, a call without an argument of that name sends the object of the
arguments that are left, or nothing if none are. A string is sent as its UTF-8 bytes, and every
other argument as itself. What is sent is read back but for the order of fields, and refused exactly
if a number in it is not finite or is whole and of too many digits. The bytes of two values agree
exactly if the values are the same data, the two zeros being told apart. -/
theorem body_read_back (hbody : tool.hasBody = true) (h : Json.IsWellFormed (.object fields)) :
    ((fields.get? "body" = none ∨ fields.get? "body" = some .null) →
      (remaining tool fields = [] → buildBody tool (.ofJson fields) = .ok none) ∧
      (remaining tool fields ≠ [] →
        Carries (buildBody tool (.ofJson fields)) (.object (remaining tool fields)))) ∧
    (∀ t, fields.get? "body" = some (.string t) →
      ∃ b, Encoding.encodeUtf8? t = some b ∧ buildBody tool (.ofJson fields) = .ok (some b)) ∧
    (∀ v, fields.get? "body" = some v → v ≠ .null → (∀ t, v ≠ .string t) →
      Carries (buildBody tool (.ofJson fields)) v) ∧
    ∀ v w : Json, v.IsWellFormed → w.IsWellFormed → v.IsWritable true → w.IsWritable true →
      ∃ b c, encodeBody v.lift = .ok b ∧ encodeBody w.lift = .ok c ∧ (b = c ↔ v.SameData w) := by
  refine ⟨fun hmissing ↦ ⟨?_, ?_⟩, ?_, ?_, ?_⟩
  · exact buildBody_of_null hmissing
  · exact carries_of_missing hbody h hmissing
  · exact fun t hget ↦ buildBody_of_string hbody h hget
  · exact fun v hget ↦ carries_of_given hbody h hget
  · exact fun v w ↦ encodeBody_eq_iff

/-- What is left for the body of a call with a path parameter, a header and a null, and two orders
of its fields. -/
theorem body_read_back_remaining :
    let tool : Tool := ⟨"putItem", "Puts", "/items/\x7bid\x7d", "PUT",
      [{ name := "id", sanitizedName := "id", location := Location.path },
        { name := "X-A", sanitizedName := "X_A", location := Location.header }], true, false, none⟩
    let fields : Fields Json := [("id", .int 7), ("X-A", .string "t"), ("note", .null),
      ("c", .bool true)]
    let left : Fields Json := [("X-A", .string "t"), ("c", .bool true)]
    remaining tool fields = left ∧ Carries (buildBody tool (.ofJson fields)) (.object left) ∧
      ∃ b, encodeBody (Json.lift (.object left)) = .ok b ∧
        encodeBody (Json.lift (.object left.reverse)) = .ok b := by
  intro tool fields left
  have hremaining : remaining tool fields = left := by decide
  have hfields : Json.IsWellFormed (.object fields) := by
    refine ⟨.object (by decide) ?_, .object (by decide) ?_⟩ <;> intro f hf <;>
      simp only [fields, List.mem_cons, List.not_mem_nil, or_false] at hf <;>
      rcases hf with rfl | rfl | rfl | rfl
    exacts [.int 7, .string _, .null, .bool true, .int 7, .string (by decide), .null, .bool true]
  have hleft : Json.IsWellFormed (.object left) := by
    rw [← hremaining]
    exact isWellFormed_remaining hfields tool
  have hreverse : Json.IsWellFormed (.object left.reverse) := by
    refine ⟨.object (by decide) ?_, .object (by decide) ?_⟩ <;> intro f hf <;>
      simp only [left, List.mem_reverse, List.mem_cons, List.not_mem_nil, or_false] at hf <;>
      rcases hf with rfl | rfl
    exacts [.string _, .bool true, .string (by decide), .bool true]
  have hwritable : ∀ f ∈ left, f.2.IsWritable true := by
    intro f hf
    simp only [left, List.mem_cons, List.not_mem_nil, or_false] at hf
    rcases hf with rfl | rfl
    exacts [.string _, .bool true]
  have hsame : (Value.object left : Json).SameData (.object left.reverse) := by
    rw [← Value.sortFields_eq_iff hleft.distinct hreverse.distinct]
    exact Value.sortFields_object_perm (by decide) (List.reverse_perm left).symm
  obtain ⟨hmissing, -, -, hbytes⟩ := @body_read_back tool fields rfl hfields
  obtain ⟨b, c, hb, hc, hiff⟩ := hbytes (.object left) (.object left.reverse) hleft hreverse
    (.object hwritable) (.object fun f hf ↦ hwritable f (List.mem_reverse.mp hf))
  refine ⟨hremaining, ?_, b, hb, ?_⟩
  · rw [← hremaining]
    exact (hmissing (.inl rfl)).2 (by rw [hremaining]; exact nofun)
  · rw [hiff.mpr hsame]
    exact hc

private theorem isShort_pow_digitLimit : Text.isShort (10 ^ Text.digitLimit) = false := by
  have hten : (10 : Int).natAbs = 10 := rfl
  rw [Bool.eq_false_iff, ne_eq, Text.isShort_iff, Int.natAbs_pow, hten]
  exact Nat.lt_irrefl _

/-- Two doubles that are the same number have different bytes, and a body without any double is
refused for the number of its digits. -/
theorem body_of_zeros_and_digits :
    ((Double.zero false).sameNumber (.zero true) = true ∧
      encodeBody (.float (.zero false)) = .ok ((Text.ofString "0.0").flatMap Encoding.utf8Bytes) ∧
      encodeBody (.float (.zero true)) = .ok ((Text.ofString "-0.0").flatMap Encoding.utf8Bytes) ∧
      (Text.ofString "0.0").flatMap Encoding.utf8Bytes ≠
        (Text.ofString "-0.0").flatMap Encoding.utf8Bytes) ∧
    encodeBody (.object [("n", .int (10 ^ Text.digitLimit))]) = .error (.body .longNumber) := by
  refine ⟨⟨by decide, by decide +kernel, by decide +kernel, by decide⟩, ?_⟩
  have hread : (Value.object [(Text.ofString "n", .int (10 ^ Text.digitLimit))] : Argument).toJson
      true = .error .longNumber := by
    rw [Value.toJson, Value.toJsonFields, Value.toJson, isShort_pow_digitLimit]
    rfl
  rw [encodeBody, Value.canonicalText, Value.sortFields, Value.sortValues, Value.sortValues,
    List.mergeSort_singleton]
  dsimp only [Value.sortFields]
  rw [hread]
  rfl

end Request

end ApiTools
