import Mathlib.Data.List.TakeDrop
import Mathlib.Data.List.TakeWhile
import ApiTools.Json.Reader
import ApiTools.Proofs.DecimalNotation
import ApiTools.Proofs.Fields

/-!
# Names and numbers at all depths

An object may be given a name twice, and then its fields are not those of any document. What the
reader gives has distinct names in every object, and whole numbers of no more digits than it was
told to accept: it has every property that the reader keeps from the parts of a value to the whole
(`ReadProperty.of_parse?`).
-/

namespace ApiTools

namespace Value

variable {ε : Type}

/-- No object of a value has two fields of one name. -/
inductive DistinctNames : Value ε → Prop where
  | null : DistinctNames .null
  | bool (b : Bool) : DistinctNames (.bool b)
  | int (i : Int) : DistinctNames (.int i)
  | float (x : Double) : DistinctNames (.float x)
  | string (t : Text) : DistinctNames (.string t)
  | array {items : List (Value ε)} : (∀ v ∈ items, DistinctNames v) → DistinctNames (.array items)
  | object {fields : Fields (Value ε)} : fields.Distinct → (∀ f ∈ fields, DistinctNames f.2) →
      DistinctNames (.object fields)
  | other (e : ε) : DistinctNames (.other e)

/-- Every text of a value has a property, the names of fields included. -/
inductive AllTexts (p : Text → Prop) : Value ε → Prop where
  | null : AllTexts p .null
  | bool (b : Bool) : AllTexts p (.bool b)
  | int (i : Int) : AllTexts p (.int i)
  | float (x : Double) : AllTexts p (.float x)
  | string {t : Text} : p t → AllTexts p (.string t)
  | array {items : List (Value ε)} : (∀ v ∈ items, AllTexts p v) → AllTexts p (.array items)
  | object {fields : Fields (Value ε)} : (∀ f ∈ fields, p f.1) → (∀ f ∈ fields, AllTexts p f.2) →
      AllTexts p (.object fields)
  | other (e : ε) : AllTexts p (.other e)

/-- The whole numbers of a value have a property, and its doubles have another one. -/
inductive AllNumbers (p : Int → Prop) (q : Double → Prop) : Value ε → Prop where
  | null : AllNumbers p q .null
  | bool (b : Bool) : AllNumbers p q (.bool b)
  | int {i : Int} : p i → AllNumbers p q (.int i)
  | float {x : Double} : q x → AllNumbers p q (.float x)
  | string (t : Text) : AllNumbers p q (.string t)
  | array {items : List (Value ε)} : (∀ v ∈ items, AllNumbers p q v) →
      AllNumbers p q (.array items)
  | object {fields : Fields (Value ε)} : (∀ f ∈ fields, AllNumbers p q f.2) →
      AllNumbers p q (.object fields)
  | other (e : ε) : AllNumbers p q (.other e)

/-- The whole numbers of a value have no more digits than a limit, if there is one. -/
def NumbersWithin (limit : Option Nat) (v : Value ε) : Prop :=
  v.AllNumbers (fun i ↦ Text.isWithin limit (Text.ofNat i.natAbs) = true) fun _ ↦ True

/-- The names in a list are distinct if those in each item are. -/
theorem distinctNames_array_iff {items : List (Value ε)} :
    (array items).DistinctNames ↔ ∀ v ∈ items, v.DistinctNames :=
  ⟨fun h ↦ by cases h; assumption, .array⟩

/-- The names in an object are distinct if its own ones are, and those in each of its values. -/
theorem distinctNames_object_iff {fields : Fields (Value ε)} :
    (object fields).DistinctNames ↔ fields.Distinct ∧ ∀ f ∈ fields, f.2.DistinctNames :=
  ⟨fun h ↦ by cases h; exact ⟨‹_›, ‹_›⟩, fun h ↦ .object h.1 h.2⟩

/-- The only text of a text is itself. -/
theorem allTexts_string_iff {p : Text → Prop} {t : Text} :
    (string t : Value ε).AllTexts p ↔ p t :=
  ⟨fun h ↦ by cases h; assumption, .string⟩

/-- The texts of a list are those of its items. -/
theorem allTexts_array_iff {p : Text → Prop} {items : List (Value ε)} :
    (array items).AllTexts p ↔ ∀ v ∈ items, v.AllTexts p :=
  ⟨fun h ↦ by cases h; assumption, .array⟩

/-- The texts of an object are its names and those of its values. -/
theorem allTexts_object_iff {p : Text → Prop} {fields : Fields (Value ε)} :
    (object fields).AllTexts p ↔ ∀ f ∈ fields, p f.1 ∧ f.2.AllTexts p :=
  ⟨fun h ↦ by cases h with | object hnames hvalues => exact fun f hf ↦ ⟨hnames f hf, hvalues f hf⟩,
    fun h ↦ .object (fun f hf ↦ (h f hf).1) fun f hf ↦ (h f hf).2⟩

/-- The only number of a whole number is itself. -/
theorem allNumbers_int_iff {p : Int → Prop} {q : Double → Prop} {i : Int} :
    (int i : Value ε).AllNumbers p q ↔ p i :=
  ⟨fun h ↦ by cases h; assumption, .int⟩

/-- The only number of a double is itself. -/
theorem allNumbers_float_iff {p : Int → Prop} {q : Double → Prop} {x : Double} :
    (float x : Value ε).AllNumbers p q ↔ q x :=
  ⟨fun h ↦ by cases h; assumption, .float⟩

/-- The numbers of a list are those of its items. -/
theorem allNumbers_array_iff {p : Int → Prop} {q : Double → Prop} {items : List (Value ε)} :
    (array items).AllNumbers p q ↔ ∀ v ∈ items, v.AllNumbers p q :=
  ⟨fun h ↦ by cases h; assumption, .array⟩

/-- The numbers of an object are those of its values. -/
theorem allNumbers_object_iff {p : Int → Prop} {q : Double → Prop} {fields : Fields (Value ε)} :
    (object fields).AllNumbers p q ↔ ∀ f ∈ fields, f.2.AllNumbers p q :=
  ⟨fun h ↦ by cases h; assumption, .object⟩

/-- What all numbers are, they are with less asked of them. -/
theorem AllNumbers.imp {p p' : Int → Prop} {q q' : Double → Prop} {v : Value ε}
    (hp : ∀ i, p i → p' i) (hq : ∀ x, q x → q' x) (h : v.AllNumbers p q) :
    v.AllNumbers p' q' := by
  induction h with
  | int hi => exact .int (hp _ hi)
  | float hx => exact .float (hq _ hx)
  | array _ ih => exact .array ih
  | object _ ih => exact .object ih
  | _ => constructor

/-- All whole numbers are within no limit. -/
theorem DistinctNames.numbersWithin_none {v : Value ε} (h : v.DistinctNames) :
    v.NumbersWithin none := by
  induction h with
  | int i => exact .int rfl
  | float x => exact .float trivial
  | array _ ih => exact .array ih
  | object _ _ ih => exact .object ih
  | _ => constructor

mutual

/-- A value holds no long number exactly if its whole numbers have no more digits than are
written. -/
theorem holdsLong_eq_false_iff (v : Value ε) :
    v.holdsLong = false ↔ v.NumbersWithin (some Text.digitLimit) := by
  match v with
  | .null => exact iff_of_true rfl .null
  | .bool b => exact iff_of_true rfl (.bool b)
  | .float x => exact iff_of_true rfl (.float trivial)
  | .string t => exact iff_of_true rfl (.string t)
  | .other e => exact iff_of_true rfl (.other e)
  | .int i =>
    rw [holdsLong, Bool.not_eq_false', NumbersWithin, allNumbers_int_iff, Text.isShort]
  | .array items =>
    rw [holdsLong, holdsLongItems_eq_false_iff items]
    exact allNumbers_array_iff.symm
  | .object fields =>
    rw [holdsLong, holdsLongFields_eq_false_iff fields]
    exact allNumbers_object_iff.symm

private theorem holdsLongItems_eq_false_iff (items : List (Value ε)) :
    holdsLongItems items = false ↔ ∀ v ∈ items, v.NumbersWithin (some Text.digitLimit) := by
  match items with
  | [] => exact iff_of_true rfl nofun
  | v :: rest =>
    rw [holdsLongItems, Bool.or_eq_false_iff, List.forall_mem_cons, holdsLong_eq_false_iff v,
      holdsLongItems_eq_false_iff rest]

private theorem holdsLongFields_eq_false_iff (fields : List (Text × Value ε)) :
    holdsLongFields fields = false ↔ ∀ f ∈ fields, f.2.NumbersWithin (some Text.digitLimit) := by
  match fields with
  | [] => exact iff_of_true rfl nofun
  | (name, v) :: rest =>
    rw [holdsLongFields, Bool.or_eq_false_iff, List.forall_mem_cons, holdsLong_eq_false_iff v,
      holdsLongFields_eq_false_iff rest]

end

/-- What all texts are, they are with less asked of them. -/
theorem AllTexts.imp {p q : Text → Prop} {v : Value ε} (hpq : ∀ t, p t → q t)
    (h : v.AllTexts p) : v.AllTexts q := by
  induction h with
  | string ht => exact .string (hpq _ ht)
  | array _ ih => exact .array ih
  | object hnames _ ih => exact .object (fun f hf ↦ hpq _ (hnames f hf)) ih
  | _ => constructor

end Value

namespace Json

/-- A property that a value has when it is read within a limit for whole numbers and its parts have
the property. -/
structure ReadProperty (limit : Option Nat) (p : Json → Prop) : Prop where
  null : p .null
  bool (b : Bool) : p (.bool b)
  int {i : Int} : Text.isWithin limit (Text.ofNat i.natAbs) = true → p (.int i)
  float (x : Double) : p (.float x)
  string (t : Text) : p (.string t)
  array {items : List Json} : (∀ v ∈ items, p v) → p (.array items)
  object {fields : Fields Json} : fields.Distinct → (∀ f ∈ fields, p f.2) → p (.object fields)

/-- Such a property that the parts of a value have exactly if the value has it. -/
structure DocumentProperty (limit : Option Nat) (p : Json → Prop) : Prop
    extends ReadProperty limit p where
  items {items : List Json} : p (.array items) → ∀ v ∈ items, p v
  distinct {fields : Fields Json} : p (.object fields) → fields.Distinct
  fields {fields : Fields Json} : p (.object fields) → ∀ f ∈ fields, p f.2

/-- Distinct names are such a property. -/
theorem documentProperty_distinctNames (limit : Option Nat) :
    DocumentProperty limit Value.DistinctNames where
  null := .null
  bool := .bool
  int _ := .int _
  float := .float
  string := .string
  array := .array
  object := .object
  items := Value.distinctNames_array_iff.mp
  distinct h := (Value.distinctNames_object_iff.mp h).1
  fields h := (Value.distinctNames_object_iff.mp h).2

/-- So are, with them, whole numbers within the limit. -/
theorem documentProperty_numbersWithin (limit : Option Nat) :
    DocumentProperty limit fun v ↦ v.DistinctNames ∧ v.NumbersWithin limit where
  null := ⟨.null, .null⟩
  bool b := ⟨.bool b, .bool b⟩
  int h := ⟨.int _, .int h⟩
  float x := ⟨.float x, .float trivial⟩
  string t := ⟨.string t, .string t⟩
  array h := ⟨.array fun v hv ↦ (h v hv).1, .array fun v hv ↦ (h v hv).2⟩
  object hdistinct h :=
    ⟨.object hdistinct fun f hf ↦ (h f hf).1, .object fun f hf ↦ (h f hf).2⟩
  items h v hv :=
    ⟨Value.distinctNames_array_iff.mp h.1 v hv, Value.allNumbers_array_iff.mp h.2 v hv⟩
  distinct h := (Value.distinctNames_object_iff.mp h.1).1
  fields h f hf :=
    ⟨(Value.distinctNames_object_iff.mp h.1).2 f hf, Value.allNumbers_object_iff.mp h.2 f hf⟩

private theorem isDigits_of_wholePart? {t whole rest : Text}
    (h : wholePart? t = some (whole, rest)) : whole.IsDigits ∧ whole ≠ [] := by
  unfold wholePart? at h
  split at h
  · split at h
    · next hzero =>
      cases h
      rw [hzero]
      exact ⟨by decide, by decide⟩
    · split at h
      · next c t _ hdigit =>
        rw [digits, List.span_eq_takeWhile_dropWhile] at h
        cases h
        refine ⟨fun d hd ↦ List.mem_takeWhile_imp hd, ?_⟩
        rw [List.takeWhile_cons_of_pos hdigit]
        exact List.cons_ne_nil _ _
      · cases h
  · cases h

/-- A number that was read within a limit is written within it. -/
private theorem isWithin_of_digits {limit : Option Nat} {digits : Text} (h : digits.IsDigits)
    (hne : digits ≠ []) (hwithin : Text.isWithin limit digits = true) :
    Text.isWithin limit (Text.ofNat (Text.digitsValue digits)) = true := by
  cases limit with
  | none => rfl
  | some most =>
    rw [Text.isWithin, Option.all_some, decide_eq_true_iff] at hwithin ⊢
    exact Nat.le_trans (Text.length_ofNat_digitsValue_le h hne) hwithin

namespace ReadProperty

variable {limit : Option Nat} {p : Json → Prop} {fuel : Nat} {t rest : Text}

private theorem of_unsigned? (hp : ReadProperty limit p) {negative : Bool} {v : Json}
    (h : unsigned? limit negative t = some (v, rest)) : p v := by
  obtain ⟨⟨whole, behind⟩, hwhole, h⟩ := Option.bind_eq_some_iff.mp h
  dsimp only at h
  cases hexponent : exponent? (fraction behind).2 with
  | some e =>
    rw [hexponent] at h
    cases h
    exact hp.float _
  | none =>
    rw [hexponent] at h
    dsimp only at h
    split at h
    · split at h
      · next hwithin =>
        cases h
        obtain ⟨hdigits, hne⟩ := isDigits_of_wholePart? hwhole
        refine hp.int ?_
        cases negative <;> simpa using isWithin_of_digits hdigits hne hwithin
      · cases h
    · cases h
      exact hp.float _

private theorem of_scalar? (hp : ReadProperty limit p) {v : Json}
    (h : scalar? limit t = some (v, rest)) : p v := by
  unfold scalar? at h
  split at h
  · next word w hfind =>
    cases h
    have hmem := List.mem_of_find?_eq_some hfind
    simp only [words, List.mem_cons, Prod.mk.injEq, List.not_mem_nil, or_false] at hmem
    rcases hmem with ⟨-, rfl⟩ | ⟨-, rfl⟩ | ⟨-, rfl⟩ | ⟨-, rfl⟩ | ⟨-, rfl⟩ | ⟨-, rfl⟩
    · exact hp.null
    · exact hp.bool _
    · exact hp.bool _
    · exact hp.float _
    · exact hp.float _
    · exact hp.float _
  · split at h
    · split at h
      · exact hp.of_unsigned? h
      · exact hp.of_unsigned? h
    · cases h

/-- What the three nested readers give within a number of steps has a property. -/
structure Reads (limit : Option Nat) (p : Json → Prop) (fuel : Nat) : Prop where
  value {t rest v} : value? limit fuel t = some (v, rest) → p v
  items {t rest vs} : items? limit fuel t = some (vs, rest) → ∀ v ∈ vs, p v
  members {t rest fs} : members? limit fuel t = some (fs, rest) → ∀ f ∈ fs, p f.2

private theorem value_succ (hp : ReadProperty limit p) (ih : Reads limit p fuel) {v : Json}
    (h : value? limit (fuel + 1) t = some (v, rest)) : p v := by
  rw [value?.eq_def] at h
  dsimp only at h
  split at h
  · cases h
  split at h
  · obtain ⟨⟨s, behind⟩, -, hs⟩ := Option.map_eq_some_iff.mp h
    cases hs
    exact hp.string s
  split at h
  · split at h
    · cases h
    split at h
    · cases h
      exact hp.array nofun
    · obtain ⟨⟨vs, behind⟩, hitems, hvs⟩ := Option.map_eq_some_iff.mp h
      cases hvs
      exact hp.array (ih.items hitems)
  split at h
  · split at h
    · cases h
    split at h
    · cases h
      exact hp.object List.nodup_nil nofun
    · obtain ⟨⟨fs, behind⟩, hmembers, hfs⟩ := Option.map_eq_some_iff.mp h
      cases hfs
      exact hp.object (Fields.distinct_ofList fs) fun f hf ↦
        ih.members hmembers f (Fields.mem_of_mem_ofList hf)
  · exact hp.of_scalar? h

private theorem items_succ (ih : Reads limit p fuel) {vs : List Json}
    (h : items? limit (fuel + 1) t = some (vs, rest)) : ∀ v ∈ vs, p v := by
  rw [items?] at h
  obtain ⟨⟨v, behind⟩, hvalue, h⟩ := Option.bind_eq_some_iff.mp h
  have hv := ih.value hvalue
  dsimp only at h
  split at h
  · cases h
  split at h
  · cases h
    simpa using hv
  split at h
  · obtain ⟨⟨ws, last⟩, hitems, h⟩ := Option.bind_eq_some_iff.mp h
    cases h
    exact List.forall_mem_cons.mpr ⟨hv, ih.items hitems⟩
  · cases h

private theorem members_succ (ih : Reads limit p fuel) {fs : Fields Json}
    (h : members? limit (fuel + 1) t = some (fs, rest)) : ∀ f ∈ fs, p f.2 := by
  rw [members?.eq_def] at h
  dsimp only at h
  split at h
  · cases h
  split at h
  · obtain ⟨⟨name, behind⟩, -, h⟩ := Option.bind_eq_some_iff.mp h
    dsimp only at h
    split at h
    · cases h
    split at h
    · obtain ⟨⟨v, behind⟩, hvalue, h⟩ := Option.bind_eq_some_iff.mp h
      have hv := ih.value hvalue
      dsimp only at h
      split at h
      · cases h
      split at h
      · cases h
        simpa using hv
      split at h
      · obtain ⟨⟨gs, last⟩, hmembers, h⟩ := Option.bind_eq_some_iff.mp h
        cases h
        exact List.forall_mem_cons.mpr ⟨hv, ih.members hmembers⟩
      · cases h
    · cases h
  · cases h

private theorem reads (hp : ReadProperty limit p) (fuel : Nat) : Reads limit p fuel := by
  induction fuel with
  | zero =>
    refine ⟨fun h ↦ ?_, fun h ↦ ?_, fun h ↦ ?_⟩
    · rw [value?] at h
      cases h
    · rw [items?] at h
      cases h
    · rw [members?] at h
      cases h
  | succ fuel ih => exact ⟨hp.value_succ ih, items_succ ih, members_succ ih⟩

/-- A value that was read has every such property. -/
theorem of_parse? (hp : ReadProperty limit p) {v : Json} (h : parse? t limit = some v) : p v := by
  obtain ⟨⟨w, rest⟩, hvalue, h⟩ := Option.bind_eq_some_iff.mp h
  dsimp only at h
  split at h
  · cases h
    exact (hp.reads _).value hvalue
  · cases h

end ReadProperty

/-- The value of a document has distinct names. -/
theorem distinctNames_of_decode? {bytes : Bytes} {v : Json} (h : decode? bytes = some v) :
    v.DistinctNames := by
  obtain ⟨t, -, h⟩ := Option.bind_eq_some_iff.mp h
  exact (documentProperty_distinctNames _).of_parse? h

/-- Its whole numbers can all be written. -/
theorem numbersWithin_of_decode? {bytes : Bytes} {v : Json} (h : decode? bytes = some v) :
    v.NumbersWithin (some Text.digitLimit) := by
  obtain ⟨t, -, h⟩ := Option.bind_eq_some_iff.mp h
  exact ((documentProperty_numbersWithin _).of_parse? h).2

end Json

end ApiTools
