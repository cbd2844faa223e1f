import ApiTools.Proofs.AsciiTexts
import ApiTools.Proofs.NormalDocuments

/-!
# Documents that can be written

Where code points are written as they are, the text of a value holds a surrogate exactly if one of
its texts does (`Json.isClean_write_iff`). The normal form of a document has no texts but those of
the document and two of its own (`Place.allTexts_normal`). So bytes have a normal form exactly if
they are an object without surrogates in what is left of it, and are refused as malformed exactly if
they are no object (`normalize_ok_iff_isClean`).
-/

namespace ApiTools

/-- Two texts hold no surrogate together exactly if neither does. -/
theorem Text.isClean_append_iff {t u : Text} : (t ++ u).IsClean ↔ t.IsClean ∧ u.IsClean :=
  List.forall_mem_append

namespace Json

open Text (isClean_append_iff)

/-- A style that writes code points beyond ASCII as they are. -/
structure Style.WritesPlain (style : Style) : Prop where
  asciiOnly : style.asciiOnly = false
  separator : style.separator.IsAscii
  colon : style.colon.IsAscii

/-- The compact style writes texts as they are. -/
theorem Style.writesPlain_compact : compact.WritesPlain := ⟨rfl, by decide, by decide⟩

/-- Beyond ASCII a code point is written as it is. -/
theorem escape_of_le {c : CodePoint} (h : 0x80 ≤ c.val) : escape false c = [c] := by
  have hne : ∀ d : Char, d.toNat < 0x80 → c ≠ CodePoint.ofChar d := by
    rintro d hd rfl
    exact Nat.not_lt.mpr h hd
  have hval : ¬c.val = 8 ∧ ¬c.val = 12 ∧ ¬c.val < 0x20 := by omega
  simp only [escape, hne '"' (by decide), hne '\\' (by decide), hne '\n' (by decide),
    hne '\r' (by decide), hne '\t' (by decide), hval.1, hval.2.1, hval.2.2, Bool.false_eq_true,
    false_and, ↓reduceIte]

/-- In ASCII a code point is written in ASCII. -/
theorem isAscii_escape_of_lt {c : CodePoint} (h : c.val < 0x80) : (escape false c).IsAscii := by
  unfold escape
  iterate 7
    split
    · decide
  split
  · exact isAscii_numericEscape c
  · next hsmall =>
    rw [if_neg fun h ↦ Bool.false_ne_true h.1]
    exact .cons (by omega) nofun

private theorem isClean_escape_iff (c : CodePoint) :
    Text.IsClean (escape false c) ↔ c.isSurrogate = false := by
  by_cases h : 0x80 ≤ c.val
  · rw [escape_of_le h]
    exact List.forall_mem_singleton
  · refine iff_of_true (isAscii_escape_of_lt (by omega)).isClean ?_
    exact CodePoint.isSurrogate_eq_false_iff.mpr (.inl (by omega))

private theorem isClean_quote_iff (t : Text) : (quote false t).IsClean ↔ t.IsClean := by
  have hmark : Text.IsClean "\"" := by decide
  have hbody : Text.IsClean (t.flatMap (escape false)) ↔ t.IsClean := by
    unfold Text.IsClean
    rw [List.forall_mem_flatMap]
    exact forall₂_congr fun c _ ↦ isClean_escape_iff c
  simp only [quote, isClean_append_iff, hbody, hmark, true_and, and_true]

section Values

variable {style : Style}

mutual

private theorem isClean_writeAt_iff (h : style.WritesPlain) (level : Nat) (v : Json) :
    (writeAt style level v).IsClean ↔ v.AllTexts Text.IsClean := by
  have hbreak : ∀ n, (style.lineBreak n).IsClean := fun n ↦ (style.isAscii_lineBreak n).isClean
  have hquote : ∀ t, (quote style.asciiOnly t).IsClean ↔ t.IsClean := by
    rw [h.asciiOnly]
    exact isClean_quote_iff
  match v with
  | .null => exact iff_of_true (by decide : Text.IsClean "null") .null
  | .bool true => exact iff_of_true (by decide : Text.IsClean "true") (.bool true)
  | .bool false => exact iff_of_true (by decide : Text.IsClean "false") (.bool false)
  | .int i => exact iff_of_true (Text.isAscii_ofInt i).isClean (.int i)
  | .float x =>
    exact iff_of_true (Double.isAscii_render (by decide) (by decide) x).isClean (.float x)
  | .string t =>
    rw [Value.allTexts_string_iff]
    exact hquote t
  | .array [] => exact iff_of_true (by decide : Text.IsClean "[]") (.array nofun)
  | .array (v :: rest) =>
    have hopen : Text.IsClean "[" := by decide
    have hclose : Text.IsClean "]" := by decide
    simp only [writeAt, isClean_append_iff, hopen, hclose, hbreak,
      isClean_writeAt_iff h (level + 1) v, isClean_writeItems_iff h (level + 1) rest,
      Value.allTexts_array_iff, List.forall_mem_cons, true_and, and_true]
  | .object [] => exact iff_of_true (by decide : Text.IsClean "\x7b\x7d") (.object nofun nofun)
  | .object ((name, v) :: rest) =>
    have hopen : Text.IsClean "\x7b" := by decide
    have hclose : Text.IsClean "\x7d" := by decide
    simp only [writeAt, isClean_append_iff, hopen, hclose, hbreak, hquote, h.colon.isClean,
      isClean_writeAt_iff h (level + 1) v, isClean_writeFields_iff h (level + 1) rest,
      Value.allTexts_object_iff, List.forall_mem_cons, true_and, and_true]

private theorem isClean_writeItems_iff (h : style.WritesPlain) (level : Nat) (items : List Json) :
    (writeItems style level items).IsClean ↔ ∀ v ∈ items, v.AllTexts Text.IsClean := by
  have hbreak : ∀ n, (style.lineBreak n).IsClean := fun n ↦ (style.isAscii_lineBreak n).isClean
  match items with
  | [] => exact iff_of_true nofun nofun
  | v :: rest =>
    simp only [writeItems, isClean_append_iff, h.separator.isClean, hbreak,
      isClean_writeAt_iff h level v, isClean_writeItems_iff h level rest, List.forall_mem_cons,
      true_and]

private theorem isClean_writeFields_iff (h : style.WritesPlain) (level : Nat)
    (fields : List (Text × Json)) :
    (writeFields style level fields).IsClean ↔
      ∀ f ∈ fields, f.1.IsClean ∧ f.2.AllTexts Text.IsClean := by
  have hbreak : ∀ n, (style.lineBreak n).IsClean := fun n ↦ (style.isAscii_lineBreak n).isClean
  have hquote : ∀ t, (quote style.asciiOnly t).IsClean ↔ t.IsClean := by
    rw [h.asciiOnly]
    exact isClean_quote_iff
  match fields with
  | [] => exact iff_of_true nofun nofun
  | (name, v) :: rest =>
    simp only [writeFields, isClean_append_iff, h.separator.isClean, h.colon.isClean, hbreak,
      hquote, isClean_writeAt_iff h level v, isClean_writeFields_iff h level rest,
      List.forall_mem_cons, true_and, and_true]

end

/-- The text of a value holds a surrogate exactly if one of its texts does. -/
theorem isClean_write_iff (h : style.WritesPlain) (v : Json) :
    (write style v).IsClean ↔ v.AllTexts Text.IsClean :=
  isClean_writeAt_iff h 0 v

end Values

end Json

namespace Spec

open Schema (Node liftNullUnion)

namespace Place

variable {p : Text → Prop} {node : Fields Json} {f : Text × Json}

private theorem allTexts_of_mem_lift (hnullable : p "nullable")
    (h : (Value.object node : Json).AllTexts p) (hf : f ∈ liftNullUnion node) :
    p f.1 ∧ f.2.AllTexts p := by
  have hnode := Value.allTexts_object_iff.mp h
  rcases Schema.mem_of_mem_lift hf with hf | rfl | ⟨main, hmain, hf⟩
  · exact hnode f hf
  · exact ⟨hnullable, .bool true⟩
  · obtain ⟨items, hitems, hmember⟩ := hmain.exists_mem
    have harray := Value.allTexts_array_iff.mp (hnode _ hitems).2
    exact Value.allTexts_object_iff.mp (harray _ hmember) f hf

private theorem allTexts_of_mem_retouch (place : Place) (hversion : p "3.0.0")
    (hnullable : p "nullable") (h : (Value.object node : Json).AllTexts p)
    (hf : f ∈ place.retouch node) : p f.1 ∧ f.2.AllTexts p := by
  have hnode := Value.allTexts_object_iff.mp h
  cases place with
  | document =>
    rw [retouch, Fields.adjust_eq_mapNamed, Fields.mem_mapNamed] at hf
    obtain ⟨v, hv, hvalue⟩ := hf
    obtain ⟨hname, htexts⟩ := hnode _ hv
    refine ⟨hname, ?_⟩
    rw [← hvalue]
    split
    · cases v with
      | string version =>
        rw [normalVersion]
        split
        · exact .string hversion
        · exact htexts
      | _ => exact htexts
    · exact htexts
  | schema =>
    rw [retouch, Schema.dropNonStandard_eq_filter] at hf
    exact allTexts_of_mem_lift hnullable h (List.mem_filter.mp hf).1
  | parameterSchema => exact allTexts_of_mem_lift hnullable h hf
  | _ => exact hnode f hf

/-- What all texts of a value have in common with the two that the normal form brings, the texts of
its normal form have too. -/
theorem allTexts_normal (place : Place) (hversion : p "3.0.0") (hnullable : p "nullable")
    {v : Json} (h : v.AllTexts p) : (place.normal v).AllTexts p := by
  induction place, v using Place.induction with
  | object place node ih =>
    rw [normal_object, Value.allTexts_object_iff]
    intro f hf
    obtain ⟨v, hv, hvalue⟩ := Fields.mem_mapNamed.mp hf
    obtain ⟨hname, htexts⟩ := allTexts_of_mem_retouch place hversion hnullable h hv
    rw [← hvalue]
    exact ⟨hname, ih _ hv htexts⟩
  | array place items ih =>
    rw [normal_array, Value.allTexts_array_iff]
    intro w hw
    obtain ⟨v, hv, rfl⟩ := List.mem_map.mp hw
    exact ih v hv (Value.allTexts_array_iff.mp h v hv)
  | leaf place v hfields hitems => rwa [normal_leaf place hfields hitems]

end Place

/-- Is an error that of bytes which are no object, and not that of one which cannot be written? -/
def NormalError.isMalformed : NormalError → Bool
  | .undecodable | .notObject _ => true
  | .unencodable _ => false

/-- Bytes are refused as malformed exactly if they are no object. -/
theorem normalize_malformed_iff (bytes : Bytes) :
    (∃ e, normalize bytes = .error e ∧ e.isMalformed = true) ↔
      ¬∃ spec, Json.decode? bytes = some (.object spec) := by
  unfold normalize normalText
  cases Json.decode? bytes with
  | none => simp [bind, Except.bind, NormalError.isMalformed]
  | some v =>
    cases v with
    | object spec =>
      refine iff_of_false ?_ fun h ↦ h ⟨spec, rfl⟩
      rintro ⟨e, herror, he⟩
      simp only [bind, Except.bind] at herror
      split at herror
      · cases herror
      · cases herror
        cases he
    | other e => exact e.elim
    | _ => simp [bind, Except.bind, NormalError.isMalformed]

/-- Bytes have a normal form exactly if they are an object and no surrogate is in what the normal
form leaves of it, in particular if none is in the object. They are refused as malformed exactly if
they are no object. -/
theorem normalize_ok_iff_isClean (bytes : Bytes) :
    ((∃ normal, normalize bytes = .ok normal) ↔
      ∃ spec, Json.decode? bytes = some (.object spec) ∧
        (Value.object (normalTree spec) : Json).AllTexts Text.IsClean) ∧
    ((∃ e, normalize bytes = .error e ∧ e.isMalformed = true) ↔
      ¬∃ spec, Json.decode? bytes = some (.object spec)) ∧
    ∀ spec, Json.decode? bytes = some (.object spec) →
      (Value.object spec : Json).AllTexts Text.IsClean →
        ∃ normal, normalize bytes = .ok normal := by
  have hencoded : ∀ v : Json, (∃ normal, Encoding.encodeUtf8? (Json.write .compact v) =
      some normal) ↔ v.AllTexts Text.IsClean := by
    intro v
    rw [← Json.isClean_write_iff Json.Style.writesPlain_compact]
    simp [Encoding.encodeUtf8?, Text.IsClean]
  have hok : (∃ normal, normalize bytes = .ok normal) ↔
      ∃ spec, Json.decode? bytes = some (.object spec) ∧
        (Value.object (normalTree spec) : Json).AllTexts Text.IsClean := by
    simp only [normalize_eq_ok_iff, ← hencoded]
    rw [exists_comm]
    exact exists_congr fun _ ↦ exists_and_left
  refine ⟨hok, normalize_malformed_iff bytes, fun spec hspec hclean ↦ hok.mpr ⟨spec, hspec, ?_⟩⟩
  exact Place.allTexts_normal .document (by decide) (by decide) hclean

/-- A document with a text beyond ASCII under a name beyond it. -/
private def foreignSpec : Fields Json := [("é", .string "€"), ("openapi", .string "3.1.0")]

/-- A document with texts beyond ASCII is normalized. -/
theorem normalize_ok_iff_isClean_foreign :
    Json.decode? ((Json.write .indented (.object foreignSpec)).flatMap Encoding.utf8Bytes) =
      some (.object foreignSpec) ∧
    (Value.object foreignSpec : Json).AllTexts Text.IsClean ∧
    ∃ normal, normalize ((Json.write .indented (.object foreignSpec)).flatMap Encoding.utf8Bytes) =
      .ok normal := by
  have hread : Json.decode? ((Json.write .indented (.object foreignSpec)).flatMap
      Encoding.utf8Bytes) = some (.object foreignSpec) := by decide +kernel
  have hclean : (Value.object foreignSpec : Json).AllTexts Text.IsClean := by
    refine .object (by decide) fun f hf ↦ ?_
    simp only [foreignSpec, List.mem_cons, List.not_mem_nil, or_false] at hf
    rcases hf with rfl | rfl <;> exact .string (by decide)
  exact ⟨hread, hclean, (normalize_ok_iff_isClean _).2.2 foreignSpec hread hclean⟩

/-- An object with half of a surrogate pair has no normal form, and is not refused as malformed. -/
theorem normalize_half_pair :
    let t : Text := "\x7b\"a\":\"\\ud800\"\x7d"
    let bytes := t.flatMap Encoding.utf8Bytes
    ∃ spec e, Json.decode? bytes = some (.object spec) ∧ normalize bytes = .error e ∧
      e.isMalformed = false := by
  intro t bytes
  let spec : Fields Json := [("a", .string [⟨0xD800, by decide⟩])]
  have hread : Json.decode? bytes = some (.object spec) := by decide +kernel
  refine ⟨spec, .unencodable (Json.write .compact (.object spec)), hread, ?_, rfl⟩
  rw [normalize, normalText, hread]
  rfl

end Spec

end ApiTools
