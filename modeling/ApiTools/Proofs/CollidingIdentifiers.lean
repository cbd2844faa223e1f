import ApiTools.Proofs.MethodNames
import ApiTools.Tool.Identifier

/-!
# Colliding identifiers

Operations at ASCII paths share an identifier exactly if their methods are the same but for case and
the skeletons of their paths are the same but for the case of the code points that start words
(`ofOperation_eq_iff`). No method's name starts with another one, so it can be told where the method
ends in an identifier; behind it upper case loses the case at the starts of words and nothing else.
-/

namespace ApiTools

namespace CodePoint

variable {c d : CodePoint}

/-- In ASCII the letters `a` to `z` have capitals, and upper case keeps everything else. -/
theorem toUpper_of_isAscii (h : c.isAscii = true) :
    c.toUpper = [if c.isAsciiLower then c.capital else c] := by
  have hlt : c.val < 0x80 := of_decide_eq_true h
  have hself : c.orSelf c.val = c := by
    rw [orSelf, ofNat?, dif_pos c.lt]
    rfl
  rw [toUpper_of_lt (by omega)]
  by_cases hlower : c.isAsciiLower = true
  · have hletter := hlower
    simp only [isAsciiLower, Bool.and_eq_true, decide_eq_true_eq] at hletter
    have hmap : mapRuns upperRuns c.val = c.capital.val := by
      unfold upperRuns mapRuns
      rw [if_neg (by dsimp only; omega), if_pos ⟨by dsimp only; omega, Nat.mod_one _⟩]
      show 65 + (c.val - 97) = c.val - 32
      omega
    rw [if_pos hlower, hmap, orSelf, ofNat?, dif_pos c.capital.lt]
    rfl
  · have hletter := hlower
    simp only [isAsciiLower, Bool.and_eq_true, decide_eq_true_eq] at hletter
    have hmap : mapRuns upperRuns c.val = c.val := by
      unfold upperRuns mapRuns
      by_cases hfirst : c.val < 97
      · rw [if_pos hfirst]
      · rw [if_neg hfirst, if_neg (by dsimp only; omega)]
        unfold mapRuns
        rw [if_pos (by dsimp only; omega)]
    rw [if_neg hlower, hmap, hself]

private theorem val_toAsciiLower (c : CodePoint) :
    c.toAsciiLower.val = if 0x41 ≤ c.val ∧ c.val ≤ 0x5A then c.val + 32 else c.val := by
  unfold toAsciiLower
  split <;> rfl

/-- Small letters and digits are in lower case. -/
theorem toAsciiLower_eq_self (h : ¬(0x41 ≤ c.val ∧ c.val ≤ 0x5A)) : c.toAsciiLower = c :=
  dif_neg h

/-- Whether a code point belongs to a word does not depend on its case. -/
theorem isAsciiWord_congr (h : c.toAsciiLower = d.toAsciiLower) :
    c.isAsciiWord = d.isAsciiWord := by
  have hval := congrArg val h
  rw [val_toAsciiLower, val_toAsciiLower] at hval
  have hmark : ∀ e : CodePoint, (e == ofChar '_') = decide (e.val = 95) := fun e ↦ by
    obtain ⟨n, hn⟩ := e
    rw [Bool.eq_iff_iff, beq_iff_eq, decide_eq_true_eq]
    exact ⟨fun he ↦ congrArg val he, fun he ↦ by subst he; rfl⟩
  rw [Bool.eq_iff_iff]
  simp only [isAsciiWord, isAsciiLetter, isAsciiUpper, isAsciiLower, isAsciiDigit, hmark,
    Bool.or_eq_true, Bool.and_eq_true, decide_eq_true_eq]
  split at hval <;> split at hval <;> omega

end CodePoint

namespace Identifier

section WordStarts

/-- Does a word start at a position of a text, if `starting` says so for the first one? Further on
one starts behind all but letters, digits and underscores. -/
def startsWord (starting : Bool) (t : Text) : Nat → Bool
  | 0 => starting
  | i + 1 => t[i]?.any fun c ↦ !c.isAsciiWord

/-- Two code points are the same, perhaps but for their case. -/
def Agree (ignoringCase : Bool) (c d : CodePoint) : Prop :=
  if ignoringCase then c.toAsciiLower = d.toAsciiLower else c = d

/-- Two texts have the same code points, but for the case of those that start words. -/
structure AgreeFrom (starting : Bool) (t u : Text) : Prop where
  length : t.length = u.length
  agree : ∀ i c d, t[i]? = some c → u[i]? = some d → Agree (startsWord starting t i) c d

variable {starting : Bool} {c d : CodePoint} {t u : Text}

private theorem agreeFrom_cons_iff :
    AgreeFrom starting (c :: t) (d :: u) ↔
      Agree starting c d ∧ AgreeFrom (!c.isAsciiWord) t u := by
  have hstarts : ∀ i, startsWord starting (c :: t) (i + 1) = startsWord (!c.isAsciiWord) t i :=
    fun i ↦ by cases i <;> rfl
  constructor
  · intro h
    refine ⟨h.agree 0 c d rfl rfl, Nat.succ.inj h.length, fun i e f he hf ↦ ?_⟩
    rw [← hstarts]
    exact h.agree (i + 1) e f he hf
  · rintro ⟨hhead, htail⟩
    refine ⟨congrArg Nat.succ htail.length, fun i e f he hf ↦ ?_⟩
    cases i with
    | zero =>
      cases he
      cases hf
      exact hhead
    | succ i =>
      rw [hstarts]
      exact htail.agree i e f he hf

/-- Texts in lower case that agree but for case are the same. -/
theorem AgreeFrom.eq_of_lower (h : AgreeFrom starting t u) (ht : ∀ c ∈ t, c.toAsciiLower = c)
    (hu : ∀ c ∈ u, c.toAsciiLower = c) : t = u := by
  refine List.ext_getElem h.length fun i hi hi' ↦ ?_
  have hagree := h.agree i t[i] u[i] (List.getElem?_eq_getElem hi) (List.getElem?_eq_getElem hi')
  unfold Agree at hagree
  split at hagree
  · rwa [ht _ (List.getElem_mem hi), hu _ (List.getElem_mem hi')] at hagree
  · exact hagree

end WordStarts

section Titles

variable {starting : Bool} {c d : CodePoint} {t u : Text}

/-- A code point as it stands in a title. -/
private def titled (starting : Bool) (c : CodePoint) : CodePoint :=
  if starting && c.isAsciiLower then c.capital else c

private theorem titleFrom_cons (hc : c.isAscii = true) :
    titleFrom starting (c :: t) = titled starting c :: titleFrom (!c.isAsciiWord) t := by
  rw [titleFrom, isSeparator, if_pos hc, titled]
  cases starting with
  | false => rfl
  | true =>
    rw [if_pos rfl, CodePoint.toUpper_of_isAscii hc, Bool.true_and]
    rfl

private theorem titled_eq_iff : titled starting c = titled starting d ↔ Agree starting c d := by
  cases starting with
  | false => rfl
  | true =>
    have hval : ∀ e f : CodePoint, e = f ↔ e.val = f.val := fun e f ↦ by
      obtain ⟨_, _⟩ := e
      obtain ⟨_, _⟩ := f
      exact CodePoint.mk.injEq _ _ _ _ ▸ Iff.rfl
    have htitled : ∀ e : CodePoint, (titled true e).val =
        if 0x61 ≤ e.val ∧ e.val ≤ 0x7A then e.val - 32 else e.val := fun e ↦ by
      simp only [titled, CodePoint.isAsciiLower, Bool.true_and, Bool.and_eq_true,
        decide_eq_true_eq]
      split <;> rfl
    rw [Agree, if_pos rfl, hval, hval, htitled, htitled, CodePoint.val_toAsciiLower,
      CodePoint.val_toAsciiLower]
    split <;> split <;> split <;> split <;> omega

/-- Titles of ASCII texts are the same exactly if the texts agree but for the case at the starts of
words. -/
theorem titleFrom_eq_iff (ht : ∀ c ∈ t, c.isAscii = true) (hu : ∀ c ∈ u, c.isAscii = true) :
    titleFrom starting t = titleFrom starting u ↔ AgreeFrom starting t u := by
  -- Whether a word starts at the next position is the same for both texts once they agree here.
  induction t generalizing starting u with
  | nil =>
    cases u with
    | nil => exact iff_of_true rfl ⟨rfl, nofun⟩
    | cons d u =>
      rw [titleFrom_cons (hu d List.mem_cons_self)]
      exact iff_of_false nofun fun h ↦ nomatch h.length
  | cons c t ih =>
    obtain ⟨hc, ht⟩ := List.forall_mem_cons.mp ht
    cases u with
    | nil =>
      rw [titleFrom_cons hc]
      exact iff_of_false nofun fun h ↦ nomatch h.length
    | cons d u =>
      obtain ⟨hd, hu⟩ := List.forall_mem_cons.mp hu
      rw [titleFrom_cons hc, titleFrom_cons hd, List.cons.injEq, titled_eq_iff, agreeFrom_cons_iff]
      refine and_congr_right fun hagree ↦ ?_
      have hlower : c.toAsciiLower = d.toAsciiLower := by
        unfold Agree at hagree
        split at hagree
        · exact hagree
        · rw [hagree]
      rw [← CodePoint.isAsciiWord_congr hlower]
      exact ih ht hu

end Titles

section Skeletons

variable {p q : Text}

/-- A skeleton has no code point of its own but the underscore. -/
theorem of_mem_skeleton {c : CodePoint} (h : c ∈ skeleton p) : c = '_' ∨ c ∈ p := by
  have hmem : c ∈ p.flatMap skeletonChar := by
    unfold skeleton at h
    split at h
    · next d rest hpath =>
      rw [hpath]
      split at h
      · exact List.mem_cons_of_mem d h
      · exact h
    · cases h
  obtain ⟨d, hd, hc⟩ := List.mem_flatMap.mp hmem
  unfold skeletonChar at hc
  split at hc
  · cases hc
  · split at hc
    · exact .inl (List.mem_singleton.mp hc)
    · rw [List.mem_singleton.mp hc]
      exact .inr hd

private theorem isAscii_skeleton (h : ∀ c ∈ p, c.isAscii = true) : ∀ c ∈ skeleton p, c.isAscii =
    true := by
  intro c hc
  rcases of_mem_skeleton hc with rfl | hc
  · rfl
  · exact h c hc

/-- Small letters and digits. -/
def IsPlain (c : CodePoint) : Prop := c.isAsciiLower = true ∨ c.isAsciiDigit = true

/-- A path of segments of small letters and digits, none of them empty and each behind a slash. -/
def IsPlainPath (p : Text) : Prop :=
  ∃ segments : List Text, p = segments.flatMap (fun s ↦ CodePoint.ofChar '/' :: s) ∧
    ∀ s ∈ segments, s ≠ [] ∧ ∀ c ∈ s, IsPlain c

private theorem isPlain_cases {c : CodePoint} (h : IsPlain c) :
    (0x61 ≤ c.val ∧ c.val ≤ 0x7A) ∨ (0x30 ≤ c.val ∧ c.val ≤ 0x39) := by
  simpa only [IsPlain, CodePoint.isAsciiLower, CodePoint.isAsciiDigit, Bool.and_eq_true,
    decide_eq_true_eq] using h

private theorem IsPlain.ne {c : CodePoint} (h : IsPlain c) {d : CodePoint} (hd : ¬IsPlain d) :
    c ≠ d := by
  rintro rfl
  exact hd h

/-- The slash of a path in its skeleton. -/
private def joint (c : CodePoint) : CodePoint := if c = '/' then '_' else c

/-- The slash that an underscore of a plain path's skeleton was. -/
private def unjoint (c : CodePoint) : CodePoint := if c = '_' then '/' else c

private theorem IsPlainPath.of_mem (h : IsPlainPath p) {c : CodePoint} (hc : c ∈ p) :
    c = '/' ∨ IsPlain c := by
  obtain ⟨segments, rfl, hsegments⟩ := h
  obtain ⟨s, hs, hc⟩ := List.mem_flatMap.mp hc
  rcases List.mem_cons.mp hc with rfl | hc
  · exact .inl rfl
  · exact .inr ((hsegments s hs).2 c hc)

private theorem not_isPlain_ofChar : ¬IsPlain '\x7b' ∧ ¬IsPlain '\x7d' ∧ ¬IsPlain '/' ∧
    ¬IsPlain '-' ∧ ¬IsPlain '_' := by
  unfold IsPlain
  decide

private theorem IsPlainPath.flatMap_skeletonChar (h : IsPlainPath p) :
    p.flatMap skeletonChar = p.map joint := by
  obtain ⟨hopen, hclose, -, hhyphen, -⟩ := not_isPlain_ofChar
  rw [← List.flatMap_singleton' (p.map joint), List.flatMap_map]
  refine List.flatMap_congr fun c hc ↦ ?_
  unfold skeletonChar joint
  rcases h.of_mem hc with rfl | hplain
  · decide
  · simp only [hplain.ne hopen, hplain.ne hclose, hplain.ne hhyphen, or_false, ↓reduceIte]
    split <;> rfl

private theorem IsPlainPath.map_unjoint (h : IsPlainPath p) : (p.map joint).map unjoint = p := by
  obtain ⟨-, -, hslash, -, hmark⟩ := not_isPlain_ofChar
  rw [List.map_map]
  refine (List.map_congr_left fun c hc ↦ ?_).trans (List.map_id p)
  rcases h.of_mem hc with rfl | hplain
  · rfl
  · simp only [Function.comp, joint, unjoint, hplain.ne hslash, hplain.ne hmark, ↓reduceIte, id]

/-- A plain path is empty, or its skeleton is what follows its first slash. -/
private theorem IsPlainPath.skeleton_cases (h : IsPlainPath p) :
    (p = [] ∧ skeleton p = []) ∨
      (skeleton p ≠ [] ∧ p.map joint = CodePoint.ofChar '_' :: skeleton p) := by
  have hflat := h.flatMap_skeletonChar
  obtain ⟨segments, hp, hsegments⟩ := h
  cases segments with
  | nil =>
    subst hp
    exact .inl ⟨rfl, rfl⟩
  | cons s segments =>
    have hcons : p = CodePoint.ofChar '/' ::
        (s ++ segments.flatMap fun s ↦ CodePoint.ofChar '/' :: s) := hp
    have hskeleton : skeleton p =
        (s ++ segments.flatMap fun s ↦ CodePoint.ofChar '/' :: s).map joint := by
      rw [skeleton, hflat, hcons]
      rfl
    refine .inr ⟨?_, ?_⟩
    · rw [hskeleton, ne_eq, List.map_eq_nil_iff, List.append_eq_nil_iff]
      exact fun hnil ↦ (hsegments s List.mem_cons_self).1 hnil.1
    · rw [hskeleton, hcons]
      rfl

private theorem IsPlainPath.skeleton_lower (h : IsPlainPath p) :
    ∀ c ∈ skeleton p, c.toAsciiLower = c := by
  intro c hc
  rcases of_mem_skeleton hc with rfl | hc
  · rfl
  · rcases h.of_mem hc with rfl | hplain
    · rfl
    · have hcases := isPlain_cases hplain
      exact CodePoint.toAsciiLower_eq_self (by omega)

/-- Plain paths whose skeletons agree but for case are the same. -/
theorem IsPlainPath.eq_of_agreeFrom {starting : Bool} (hp : IsPlainPath p) (hq : IsPlainPath q)
    (h : AgreeFrom starting (skeleton p) (skeleton q)) : p = q := by
  have heq : skeleton p = skeleton q := h.eq_of_lower hp.skeleton_lower hq.skeleton_lower
  rcases hp.skeleton_cases with ⟨rfl, hnil⟩ | ⟨hne, hjoined⟩
  · rcases hq.skeleton_cases with ⟨rfl, -⟩ | ⟨hne', -⟩
    · rfl
    · exact absurd (heq.symm.trans hnil) hne'
  · rcases hq.skeleton_cases with ⟨-, hnil'⟩ | ⟨-, hjoined'⟩
    · exact absurd (heq.trans hnil') hne
    · rw [← hp.map_unjoint, ← hq.map_unjoint, hjoined, hjoined', heq]

end Skeletons

/-- No method's name starts with another one. -/
theorem eq_of_isPrefix_method : ∀ m ∈ Spec.methods, ∀ n ∈ Spec.methods, m <+: n → m = n := by
  decide +kernel

/-- Behind the names of methods texts are the same exactly if both the names and the texts are. -/
theorem method_append_eq_iff {m n t u : Text} (hm : m ∈ Spec.methods) (hn : n ∈ Spec.methods) :
    m ++ t = n ++ u ↔ m = n ∧ t = u := by
  refine ⟨fun h ↦ ?_, fun ⟨hmethod, htext⟩ ↦ by rw [hmethod, htext]⟩
  have hmethod : m = n := by
    rcases List.prefix_or_prefix_of_prefix (List.prefix_append m t)
      (h ▸ List.prefix_append n u) with hprefix | hprefix
    · exact eq_of_isPrefix_method m hm n hn hprefix
    · exact (eq_of_isPrefix_method n hn m hm hprefix).symm
  subst hmethod
  exact ⟨rfl, List.append_cancel_left h⟩

/-- Two operations at ASCII paths share an identifier exactly if their methods are the same but for
case and the skeletons of their paths agree but for the case of the code points that start words.
So they never do if their methods differ, nor at different paths of small letters and digits. -/
theorem ofOperation_eq_iff {p q m n : Text} (hp : ∀ c ∈ p, c.isAscii = true)
    (hq : ∀ c ∈ q, c.isAscii = true) (hm : Spec.isMethod m = true) (hn : Spec.isMethod n = true) :
    (ofOperation p m = ofOperation q n ↔
      m.toLower = n.toLower ∧ AgreeFrom true (skeleton p) (skeleton q)) ∧
    (m.toLower ≠ n.toLower → ofOperation p m ≠ ofOperation q n) ∧
    (IsPlainPath p → IsPlainPath q → p ≠ q → ofOperation p m ≠ ofOperation q m) := by
  have hiff : ∀ {k : Text}, Spec.isMethod k = true → (ofOperation p m = ofOperation q k ↔
      m.toLower = k.toLower ∧ AgreeFrom true (skeleton p) (skeleton q)) := fun hk ↦
    (method_append_eq_iff (of_decide_eq_true hm) (of_decide_eq_true hk)).trans
      (and_congr_right fun _ ↦ titleFrom_eq_iff (isAscii_skeleton hp) (isAscii_skeleton hq))
  refine ⟨hiff hn, fun hmethods hsame ↦ hmethods ((hiff hn).mp hsame).1, ?_⟩
  intro hplain hplain' hpaths hsame
  exact hpaths (hplain.eq_of_agreeFrom hplain' ((hiff hm).mp hsame).2)

/-- A path with a dot and braces has the identifier of one with a hyphen, in whatever letter case.
-/
theorem ofOperation_eq_iff_dotted :
    (∀ c ∈ ("/v1.a/\x7bid\x7d" : Text), c.isAscii = true) ∧
    (∀ c ∈ ("/V1.A-id" : Text), c.isAscii = true) ∧
    Spec.isMethod "GET" = true ∧ Spec.isMethod "get" = true ∧
    AgreeFrom true (skeleton "/v1.a/\x7bid\x7d") (skeleton "/V1.A-id") := by
  have hp : ∀ c ∈ ("/v1.a/\x7bid\x7d" : Text), c.isAscii = true := by decide
  have hq : ∀ c ∈ ("/V1.A-id" : Text), c.isAscii = true := by decide
  have hm : Spec.isMethod "GET" = true := by decide +kernel
  have hn : Spec.isMethod "get" = true := by decide +kernel
  have hsame : ofOperation "/v1.a/\x7bid\x7d" "GET" = ofOperation "/V1.A-id" "get" := by
    decide +kernel
  exact ⟨hp, hq, hm, hn, ((ofOperation_eq_iff hp hq hm hn).1.mp hsame).2⟩

end Identifier

end ApiTools
