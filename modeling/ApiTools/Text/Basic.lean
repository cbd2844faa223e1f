/-!
# Code points and texts

A text is a list of Unicode code points. Surrogates count as code points, because an
escape inside a document can name half of a surrogate pair; they are the only code
points that UTF-8 cannot write. Everything else in the library is defined over this view.
-/

namespace ApiTools

/-- A Unicode code point, surrogates included. -/
structure CodePoint where
  val : Nat
  lt : val < 0x110000
deriving DecidableEq

namespace CodePoint

/-- The code point of a Unicode scalar value. -/
def ofChar (c : Char) : CodePoint where
  val := c.toNat
  lt := by
    have h : c.val.toNat < 55296 ∨ 57343 < c.val.toNat ∧ c.val.toNat < 1114112 := c.valid
    show c.val.toNat < _
    omega

instance : Coe Char CodePoint := ⟨ofChar⟩

instance : Inhabited CodePoint := ⟨ofChar ' '⟩

/-- The code point with a given number, if there is one. -/
def ofNat? (n : Nat) : Option CodePoint :=
  if h : n < 0x110000 then some ⟨n, h⟩ else none

/-- Surrogates are the code points that stand for half of a pair. -/
def isSurrogate (c : CodePoint) : Bool := 0xD800 ≤ c.val && c.val < 0xE000

/-- The first halves of surrogate pairs. -/
def isHighSurrogate (c : CodePoint) : Bool := 0xD800 ≤ c.val && c.val < 0xDC00

/-- The second halves of surrogate pairs. -/
def isLowSurrogate (c : CodePoint) : Bool := 0xDC00 ≤ c.val && c.val < 0xE000

/-- The code point that a surrogate pair stands for. -/
def ofSurrogatePair (high low : CodePoint) : CodePoint where
  val := 0x10000 + (high.val - 0xD800) % 0x400 * 0x400 + (low.val - 0xDC00) % 0x400
  lt := by omega

/-- The ASCII range. -/
def isAscii (c : CodePoint) : Bool := c.val < 0x80

/-- The digits `0` to `9`. -/
def isAsciiDigit (c : CodePoint) : Bool := 0x30 ≤ c.val && c.val ≤ 0x39

/-- The letters `A` to `Z`. -/
def isAsciiUpper (c : CodePoint) : Bool := 0x41 ≤ c.val && c.val ≤ 0x5A

/-- The letters `a` to `z`. -/
def isAsciiLower (c : CodePoint) : Bool := 0x61 ≤ c.val && c.val ≤ 0x7A

/-- The letters `A` to `Z` and `a` to `z`. -/
def isAsciiLetter (c : CodePoint) : Bool := c.isAsciiUpper || c.isAsciiLower

/-- ASCII letters, ASCII digits and the underscore. -/
def isAsciiWord (c : CodePoint) : Bool :=
  c.isAsciiLetter || c.isAsciiDigit || c == ofChar '_'

/-- The letters `A` to `Z` in lower case; every other code point is kept. -/
def toAsciiLower (c : CodePoint) : CodePoint :=
  if h : 0x41 ≤ c.val ∧ c.val ≤ 0x5A then ⟨c.val + 32, by omega⟩ else c

/-- The number that a digit `0` to `9` stands for; meaningless for other code points. -/
def digitValue (c : CodePoint) : Nat := c.val - 0x30

/-- The number that a hexadecimal digit of either case stands for. -/
def hexValue? (c : CodePoint) : Option Nat :=
  if c.isAsciiDigit then some (c.val - 0x30)
  else if 0x41 ≤ c.val ∧ c.val ≤ 0x46 then some (c.val - 0x37)
  else if 0x61 ≤ c.val ∧ c.val ≤ 0x66 then some (c.val - 0x57)
  else none

end CodePoint

/-- A text is its list of code points. -/
abbrev Text := List CodePoint

instance : LawfulBEq Text := inferInstance

namespace Text

/-- The code points of a string. -/
def ofString (s : String) : Text := s.toList.map CodePoint.ofChar

instance : Coe String Text := ⟨ofString⟩

/-- The text of a string is that of its characters. A string is slow to take apart, a list of
characters is not. -/
theorem ofString_ofList (cs : List Char) :
    ofString (String.ofList cs) = cs.map CodePoint.ofChar := by
  rw [ofString, String.toList_ofList]

/-- A string is taken apart where its characters are. -/
theorem ofString_eq_append {cs ds es : List Char} (h : cs = ds ++ es) :
    ofString (String.ofList cs) = ofString (String.ofList ds) ++ ofString (String.ofList es) := by
  rw [ofString_ofList, ofString_ofList, ofString_ofList, h, List.map_append]

/-- What holds of the code points of a string holds of its characters. -/
theorem forall_mem_ofString {p : CodePoint → Prop} {cs : List Char} :
    (∀ c ∈ ofString (String.ofList cs), p c) ↔ ∀ c ∈ cs, p (CodePoint.ofChar c) := by
  rw [ofString_ofList, List.forall_mem_map]

/-- A text is clean when UTF-8 can write it: it holds no surrogate. -/
def IsClean (t : Text) : Prop := ∀ c ∈ t, c.isSurrogate = false

instance (t : Text) : Decidable t.IsClean := inferInstanceAs (Decidable (∀ c ∈ t, _))

/-- A text holds a surrogate exactly if it is not clean. -/
theorem any_isSurrogate_iff {t : Text} : t.any CodePoint.isSurrogate = true ↔ ¬t.IsClean := by
  simp [IsClean]

/-- A number in decimal notation. -/
def ofNat (n : Nat) : Text := (Nat.toDigits 10 n).map CodePoint.ofChar

/-- A whole number in decimal notation, with `-` before a negative one. -/
def ofInt (i : Int) : Text :=
  if i < 0 then CodePoint.ofChar '-' :: ofNat i.natAbs else ofNat i.natAbs

/-- The greatest number of decimal digits with which a whole number is written or read. -/
def digitLimit : Nat := 4300

/-- Are some digits no more than a limit, if there is one? -/
def isWithin (limit : Option Nat) (digits : Text) : Bool :=
  limit.all fun most ↦ digits.length ≤ most

/-- Can a whole number be written? -/
def isShort (i : Int) : Bool := isWithin (some digitLimit) (ofNat i.natAbs)

/-- The report of a whole number of too many digits. -/
def digitsReport : Text :=
  "Exceeds the limit (4300 digits) for integer string conversion; " ++
    "use sys.set_int_max_str_digits() to increase the limit"

/-- The `width` lowest hexadecimal digits of a number, in lower case. -/
def hexDigits : (width n : Nat) → Text
  | 0, _ => []
  | width + 1, n => hexDigits width (n / 16) ++ [CodePoint.ofChar (Nat.digitChar (n % 16))]

/-- Does `part` stand at the start of `t`? -/
def startsWith (t part : Text) : Bool := part.isPrefixOf t

/-- Does `part` stand at the end of `t`? -/
def endsWith (t part : Text) : Bool := part.isSuffixOf t

/-- Does `part` stand somewhere in `t`? -/
def hasInfix (part : Text) : Text → Bool
  | [] => part.isEmpty
  | c :: t => part.isPrefixOf (c :: t) || hasInfix part t

/-- Replacement with a number of code points still to be passed over. -/
def replaceFrom (old new : Text) : Nat → Text → Text
  | _, [] => []
  | skip + 1, _ :: t => replaceFrom old new skip t
  | 0, c :: t =>
    if old.isPrefixOf (c :: t) then new ++ replaceFrom old new (old.length - 1) t
    else c :: replaceFrom old new 0 t

/-- Every occurrence of a non-empty text `old`, taken from the left without overlap, is
replaced by `new`. -/
def replace (t old new : Text) : Text := replaceFrom old new 0 t

/-- The pieces of a text between the occurrences of a separator; never an empty list. -/
def splitOn (sep : CodePoint) : Text → List Text
  | [] => [[]]
  | c :: t =>
    if c = sep then [] :: splitOn sep t
    else
      match splitOn sep t with
      | [] => [[c]]
      | piece :: pieces => (c :: piece) :: pieces

/-- The texts one after the other with a separator between them. -/
def join (sep : Text) (ts : List Text) : Text := sep.intercalate ts

/-- The text without the code points of a class at its start. -/
def trimLeft (p : CodePoint → Bool) (t : Text) : Text := t.dropWhile p

/-- The text without the code points of a class at its end. -/
def trimRight (p : CodePoint → Bool) (t : Text) : Text := (t.reverse.dropWhile p).reverse

/-- The text without the code points of a class at its two ends. -/
def trim (p : CodePoint → Bool) (t : Text) : Text := trimRight p (trimLeft p t)

/-- The part before the first occurrence of a separator, and the part behind it if the
separator occurs. -/
def cut (sep : CodePoint) : Text → Text × Option Text
  | [] => ([], none)
  | c :: t =>
    if c = sep then ([], some t)
    else
      let (before, after) := cut sep t
      (c :: before, after)

/-- Texts are ordered by their code points, the first difference deciding. -/
def precedes : Text → Text → Bool
  | [], _ => true
  | _ :: _, [] => false
  | c :: t, d :: u => c.val < d.val || (c == d && precedes t u)

/-- The number written in decimal digits alone. -/
def digitsValue (t : Text) : Nat := t.foldl (fun n c ↦ 10 * n + c.digitValue) 0

/-- The letters `A` to `Z` in lower case; every other code point is kept. -/
def toAsciiLower (t : Text) : Text := t.map CodePoint.toAsciiLower

end Text

end ApiTools
