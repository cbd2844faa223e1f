import ApiTools.Text.Basic

/-!
# UTF-8

Code points as one to four bytes. Writing refuses surrogates. Reading accepts only the
shortest form of each code point; whether surrogates are let through is a parameter, because
documents that hold half of a surrogate pair are still decodable.
-/

namespace ApiTools

/-- Content as it is stored and sent. -/
abbrev Bytes := List UInt8

namespace Encoding

/-- The bytes of one code point, a surrogate being written like its neighbours. -/
def utf8Bytes (c : CodePoint) : Bytes :=
  let n := c.val
  if n < 0x80 then [UInt8.ofNat n]
  else if n < 0x800 then [UInt8.ofNat (0xC0 + n / 0x40), UInt8.ofNat (0x80 + n % 0x40)]
  else if n < 0x10000 then
    [UInt8.ofNat (0xE0 + n / 0x1000), UInt8.ofNat (0x80 + n / 0x40 % 0x40),
      UInt8.ofNat (0x80 + n % 0x40)]
  else
    [UInt8.ofNat (0xF0 + n / 0x40000), UInt8.ofNat (0x80 + n / 0x1000 % 0x40),
      UInt8.ofNat (0x80 + n / 0x40 % 0x40), UInt8.ofNat (0x80 + n % 0x40)]

/-- The bytes of a text, if it holds no surrogate. -/
def encodeUtf8? (t : Text) : Option Bytes :=
  if t.all fun c ↦ !c.isSurrogate then some (t.flatMap utf8Bytes) else none

/-- The report of a text that cannot be written: where its first surrogates stand. -/
def surrogateReport (t : Text) : Text :=
  let start := t.findIdx CodePoint.isSurrogate
  match (t.drop start).takeWhile CodePoint.isSurrogate with
  | [] => []
  | [c] =>
    "'utf-8' codec can't encode character '\\u" ++ Text.hexDigits 4 c.val ++ "' in position "
      ++ Text.ofNat start ++ ": surrogates not allowed"
  | run =>
    "'utf-8' codec can't encode characters in position " ++ Text.ofNat start ++ "-"
      ++ Text.ofNat (start + run.length - 1) ++ ": surrogates not allowed"

/-- Is the byte one of those that continue a sequence? -/
def isContinuation (b : UInt8) : Bool := 0x80 ≤ b.toNat && b.toNat < 0xC0

/-- The six bits that a continuing byte carries. -/
def lowBits (b : UInt8) : Nat := b.toNat - 0x80

/-- A code point of at least `least`, so that no longer form than needed is accepted. -/
def codePoint? (surrogates : Bool) (least n : Nat) : Option CodePoint :=
  if n < least then none
  else
    match CodePoint.ofNat? n with
    | some c => if c.isSurrogate && !surrogates then none else some c
    | none => none

/-- The text that bytes stand for, if they are well formed. -/
def decodeUtf8? (surrogates : Bool) : Bytes → Option Text
  | [] => some []
  | a :: rest =>
    if a.toNat < 0x80 then do
      let c ← codePoint? surrogates 0 a.toNat
      return c :: (← decodeUtf8? surrogates rest)
    else if a.toNat < 0xE0 then
      match rest with
      | b :: rest =>
        if 0xC0 ≤ a.toNat && isContinuation b then do
          let c ← codePoint? surrogates 0x80 ((a.toNat - 0xC0) * 0x40 + lowBits b)
          return c :: (← decodeUtf8? surrogates rest)
        else none
      | _ => none
    else if a.toNat < 0xF0 then
      match rest with
      | b :: c :: rest =>
        if isContinuation b && isContinuation c then do
          let c ← codePoint? surrogates 0x800
            ((a.toNat - 0xE0) * 0x1000 + lowBits b * 0x40 + lowBits c)
          return c :: (← decodeUtf8? surrogates rest)
        else none
      | _ => none
    else
      match rest with
      | b :: c :: d :: rest =>
        if isContinuation b && isContinuation c && isContinuation d then do
          let c ← codePoint? surrogates 0x10000
            ((a.toNat - 0xF0) * 0x40000 + lowBits b * 0x1000 + lowBits c * 0x40 + lowBits d)
          return c :: (← decodeUtf8? surrogates rest)
        else none
      | _ => none

end Encoding

end ApiTools
