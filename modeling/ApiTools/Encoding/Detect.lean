import ApiTools.Encoding.Utf8

/-!
# Documents in any of the Unicode encodings

A document may be written in UTF-8, UTF-16 or UTF-32. A byte order mark decides which; without
one, the zero bytes among the first four do, since a document starts with ASCII characters.
Half surrogates are let through in every encoding.
-/

namespace ApiTools

namespace Encoding

/-- The order of the bytes within a unit. -/
inductive ByteOrder where
  | bigEndian
  | littleEndian

/-- The encodings a document can be written in. -/
inductive Scheme where
  | utf8
  | utf16 (order : ByteOrder)
  | utf32 (order : ByteOrder)

/-- The number of a two-byte unit. -/
def ByteOrder.unit16 : ByteOrder → UInt8 → UInt8 → Nat
  | .bigEndian, a, b => a.toNat * 0x100 + b.toNat
  | .littleEndian, a, b => b.toNat * 0x100 + a.toNat

/-- The number of a four-byte unit. -/
def ByteOrder.unit32 : ByteOrder → UInt8 → UInt8 → UInt8 → UInt8 → Nat
  | .bigEndian, a, b, c, d =>
    a.toNat * 0x1000000 + b.toNat * 0x10000 + c.toNat * 0x100 + d.toNat
  | .littleEndian, a, b, c, d =>
    d.toNat * 0x1000000 + c.toNat * 0x10000 + b.toNat * 0x100 + a.toNat

/-- The two-byte units of some bytes; an odd byte at the end is refused. -/
def units16? (order : ByteOrder) : Bytes → Option Text
  | [] => some []
  | [_] => none
  | a :: b :: rest => do
    let c ← CodePoint.ofNat? (order.unit16 a b)
    return c :: (← units16? order rest)

/-- Each high surrogate that a low one follows is joined with it. -/
def joinPairs : Text → Text
  | [] => []
  | [c] => [c]
  | c :: d :: rest =>
    if c.isHighSurrogate && d.isLowSurrogate then CodePoint.ofSurrogatePair c d :: joinPairs rest
    else c :: joinPairs (d :: rest)

/-- The four-byte units of some bytes; an incomplete unit is refused. -/
def units32? (order : ByteOrder) : Bytes → Option Text
  | [] => some []
  | a :: b :: c :: d :: rest => do
    let u ← CodePoint.ofNat? (order.unit32 a b c d)
    return u :: (← units32? order rest)
  | _ => none

/-- The text of bytes in a known encoding. -/
def Scheme.decode? : Scheme → Bytes → Option Text
  | .utf8, bytes => decodeUtf8? true bytes
  | .utf16 order, bytes => (units16? order bytes).map joinPairs
  | .utf32 order, bytes => units32? order bytes

/-- The encoding of a document without a byte order mark, by its zero bytes. -/
def schemeOfZeros : Bytes → Scheme
  | [a, b] =>
    if a = 0 then .utf16 .bigEndian else if b = 0 then .utf16 .littleEndian else .utf8
  | a :: b :: c :: d :: _ =>
    if a = 0 then (if b = 0 then .utf32 .bigEndian else .utf16 .bigEndian)
    else if b = 0 then
      (if c = 0 ∧ d = 0 then .utf32 .littleEndian else .utf16 .littleEndian)
    else .utf8
  | _ => .utf8

/-- The encoding of a document and its bytes without the byte order mark. -/
def detect : Bytes → Scheme × Bytes
  | 0x00 :: 0x00 :: 0xFE :: 0xFF :: rest => (.utf32 .bigEndian, rest)
  | 0xFF :: 0xFE :: 0x00 :: 0x00 :: rest => (.utf32 .littleEndian, rest)
  | 0xFE :: 0xFF :: rest => (.utf16 .bigEndian, rest)
  | 0xFF :: 0xFE :: rest => (.utf16 .littleEndian, rest)
  | 0xEF :: 0xBB :: 0xBF :: rest => (.utf8, rest)
  | bytes => (schemeOfZeros bytes, bytes)

/-- The text of a document, if its bytes are well formed in the encoding they announce. -/
def decode? (bytes : Bytes) : Option Text :=
  let (scheme, content) := detect bytes
  scheme.decode? content

end Encoding

end ApiTools
