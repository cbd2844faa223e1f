import ApiTools.Request.Query

/-!
# Reading query strings

The reader takes a query string to the names with values that it stands for. It is split at every
`&`, each part at its first `=`, and only then is the encoding undone: a plus sign is a blank, a
percent sign with two digits is a byte, and the bytes are UTF-8.
-/

namespace ApiTools

namespace Query

/-- The byte whose two digits a text starts with. -/
def escaped? : Text → Option UInt8
  | high :: low :: _ => do
    return UInt8.ofNat (16 * (← high.hexValue?) + (← low.hexValue?))
  | _ => none

/-- The bytes of an encoded text with a number of code points still to be passed over. -/
def bytesFrom : Nat → Text → Bytes
  | _, [] => []
  | skip + 1, _ :: t => bytesFrom skip t
  | 0, c :: t =>
    if c = '+' then Encoding.utf8Bytes ' ' ++ bytesFrom 0 t
    else if c = '%' then
      match escaped? t with
      | some b => b :: bytesFrom 2 t
      | none => Encoding.utf8Bytes c ++ bytesFrom 0 t
    else Encoding.utf8Bytes c ++ bytesFrom 0 t

/-- The bytes that an encoded text stands for. A percent sign without two digits stands for
itself. -/
def bytesOf (t : Text) : Bytes := bytesFrom 0 t

/-- The text that an encoded text stands for, if its bytes are well formed. -/
def decodeText? (t : Text) : Option Text := Encoding.decodeUtf8? false (bytesOf t)

/-- The name and the value of a part; without an equals sign the value is empty. -/
def decodePair? (part : Text) : Option (Text × Text) := do
  let (name, value) := part.cut '='
  return (← decodeText? name, ← decodeText? (value.getD []))

/-- The names and values of a query string; empty parts are passed over. -/
def decode? (query : Text) : Option (List (Text × Text)) :=
  ((query.splitOn '&').filter (· ≠ [])).mapM decodePair?

end Query

end ApiTools
