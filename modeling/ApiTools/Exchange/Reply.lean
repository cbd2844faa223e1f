import ApiTools.Encoding.Utf8

/-!
# Replies

What comes back for requests. The replies of an exchange are listed in the order in which they
come.
-/

namespace ApiTools

/-- What comes back for a request. -/
inductive Reply where
  | response (status : Int) (content : Bytes) (text : Text)
  /-- Nothing came back, for the reason told. -/
  | failure (message : Text)
deriving DecidableEq

/-- The replies that are still to come. -/
abbrev Replies := List Reply

namespace Replies

/-- The next reply, and those behind it. When none is left, a request is answered by an empty
success. -/
def next : Replies → Reply × Replies
  | [] => (.response 200 [] [], [])
  | reply :: rest => (reply, rest)

end Replies

end ApiTools
