import ApiTools.Number.Seconds
import ApiTools.Request.Basic
import ApiTools.Exchange.Reply

/-!
# Sending requests

A planned request is sent once; nothing is tried again. A reply with a status from 400 on is a
failure like one that does not come.
-/

namespace ApiTools

/-- A request as it goes out. -/
structure Sent where
  request : Request
  timeout : Seconds
  /-- Is the certificate of the other side checked? -/
  verify : Bool
deriving DecidableEq

/-- Why a request has no result. -/
inductive ExecutionError where
  | failed (message : Text)
  | refused (status : Int) (text : Text)
deriving DecidableEq

/-- The report of a request without a result. -/
def ExecutionError.message : ExecutionError → Text
  | .failed message => "API request failed: " ++ message
  | .refused status text =>
    "API returned error status: " ++ Text.ofInt status ++ " - " ++ text

/-- How requests are sent. -/
structure Executor where
  timeout : Seconds
  verify : Bool
deriving DecidableEq

namespace Executor

/-- Half a minute for a reply, with a certificate. -/
def standard : Executor := ⟨.whole 30, true⟩

/-- A request with its own time for a reply, if there is one. -/
def outgoing (x : Executor) (request : Request) (timeout : Option Seconds) : Sent :=
  ⟨request, timeout.getD x.timeout, x.verify⟩

/-- The result that a reply gives. -/
def result : Reply → Except ExecutionError Text
  | .failure message => .error (.failed message)
  | .response status _ text => if 400 ≤ status then .error (.refused status text) else .ok text

/-- What the sending of a request gives. -/
structure Answer where
  outcome : Except ExecutionError Text
  sent : Sent
  replies : Replies

/-- A request sent once, to be answered by the next reply. -/
def execute (x : Executor) (request : Request) (timeout : Option Seconds) (replies : Replies) :
    Answer :=
  let (reply, rest) := replies.next
  ⟨result reply, x.outgoing request timeout, rest⟩

end Executor

end ApiTools
