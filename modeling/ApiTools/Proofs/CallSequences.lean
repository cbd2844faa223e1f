import Mathlib.Data.List.Basic
import ApiTools.Service

/-!
# Calls one after the other

A call that has a request sends it once and takes one reply; every other call sends nothing and
takes none. So in a sequence of calls each one sees its own reply alone, and a call that is left out
together with its reply leaves the others as they are (`Service.calls_independent`).
-/

namespace ApiTools

namespace Service

variable {s : Service} {c : Invocation} {replies : Replies}

/-- What a call sends: the request that is planned for it, if there is a base URL and it can be
planned, with the configured time for a reply. -/
def sending? (s : Service) (c : Invocation) : Option Sent := do
  let base ← s.baseUrl
  let request ← (Request.plan c.tool c.args base s.settings.serviceAuthorization).toOption
  return ⟨request, .double s.settings.clientTimeout, s.executor.verify⟩

private theorem sending?_eq_some_iff {sent : Sent} : s.sending? c = some sent ↔
    ∃ base request, s.baseUrl = some base ∧
      Request.plan c.tool c.args base s.settings.serviceAuthorization = .ok request ∧
      sent = ⟨request, .double s.settings.clientTimeout, s.executor.verify⟩ := by
  cases hbase : s.baseUrl with
  | none => simp [sending?, hbase]
  | some base =>
    cases hplan : Request.plan c.tool c.args base s.settings.serviceAuthorization with
    | error e => simp [sending?, hbase, hplan, Except.toOption]
    | ok request => simp [sending?, hbase, hplan, Except.toOption, eq_comm]

/-- The requests of some calls, in their order. -/
def requests (s : Service) (cs : List Invocation) : List Sent := cs.filterMap s.sending?

/-- What is seen of an answer: the outcome of its call, and what was sent for it. -/
def Answer.seen (a : Answer) : Except RequestError Result × Option Sent := (a.outcome, a.sent)

private theorem requests_append (s : Service) (cs ds : List Invocation) :
    s.requests (cs ++ ds) = s.requests cs ++ s.requests ds :=
  List.filterMap_append

private theorem length_requests_cons (s : Service) (c : Invocation) (cs : List Invocation) :
    (s.requests (c :: cs)).length = (s.requests [c]).length + (s.requests cs).length := by
  rw [← List.length_append, ← requests_append, List.singleton_append]

section OneCall

/-- A call sends its request, takes a reply for it, and goes by that reply alone. -/
structure StepsBy (s : Service) (c : Invocation) (replies : Replies) : Prop where
  sent : (s.call c.tool c.args replies).sent = s.sending? c
  left : (s.call c.tool c.args replies).replies = replies.drop (s.requests [c]).length
  outcome : (s.call c.tool c.args replies).outcome =
    (s.call c.tool c.args (replies.take (s.requests [c]).length)).outcome

private theorem length_requests_none (h : s.sending? c = none) : (s.requests [c]).length = 0 := by
  rw [requests, List.filterMap_cons, h]
  rfl

private theorem length_requests_some {request : Sent} (h : s.sending? c = some request) :
    (s.requests [c]).length = 1 := by
  rw [requests, List.filterMap_cons, h]
  rfl

private theorem stepsBy_of_baseUrl_eq_none (h : s.baseUrl = none) : s.StepsBy c replies := by
  have hsending : s.sending? c = none := by
    rw [sending?, h]
    rfl
  have hnone := length_requests_none hsending
  constructor
  · rw [call, h, hsending]
  · rw [call, h, hnone]
    rfl
  · rw [call, call, h]

private theorem stepsBy_of_error {base : Text} {e : RequestError} (h : s.baseUrl = some base)
    (hplan : Request.plan c.tool c.args base s.settings.serviceAuthorization = .error e) :
    s.StepsBy c replies := by
  have hsending : s.sending? c = none := by
    rw [sending?, h]
    simp [hplan, Except.toOption]
  have hnone := length_requests_none hsending
  cases e <;> constructor <;> simp [call, h, hplan, hsending, hnone]

private theorem stepsBy_of_request {base : Text} {request : Request} (h : s.baseUrl = some base)
    (hplan : Request.plan c.tool c.args base s.settings.serviceAuthorization = .ok request) :
    s.StepsBy c replies := by
  have hsending : s.sending? c =
      some ⟨request, .double s.settings.clientTimeout, s.executor.verify⟩ :=
    sending?_eq_some_iff.mpr ⟨base, request, h, hplan, rfl⟩
  have hone := length_requests_some hsending
  -- Where no reply is left an empty success stands for the next one, in the replies taken as well.
  have hleft : replies.next.2 = replies.drop 1 := by cases replies <;> rfl
  have hreply : Replies.next (replies.take 1) = (replies.next.1, []) := by cases replies <;> rfl
  constructor
  · rw [call, h, hsending]
    simp only [hplan, Executor.execute]
    cases Executor.result replies.next.1 <;> rfl
  · rw [call, h, hone, ← hleft]
    simp only [hplan, Executor.execute]
    cases Executor.result replies.next.1 <;> rfl
  · rw [call, call, h, hone]
    simp only [hplan, Executor.execute, hreply]
    cases Executor.result replies.next.1 <;> rfl

private theorem stepsBy (s : Service) (c : Invocation) (replies : Replies) : s.StepsBy c
    replies := by
  cases hbase : s.baseUrl with
  | none => exact stepsBy_of_baseUrl_eq_none hbase
  | some base =>
    cases hplan : Request.plan c.tool c.args base s.settings.serviceAuthorization with
    | error e => exact stepsBy_of_error hbase hplan
    | ok request => exact stepsBy_of_request hbase hplan

end OneCall

section Sequences

/-- The answers of calls one after the other, all of which have their turns. -/
def answers (s : Service) : List Invocation → Replies → List Answer
  | [], _ => []
  | c :: rest, replies =>
    s.call c.tool c.args replies :: s.answers rest (replies.drop (s.requests [c]).length)

/-- A call in its turn leaves the turns as they were. -/
theorem callInTurn?_of_free {turns : Turns} (h : 0 < turns.free) (c : Invocation)
    (replies : Replies) :
    s.callInTurn? c turns replies = some (s.call c.tool c.args replies, turns) := by
  have hback : (Turns.giveBack ⟨turns.free - 1⟩) = turns := by
    rw [Turns.giveBack, Int.sub_add_cancel]
  rw [callInTurn?, Turns.take?, if_pos h]
  exact congrArg (fun left ↦ some (s.call c.tool c.args replies, left)) hback

/-- With a turn to be taken all calls are answered, and no turn is lost. -/
theorem calls?_eq {turns : Turns} (h : 0 < turns.free) (cs : List Invocation) (replies : Replies) :
    s.calls? cs turns replies = some (s.answers cs replies, turns) := by
  induction cs generalizing replies with
  | nil => rfl
  | cons c rest ih =>
    rw [calls?, callInTurn?_of_free h, answers, ← (s.stepsBy c replies).left]
    simp only [bind, Option.bind, ih]
    rfl

private theorem length_answers (s : Service) (cs : List Invocation) (replies : Replies) :
    (s.answers cs replies).length = cs.length := by
  induction cs generalizing replies with
  | nil => rfl
  | cons c rest ih => rw [answers, List.length_cons, List.length_cons, ih]

/-- Later calls go by the replies that the requests of the earlier ones leave. -/
theorem answers_append (s : Service) (cs ds : List Invocation) (replies : Replies) :
    s.answers (cs ++ ds) replies =
      s.answers cs replies ++ s.answers ds (replies.drop (s.requests cs).length) := by
  induction cs generalizing replies with
  | nil => rfl
  | cons c rest ih =>
    rw [List.cons_append, answers, answers, ih, List.drop_drop, ← length_requests_cons,
      List.cons_append]

/-- Calls send their requests. -/
theorem map_sent_answers (s : Service) (cs : List Invocation) (replies : Replies) :
    (s.answers cs replies).map (·.sent) = cs.map s.sending? := by
  induction cs generalizing replies with
  | nil => rfl
  | cons c rest ih => rw [answers, List.map_cons, List.map_cons, (s.stepsBy c replies).sent, ih]

/-- What is seen of calls goes by as many replies as they have requests. -/
theorem seen_answers_take (s : Service) (cs : List Invocation) (replies : Replies) :
    (s.answers cs (replies.take (s.requests cs).length)).map Answer.seen =
      (s.answers cs replies).map Answer.seen := by
  induction cs generalizing replies with
  | nil => rfl
  | cons c rest ih =>
    have hseen : (s.call c.tool c.args (replies.take (s.requests (c :: rest)).length)).seen =
        (s.call c.tool c.args replies).seen := by
      rw [Answer.seen, Answer.seen, (s.stepsBy c _).sent, (s.stepsBy c _).sent,
        (s.stepsBy c _).outcome, (s.stepsBy c replies).outcome, List.take_take,
        length_requests_cons s c rest, Nat.min_eq_left (Nat.le_add_right _ _)]
    rw [answers, answers, List.map_cons, List.map_cons, hseen, List.drop_take,
      length_requests_cons s c rest, Nat.add_sub_cancel_left, ih]

end Sequences

section LeftOut

/-- The replies without the one that a call behind others takes, if it takes one. -/
def without (s : Service) (earlier : List Invocation) (c : Invocation) (replies : Replies) :
    Replies :=
  if (s.sending? c).isSome then replies.eraseIdx (s.requests earlier).length else replies

private theorem take_without (s : Service) (earlier : List Invocation) (c : Invocation)
    (replies : Replies) :
    (s.without earlier c replies).take (s.requests earlier).length =
      replies.take (s.requests earlier).length := by
  rw [without]
  split
  · rw [List.eraseIdx_eq_take_drop_succ]
    by_cases hlength : (s.requests earlier).length ≤ replies.length
    · rw [List.take_left' (List.length_take_of_le hlength)]
    · have hdrop : replies.drop ((s.requests earlier).length + 1) = [] :=
        List.drop_eq_nil_of_le (by omega)
      rw [hdrop, List.append_nil, List.take_take, Nat.min_self]
  · rfl

private theorem drop_without (s : Service) (earlier : List Invocation) (c : Invocation)
    (replies : Replies) :
    (s.without earlier c replies).drop (s.requests earlier).length =
      replies.drop ((s.requests earlier).length + (s.requests [c]).length) := by
  rw [without]
  split
  · next hsome =>
    obtain ⟨request, hsending⟩ := Option.isSome_iff_exists.mp hsome
    rw [length_requests_some hsending, List.eraseIdx_eq_take_drop_succ]
    by_cases hlength : (s.requests earlier).length ≤ replies.length
    · rw [List.drop_left' (List.length_take_of_le hlength)]
    · have hdrop : replies.drop ((s.requests earlier).length + 1) = [] :=
        List.drop_eq_nil_of_le (by omega)
      rw [hdrop, List.append_nil, List.drop_take, Nat.sub_self, List.take_zero]
  · next hnone =>
    rw [length_requests_none (Option.not_isSome_iff_eq_none.mp hnone), Nat.add_zero]

/-- A call that is left out with its reply leaves the others as they are. -/
theorem seen_answers_without (s : Service) (earlier : List Invocation) (c : Invocation)
    (later : List Invocation) (replies : Replies) :
    (s.answers (earlier ++ later) (s.without earlier c replies)).map Answer.seen =
      ((s.answers (earlier ++ c :: later) replies).map Answer.seen).eraseIdx earlier.length := by
  have hearlier : (s.answers earlier (s.without earlier c replies)).map Answer.seen =
      (s.answers earlier replies).map Answer.seen := by
    rw [← seen_answers_take, take_without, seen_answers_take]
  have hlength : ((s.answers earlier replies).map Answer.seen).length = earlier.length := by
    rw [List.length_map, length_answers]
  rw [answers_append, answers_append, List.map_append, List.map_append, hearlier, drop_without,
    List.eraseIdx_append_of_length_le (Nat.le_of_eq hlength), hlength, Nat.sub_self, answers,
    List.map_cons, List.eraseIdx_zero, List.tail_cons, List.drop_drop]

end LeftOut

/-- The answer to a call among others. -/
theorem getElem?_answers (s : Service) (earlier : List Invocation) (c : Invocation)
    (later : List Invocation) (replies : Replies) :
    (s.answers (earlier ++ c :: later) replies)[earlier.length]? =
      some (s.call c.tool c.args (replies.drop (s.requests earlier).length)) := by
  have hlength := length_answers s earlier replies
  rw [answers_append, List.getElem?_append_right (Nat.le_of_eq hlength), hlength, Nat.sub_self]
  rfl

/-- Calls one after the other all have their turns, and give them back. They send the requests that
are planned for them, each once and in order, and the outcome of each is that of the call alone with
no reply but its own. Each that is left out, with its reply if it takes one, leaves the outcomes and
the requests of the others. -/
theorem calls_independent (h : 0 < s.settings.maxConcurrency) (cs : List Invocation)
    (replies : Replies) :
    ∃ answers, s.calls? cs s.turns replies = some (answers, s.turns) ∧
      answers.map (·.sent) = cs.map s.sending? ∧
      (∀ k c, cs[k]? = some c → ∃ a, answers[k]? = some a ∧
        a.replies = replies.drop (s.requests (cs.take (k + 1))).length ∧
        a.outcome = (s.call c.tool c.args ((replies.drop (s.requests (cs.take k)).length).take
          (s.requests [c]).length)).outcome) ∧
      ∀ k c, cs[k]? = some c → ∃ others,
        s.calls? (cs.eraseIdx k) s.turns (s.without (cs.take k) c replies) =
          some (others, s.turns) ∧
        others.map Answer.seen = (answers.map Answer.seen).eraseIdx k := by
  have hsplit : ∀ k c, cs[k]? = some c →
      ∃ earlier later, cs = earlier ++ c :: later ∧ earlier.length = k := by
    intro k c hc
    obtain ⟨hk, hget⟩ := List.getElem?_eq_some_iff.mp hc
    refine ⟨cs.take k, cs.drop (k + 1), ?_, List.length_take_of_le (Nat.le_of_lt hk)⟩
    rw [← hget, ← List.drop_eq_getElem_cons hk, List.take_append_drop]
  refine ⟨s.answers cs replies, calls?_eq h cs replies, map_sent_answers s cs replies, ?_, ?_⟩
  · intro k c hc
    obtain ⟨earlier, later, rfl, rfl⟩ := hsplit k c hc
    refine ⟨_, getElem?_answers s earlier c later replies, ?_, ?_⟩
    · have htake : (earlier ++ c :: later).take (earlier.length + 1) = earlier ++ [c] := by
        rw [List.take_length_add_append]
        rfl
      rw [(s.stepsBy c _).left, List.drop_drop, htake, requests_append, List.length_append]
    · rw [List.take_left, (s.stepsBy c _).outcome]
  · intro k c hc
    obtain ⟨earlier, later, rfl, rfl⟩ := hsplit k c hc
    have herase : (earlier ++ c :: later).eraseIdx earlier.length = earlier ++ later := by
      rw [List.eraseIdx_append_of_length_le (Nat.le_refl _), Nat.sub_self]
      rfl
    rw [herase, List.take_left]
    exact ⟨_, calls?_eq h _ _, seen_answers_without s earlier c later replies⟩

/-- A call that gets no reply, one whose body is not a number, and a third one: without the first,
which takes the failure, the others are as before. -/
theorem calls_independent_failures :
    let s : Service := ⟨{ Settings.standard with serviceUrl := "https://h" }, .standard, none⟩
    let get : Tool := ⟨"getItems", "Items", "/items", "GET", [], false, false, none⟩
    let post : Tool := ⟨"postItems", "Items", "/items", "POST", [], true, false, none⟩
    let cs : List Invocation := [⟨get, []⟩, ⟨post, [("body", .float .nan)]⟩, ⟨get, []⟩]
    let reply : Reply := .response 200 [] "items"
    ∃ answers others, s.calls? cs s.turns [.failure "down", reply] = some (answers, s.turns) ∧
      answers.map (·.sent) = cs.map s.sending? ∧
      s.calls? (cs.eraseIdx 0) s.turns [reply] = some (others, s.turns) ∧
      others.map Answer.seen = (answers.map Answer.seen).eraseIdx 0 := by
  intro s get post cs reply
  obtain ⟨answers, hanswers, hsent, -, hleft⟩ :=
    @calls_independent s (by decide) cs [.failure "down", reply]
  obtain ⟨others, hothers, hseen⟩ := hleft 0 _ rfl
  have hsome : (s.sending? ⟨get, []⟩).isSome = true := by decide +kernel
  have hwithout : s.without [] ⟨get, []⟩ [.failure "down", reply] = [reply] := by
    rw [without, if_pos hsome]
    rfl
  rw [List.take_zero, hwithout] at hothers
  exact ⟨answers, others, hanswers, hsent, hothers, hseen⟩

end Service

end ApiTools
