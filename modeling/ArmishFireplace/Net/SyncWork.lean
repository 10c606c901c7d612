import ArmishFireplace.Net.AsyncWork

/-! One turn of `zmq_server::sync_work`'s receive loop (`zmq_server.cpp`), from a received message to
the reply it sends.

The check reads byte `rcvMsg.size()-1` of the message, an index computed in `size_t`, so an empty
message makes it read at `2^64-1`. The reply's `socket.send` is sent, times out after `sync_send_to`
(`send` returns `false`, which the loop ignores, and the reply is dropped), or throws `zmq::error_t`,
which the outer `try` turns into `exit(EXIT_FAILURE)`.

The loop runs inside the function's outer `try`, which catches only `zmq::error_t`: any other
exception leaves `sync_work`, and a thread function left by an exception calls `std::terminate`. The
per-request `try` surrounds only the module's handler. What rapidjson's `ParseInsitu` builds from the
bytes is an input of the turn (`Dom`), as are the handlers' outcomes; rapidjson's accessors check
their preconditions with `RAPIDJSON_ASSERT`, which aborts. -/

namespace ArmishFireplace.Net

/-- A JSON value as `request` reads it: a string, or anything else. -/
inductive JValue where
  | str (s : String)
  | other
  deriving DecidableEq, Repr

/-- The document `ParseInsitu` leaves: an object with its members in order, or another value (what
    a parse error leaves as well). -/
inductive Dom where
  | object (members : List (String × JValue))
  | other
  deriving DecidableEq, Repr

/-- How a call that leaves no state ends: a value, an exception, or the end of the process. -/
inductive CallEnd (α : Type) where
  | ret (a : α)
  | throw (e : Exc)
  | abort
  deriving DecidableEq, Repr

/-- `request::request`: `HasMember` asserts that the document is an object, a missing `"action"`
    throws, `GetString` asserts that it is a string, and `str_map` names the action. -/
def requestAction : Dom → CallEnd Action
  | .other => .abort
  | .object members =>
    match members.lookup "action" with
    | none => .throw (.runtimeError ErrMsg.malinpt)
    | some .other => .abort
    | some (.str s) =>
      match strMap s with
      | .ok a => .ret a
      | .error e => .throw e

/-- `rcvMsg.size()-1`, computed in `size_t` for a size it holds: the index the `NUL` check reads. -/
def nulCheckIndex (size : Nat) : Nat := if size = 0 then 2 ^ 64 - 1 else size - 1

theorem nulCheckIndex_eq_mod {size : Nat} (h : size < 2 ^ 64) :
    nulCheckIndex size = (size + (2 ^ 64 - 1)) % 2 ^ 64 := by
  unfold nulCheckIndex
  split_ifs with h0
  · subst h0; rfl
  · rw [show size + (2 ^ 64 - 1) = size - 1 + 2 ^ 64 by omega, Nat.add_mod_right, Nat.mod_eq_of_lt (by omega)]

/-- The check reads the message's last byte, and outside the message when it is empty. -/
theorem getElem?_nulCheckIndex (msg : List UInt8) : msg[nulCheckIndex msg.length]? = msg.getLast? := by
  cases msg with
  | nil => rfl
  | cons b bs => simp [nulCheckIndex, List.getLast?_eq_getElem?]

/-- The reply a turn sends: the handler's `response` object, `response(bool)` of a push, or
    `response(e.what(), true)`, whose `error` member is `true`. -/
inductive Response where
  | handler (id : Nat)
  | pushed (ok : Bool)
  | error (what : String)
  deriving DecidableEq, Repr

/-- How a turn of the loop ends. -/
inductive Turn where
  /-- The turn replies `r`; after `socket.send`, the reply was sent. -/
  | reply (r : Response)
  /-- The send of `r` timed out: `send` returns `false`, which the loop ignores. -/
  | dropped (r : Response)
  /-- The send threw `zmq::error_t`: `exit(EXIT_FAILURE)`. -/
  | exit
  /-- An exception leaves `sync_work`: `std::terminate`. -/
  | escape (e : Exc)
  /-- An assertion fails. -/
  | abort
  /-- The check reads `data()[size() - 1]` of an empty message, outside the buffer. -/
  | outOfBounds
  deriving DecidableEq, Repr

/-- One turn on a received message `msg`, whose parsed document is `dom`. `procActRequest` is what
    `module_manager::proc_act_request` does with the request (a `response` object, a null pointer,
    an exception, or an abort), `procActPush` what `proc_act_push` does. -/
def syncTurn (msg : List UInt8) (dom : Dom) (procActRequest : CallEnd (Option Nat))
    (procActPush : CallEnd Bool) : Turn :=
  match msg[nulCheckIndex msg.length]? with
  | none => .outOfBounds
  | some b =>
    if b ≠ 0 then .escape (.runtimeError ErrMsg.malinpt)
    else match requestAction dom with
      | .abort => .abort
      | .throw e => .escape e
      | .ret .request =>
        match procActRequest with
        | .ret (some r) => .reply (.handler r)
        | .ret none => .escape (.runtimeError ErrMsg.nllpntr)
        | .throw e => .reply (.error e.what)
        | .abort => .abort
      | .ret .push =>
        match procActPush with
        | .ret ok => .reply (.pushed ok)
        | .throw e => .reply (.error e.what)
        | .abort => .abort
      | .ret .wait => .escape (.runtimeError ErrMsg.malinpt)
      | .ret .reply => .escape (.runtimeError ErrMsg.malinpt)

/-- `socket.send` of a turn's reply, its outcome an input. -/
def sendReply (send : SendResult) : Turn → Turn
  | .reply r =>
    match send with
    | .sent => .reply r
    | .timedOut => .dropped r
    | .failed => .exit
  | t => t

/-- One iteration of the receive loop: the turn, then the send of its reply. -/
def syncIteration (msg : List UInt8) (dom : Dom) (procActRequest : CallEnd (Option Nat))
    (procActPush : CallEnd Bool) (send : SendResult) : Turn :=
  sendReply send (syncTurn msg dom procActRequest procActPush)

/-! ### When a turn replies -/

/-- The request's action is one of the four names. -/
theorem requestAction_ret {dom : Dom} {a : Action} :
    requestAction dom = .ret a ↔ ∃ members s, dom = .object members ∧
      members.lookup "action" = some (.str s) ∧ strMap s = .ok a := by
  constructor
  · intro h
    match dom, h with
    | .object members, h =>
      simp only [requestAction] at h
      split at h <;> try cases h
      rename_i s hs
      split at h <;> cases h
      exact ⟨members, s, rfl, hs, ‹_›⟩
  · rintro ⟨members, s, rfl, hs, ha⟩
    simp [requestAction, hs, ha]

/-- A message whose last byte is not `0` ends the process, whatever it holds and whatever the
    handlers would do: the NUL check throws outside the per-request `try`. -/
theorem syncTurn_of_last_ne_zero {msg : List UInt8} {b : UInt8} (hb : msg.getLast? = some b) (h0 : b ≠ 0)
    (dom : Dom) (rq : CallEnd (Option Nat)) (pu : CallEnd Bool) :
    syncTurn msg dom rq pu = .escape (.runtimeError ErrMsg.malinpt) := by
  simp [syncTurn, getElem?_nulCheckIndex, hb, h0]

/-- The message `x`, and every message ending in `x`, with no terminating `NUL`. -/
theorem unterminated_message_escapes (bytes : List UInt8) (dom : Dom) (rq : CallEnd (Option Nat))
    (pu : CallEnd Bool) :
    syncTurn (bytes ++ ['x'.toUInt8]) dom rq pu = .escape (.runtimeError ErrMsg.malinpt) :=
  syncTurn_of_last_ne_zero (by simp : (bytes ++ ['x'.toUInt8]).getLast? = some 'x'.toUInt8) (by decide) dom rq pu

/-- The empty message: `size()-1` wraps to `2^64-1`, so the check reads far outside the message. -/
theorem empty_message_check_wraps :
    nulCheckIndex ([] : List UInt8).length = 2 ^ 64 - 1 ∧
      ([] : List UInt8).length ≤ nulCheckIndex ([] : List UInt8).length ∧
      ∀ dom rq pu, syncTurn [] dom rq pu = .outOfBounds :=
  ⟨rfl, Nat.zero_le _, fun _ _ _ => rfl⟩

end ArmishFireplace.Net
