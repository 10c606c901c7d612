import Mathlib.Data.List.Basic
import ArmishFireplace.Actions

/-! Sending a string from one `itrx_proc_unit` to another (`itrx_proc_unit.hpp`, `trx_circuit.cpp`,
`bobwire_circuit.hpp`), one byte at a time through the simulation dispatcher.

Four parties take part, and their steps interleave freely:
* the sending unit's `transmit`, which `proc_act_push("tx")` calls. For each byte it builds a
  circuit, `open_connection` writes a request to the receiver's request endpoint and reads the
  response, the dispatcher is called with `"tx"` and the circuit, `close_connection` writes a request
  and reads the response, and `transmit` returns `false` if the dispatcher's response had `error`;
* the receiving unit's request server (`net::server`), which serves one connection at a time and
  runs `process` on each request it reads before it writes the response. `process` flips
  `isReceiving`; when it was set, it first waits on `hasReceivedCV` for `hasReceived` and clears it.
  When it was clear, `bobwire_circuit` takes the next basis and configures the node, either of which
  may throw; `trx_circuit` does nothing there;
* the receiving unit's production thread, whose `async_work` takes a measurement the dispatcher
  published to it and, under `requestMutex`, throws `std::runtime_error(err_msg::_unrchcd)` unless
  `isReceiving`, else pushes the measurement onto the module's buffer and sets `hasReceived`;
* the dispatcher: whether a `"tx"` call returns or throws, the response's `error`, and what it
  publishes to the receiver are inputs.

No thread catches an exception out of `process` or `async_work`, so one ends the receiving process.
`process` holds `requestMutex` except while it waits, and `async_work` from its check to
`hasReceived = true`, so each is one step (`process` two: up to the wait, and after it); a receive
that times out changes nothing and is left out. When the dispatcher plays along, `transmit` returns
`false` exactly when the last byte it sent had `error`, the bytes before it having none. -/

namespace ArmishFireplace.Module.Brazil

/-- The circuit `transmit` sends for one byte: a Bell pair, then the gate the byte selects
    (`case 0: case '0':` and so on); any other byte adds no gate. -/
def circuitFor (c : UInt8) : String :=
  "init 2\nh 0\nc 0,1" ++
    if c = 0 ∨ c = '0'.toUInt8 then "\ni 0"
    else if c = 1 ∨ c = '1'.toUInt8 then "\nx 0"
    else if c = 2 ∨ c = '2'.toUInt8 then "\nz 0"
    else if c = 3 ∨ c = '3'.toUInt8 then "\ny 0"
    else ""

/-- Where the sending unit is. -/
inductive SenderPhase where
  /-- Not in `transmit`. -/
  | ready
  /-- At the head of `transmit`'s loop. -/
  | loopHead
  /-- In `open_connection`: the request is written, the response not yet read. -/
  | opening
  /-- In `dispatcher->call` with the `"tx"` request. -/
  | calling
  /-- In `close_connection`; `error` is the dispatcher response's `get_error()`. -/
  | closing (error : Bool)
  | returned (ok : Bool)
  /-- `dispatcher->call` threw: the exception leaves `transmit`, and the connection is closed. -/
  | threw (e : Exc)
  deriving DecidableEq, Repr

/-- What the receiver's request server is doing. -/
inductive SessionPhase where
  /-- Reading the next request, or accepting the next connection. -/
  | reading
  /-- In `process`, waiting on `hasReceivedCV`. -/
  | waiting
  deriving DecidableEq, Repr

/-- The history of a channel, none of it in the code: `process` answering a request with
    `isReceiving` clear, a `"tx"` call with its circuit and how it ended, and a measurement pushed
    onto the receiving module's buffer. -/
inductive Entry (μ : Type) where
  | opened
  | called (circuit : String) (reply : Except Exc Bool)
  | pushed (m : μ)
  deriving DecidableEq, Repr

/-- Both units as far as a transmission goes, with the history. -/
structure Channel (μ : Type) where
  /-- The bytes `transmit` has still to send, the current one first. -/
  toSend : List UInt8
  sender : SenderPhase
  /-- A request the receiver's session has not read. -/
  request : Bool
  /-- A response the sender has not read. -/
  response : Bool
  session : SessionPhase
  isReceiving : Bool
  hasReceived : Bool
  /-- The measurements published to the receiver and not yet received. -/
  inFlight : List μ
  /-- The exception that ended the receiving process. -/
  ended : Option Exc
  log : List (Entry μ)
  deriving DecidableEq, Repr

/-- A step of one party. -/
inductive ChannelEvent (μ : Type) where
  /-- `proc_act_push("tx")` calls `transmit` on the bytes of its string parameter. -/
  | transmit (buf : List UInt8)
  /-- The loop head: return `true` after the last byte, else build the circuit and run
      `open_connection` up to its read. -/
  | loopHead
  /-- The session reads a request and runs `process` up to its wait or its end; `thrown` is what
      the work on a clear `isReceiving` throws, if anything. -/
  | process (thrown : Option Exc)
  /-- `process` wakes from its wait with `hasReceived` set. -/
  | wake
  /-- The sender's `connection.read()` returns. -/
  | readResponse
  /-- The dispatcher's `"tx"` call returns a response with `error`, or throws, having published
      `delivered` to the receiver. -/
  | call (delivered : List μ) (reply : Except Exc Bool)
  /-- `async_work` takes the next published measurement. -/
  | receive
  deriving DecidableEq, Repr

namespace Channel
variable {μ : Type}

/-- One step; `none` if the event cannot happen now. Once the receiving process has ended, nothing
    more is modelled. -/
def step (w : Channel μ) (e : ChannelEvent μ) : Option (Channel μ) :=
  if w.ended.isSome then none else
  match e with
  | .transmit buf =>
    match w.sender with
    | .ready | .returned _ | .threw _ => some { w with toSend := buf, sender := .loopHead }
    | _ => none
  | .loopHead =>
    match w.sender, w.toSend with
    | .loopHead, [] => some { w with sender := .returned true }
    | .loopHead, _ :: _ => some { w with sender := .opening, request := true }
    | _, _ => none
  | .process thrown =>
    if w.request ∧ w.session = .reading then
      if w.isReceiving then some { w with request := false, session := .waiting }
      else
        match thrown with
        | none => some { w with request := false, response := true, isReceiving := true,
                                log := w.log ++ [.opened] }
        | some x => some { w with request := false, ended := some x }
    else none
  | .wake =>
    if w.session = .waiting ∧ w.hasReceived then
      some { w with session := .reading, response := true, isReceiving := false, hasReceived := false }
    else none
  | .readResponse =>
    if w.response then
      match w.sender with
      | .opening => some { w with response := false, sender := .calling }
      | .closing error =>
        some { w with response := false, toSend := w.toSend.tail,
                      sender := if error then .returned false else .loopHead }
      | _ => none
    else none
  | .call delivered reply =>
    match w.sender, w.toSend with
    | .calling, c :: _ =>
      match reply with
      | .ok error =>
        some { w with sender := .closing error, request := true, inFlight := w.inFlight ++ delivered,
                      log := w.log ++ [.called (circuitFor c) reply] }
      | .error x =>
        some { w with sender := .threw x, inFlight := w.inFlight ++ delivered,
                      log := w.log ++ [.called (circuitFor c) reply] }
    | _, _ => none
  | .receive =>
    match w.inFlight with
    | m :: rest =>
      if w.isReceiving then
        some { w with inFlight := rest, hasReceived := true, log := w.log ++ [.pushed m] }
      else some { w with ended := some (.runtimeError ErrMsg.unrchcd) }
    | [] => none

/-- Run the events of a list in order. -/
def run : Channel μ → List (ChannelEvent μ) → Option (Channel μ)
  | w, [] => some w
  | w, e :: es => (w.step e).bind (run · es)

/-! ### Transmissions the dispatcher serves -/

/-- The channel between two bytes: no request or response pending, the receiver not receiving and
    reading the next request, nothing in flight. -/
def atRest (toSend : List UInt8) (sender : SenderPhase) (log : List (Entry μ)) : Channel μ :=
  ⟨toSend, sender, false, false, .reading, false, false, [], none, log⟩

/-- `proc_act_push("tx")` has called `transmit` on `buf`, with the receiver at rest. -/
def transmitting (buf : List UInt8) (log : List (Entry μ)) : Channel μ := atRest buf .loopHead log

/-- The history of one byte sent: `process` answers the open request, the `"tx"` call returns with
    `error`, and the measurement is pushed. -/
def round (c : UInt8) (error : Bool) (m : μ) : List (Entry μ) :=
  [.opened, .called (circuitFor c) (.ok error), .pushed m]

/-- The history of bytes sent without `error`, with their measurements. -/
def okRounds (now : List (UInt8 × μ)) : List (Entry μ) := now.flatMap fun p => round p.1 false p.2

@[simp] theorem okRounds_concat (now : List (UInt8 × μ)) (c : UInt8) (m : μ) :
    okRounds (now ++ [(c, m)]) = okRounds now ++ round c false m := by
  simp [okRounds]

/-- The steps of one `transmit` when every `"tx"` call returns and publishes exactly one
    measurement, and the work `process` does on a clear `isReceiving` does not throw. -/
def Delivering : ChannelEvent μ → Prop
  | .transmit _ => False
  | .process thrown => thrown = none
  | .call delivered reply => (∃ m, delivered = [m]) ∧ ∃ error, reply = .ok error
  | _ => True

/-- How many steps the current byte has taken. -/
def progress (w : Channel μ) : Nat :=
  match w.sender with
  | .opening => if w.response then 2 else 1
  | .calling => 3
  | .closing _ =>
    4 + (if w.request then 0 else 1) + (if w.inFlight.isEmpty then 1 else 0) +
      (if w.response then 1 else 0)
  | _ => 0

/-- At most how many steps `transmit` has left: eight per byte still to send, less those the current
    byte has taken, and one for the last loop head. -/
def remaining (w : Channel μ) : Nat :=
  match w.sender with
  | .loopHead | .opening | .calling | .closing _ => 8 * w.toSend.length + 1 - w.progress
  | _ => 0

/-- The states of a `transmit` of `buf` after the history `log₀`, when its steps are `Delivering`.
    `now` holds the bytes sent so far with their measurements, all answered without `error`, and
    `c` is the byte being sent. -/
inductive Good (buf : List UInt8) (log₀ : List (Entry μ)) : Channel μ → Prop
  | loopHead (now : List (UInt8 × μ)) (rest : List UInt8) (h : now.map Prod.fst ++ rest = buf) :
      Good buf log₀ (atRest rest .loopHead (log₀ ++ okRounds now))
  | returnedTrue (now : List (UInt8 × μ)) (h : now.map Prod.fst = buf) :
      Good buf log₀ (atRest [] (.returned true) (log₀ ++ okRounds now))
  | returnedFalse (now : List (UInt8 × μ)) (c : UInt8) (rest : List UInt8) (m : μ)
      (h : now.map Prod.fst ++ c :: rest = buf) :
      Good buf log₀ (atRest rest (.returned false) (log₀ ++ (okRounds now ++ round c true m)))
  /-- `open_connection`'s request is written. -/
  | openRequested (now : List (UInt8 × μ)) (c : UInt8) (rest : List UInt8)
      (h : now.map Prod.fst ++ c :: rest = buf) :
      Good buf log₀ { atRest (c :: rest) .opening (log₀ ++ okRounds now) with request := true }
  /-- `process` has answered it and the receiver is receiving. -/
  | openAnswered (now : List (UInt8 × μ)) (c : UInt8) (rest : List UInt8)
      (h : now.map Prod.fst ++ c :: rest = buf) :
      Good buf log₀ { atRest (c :: rest) .opening (log₀ ++ (okRounds now ++ [.opened])) with
        response := true, isReceiving := true }
  | calling (now : List (UInt8 × μ)) (c : UInt8) (rest : List UInt8)
      (h : now.map Prod.fst ++ c :: rest = buf) :
      Good buf log₀ { atRest (c :: rest) .calling (log₀ ++ (okRounds now ++ [.opened])) with
        isReceiving := true }
  /-- The call has returned with `error` and published `m`, and `close_connection`'s request is
      written; `process` may already wait on it. -/
  | measuring (now : List (UInt8 × μ)) (c : UInt8) (rest : List UInt8) (error : Bool) (m : μ)
      (waiting : Bool) (h : now.map Prod.fst ++ c :: rest = buf) :
      Good buf log₀ { atRest (c :: rest) (.closing error)
          (log₀ ++ (okRounds now ++ [.opened, .called (circuitFor c) (.ok error)])) with
        request := !waiting, session := if waiting then .waiting else .reading, isReceiving := true,
        inFlight := [m] }
  /-- `async_work` has pushed `m`. -/
  | measured (now : List (UInt8 × μ)) (c : UInt8) (rest : List UInt8) (error : Bool) (m : μ)
      (waiting : Bool) (h : now.map Prod.fst ++ c :: rest = buf) :
      Good buf log₀ { atRest (c :: rest) (.closing error) (log₀ ++ (okRounds now ++ round c error m)) with
        request := !waiting, session := if waiting then .waiting else .reading, isReceiving := true,
        hasReceived := true }
  /-- `process` has woken and answered the close request. -/
  | closeAnswered (now : List (UInt8 × μ)) (c : UInt8) (rest : List UInt8) (error : Bool) (m : μ)
      (h : now.map Prod.fst ++ c :: rest = buf) :
      Good buf log₀ { atRest (c :: rest) (.closing error) (log₀ ++ (okRounds now ++ round c error m)) with
        response := true }

section Good
variable {buf : List UInt8} {log₀ : List (Entry μ)}

theorem Good.transmitting : Good buf log₀ (transmitting buf log₀) := by
  have h : Good buf log₀ (atRest buf .loopHead (log₀ ++ okRounds [])) := .loopHead [] buf rfl
  simpa [okRounds] using h

theorem Good.ended {w : Channel μ} (hg : Good buf log₀ w) : w.ended = none := by
  cases hg <;> rfl

/-- Where each `Delivering` step leads, and that it brings `transmit` closer to its return. -/
theorem Good.step {w w' : Channel μ} {e : ChannelEvent μ} (hg : Good buf log₀ w) (he : Delivering e)
    (hs : w.step e = some w') : Good buf log₀ w' ∧ w'.remaining < w.remaining := by
  cases hg with
  | loopHead now rest h =>
    cases e <;> simp only [Delivering] at he <;> simp [Channel.step, atRest] at hs
    cases rest <;> simp at hs <;> subst hs
    · exact ⟨.returnedTrue now (by simpa using h), by simp [remaining, progress, atRest]⟩
    · exact ⟨.openRequested now _ _ h, by simp [remaining, progress, atRest]⟩
  | openRequested now c rest h =>
    cases e <;> simp only [Delivering] at he <;> simp [Channel.step, atRest] at hs
    subst he
    simp at hs
    subst hs
    exact ⟨.openAnswered now c rest h, by
      simp only [remaining, progress, atRest, ↓reduceIte, List.length_cons, List.isEmpty_nil,
        List.isEmpty_cons, Bool.false_eq_true, Bool.not_false, Bool.not_true]; omega⟩
  | openAnswered now c rest h =>
    cases e <;> simp only [Delivering] at he <;> simp [Channel.step, atRest] at hs
    subst hs
    exact ⟨.calling now c rest h, by
      simp only [remaining, progress, atRest, ↓reduceIte, List.length_cons, List.isEmpty_nil,
        List.isEmpty_cons, Bool.false_eq_true, Bool.not_false, Bool.not_true]; omega⟩
  | calling now c rest h =>
    cases e <;> simp only [Delivering] at he <;> simp [Channel.step, atRest] at hs
    obtain ⟨⟨m, rfl⟩, error, rfl⟩ := he
    simp at hs
    subst hs
    exact ⟨.measuring now c rest error m false h, by
      simp only [remaining, progress, atRest, ↓reduceIte, List.length_cons, List.isEmpty_nil,
        List.isEmpty_cons, Bool.false_eq_true, Bool.not_false, Bool.not_true]; omega⟩
  | measuring now c rest error m waiting h =>
    cases e <;> simp only [Delivering] at he <;> simp [Channel.step, atRest] at hs
    case process =>
      subst he
      cases waiting <;> simp at hs
      subst hs
      exact ⟨.measuring now c rest error m true h, by
        simp only [remaining, progress, atRest, ↓reduceIte, List.length_cons, List.isEmpty_nil,
          List.isEmpty_cons, Bool.false_eq_true, Bool.not_false, Bool.not_true]; omega⟩
    case receive =>
      subst hs
      cases waiting
      · exact ⟨.measured now c rest error m false h, by
        simp only [remaining, progress, atRest, ↓reduceIte, List.length_cons, List.isEmpty_nil,
          List.isEmpty_cons, Bool.false_eq_true, Bool.not_false, Bool.not_true]; omega⟩
      · exact ⟨.measured now c rest error m true h, by
        simp only [remaining, progress, atRest, ↓reduceIte, List.length_cons, List.isEmpty_nil,
          List.isEmpty_cons, Bool.false_eq_true, Bool.not_false, Bool.not_true]; omega⟩
  | measured now c rest error m waiting h =>
    cases e <;> simp only [Delivering] at he <;> simp [Channel.step, atRest] at hs
    case process =>
      subst he
      cases waiting <;> simp at hs
      subst hs
      exact ⟨.measured now c rest error m true h, by
        simp only [remaining, progress, atRest, ↓reduceIte, List.length_cons, List.isEmpty_nil,
          List.isEmpty_cons, Bool.false_eq_true, Bool.not_false, Bool.not_true]; omega⟩
    case wake =>
      cases waiting <;> simp at hs
      subst hs
      exact ⟨.closeAnswered now c rest error m h, by
        simp only [remaining, progress, atRest, ↓reduceIte, List.length_cons, List.isEmpty_nil,
          List.isEmpty_cons, Bool.false_eq_true, Bool.not_false, Bool.not_true]; omega⟩
  | closeAnswered now c rest error m h =>
    cases e <;> simp only [Delivering] at he <;> simp [Channel.step, atRest] at hs
    subst hs
    cases error
    · -- No `error`: the byte joins those sent, and the loop goes on.
      have hl : log₀ ++ (okRounds now ++ round c false m) = log₀ ++ okRounds (now ++ [(c, m)]) := by
        simp
      refine ⟨?_, by
        simp only [remaining, progress, atRest, ↓reduceIte, List.length_cons, List.isEmpty_nil,
          List.isEmpty_cons, Bool.false_eq_true, Bool.not_false, Bool.not_true]; omega⟩
      rw [hl]
      exact .loopHead (now ++ [(c, m)]) rest (by simpa using h)
    · exact ⟨.returnedFalse now c rest m h, by
      simp only [remaining, progress, atRest, ↓reduceIte, List.length_cons, List.isEmpty_nil,
        List.isEmpty_cons, Bool.false_eq_true, Bool.not_false, Bool.not_true]; omega⟩
  | returnedTrue now h =>
    cases e <;> simp only [Delivering] at he <;> simp [Channel.step, atRest] at hs
  | returnedFalse now c rest m h =>
    cases e <;> simp only [Delivering] at he <;> simp [Channel.step, atRest] at hs

theorem Good.run {es : List (ChannelEvent μ)} {w w' : Channel μ} (hg : Good buf log₀ w)
    (hes : ∀ e ∈ es, Delivering e) (hr : w.run es = some w') :
    Good buf log₀ w' ∧ w'.remaining + es.length ≤ w.remaining := by
  induction es generalizing w with
  | nil => cases hr; exact ⟨hg, by simp⟩
  | cons e es ih =>
    obtain ⟨u, hu, hr⟩ := Option.bind_eq_some.mp hr
    obtain ⟨hgu, hlt⟩ := hg.step (hes e (List.mem_cons_self e es)) hu
    obtain ⟨hg', hle⟩ := ih hgu (fun e he => hes e (List.mem_cons_of_mem _ he)) hr
    exact ⟨hg', by simp only [List.length_cons]; omega⟩

/-- Until `transmit` returns, some `Delivering` step can be taken: with `m` the measurement the
    dispatcher publishes. -/
theorem Good.live {w : Channel μ} (hg : Good buf log₀ w) (m : μ) :
    (∃ ok, w.sender = .returned ok) ∨ ∃ e, Delivering e ∧ (w.step e).isSome := by
  cases hg with
  | loopHead now rest h =>
    exact .inr ⟨.loopHead, trivial, by cases rest <;> simp [Channel.step, atRest]⟩
  | returnedTrue => exact .inl ⟨true, rfl⟩
  | returnedFalse => exact .inl ⟨false, rfl⟩
  | openRequested => exact .inr ⟨.process none, rfl, by simp [Channel.step, atRest]⟩
  | openAnswered => exact .inr ⟨.readResponse, trivial, by simp [Channel.step, atRest]⟩
  | calling => exact .inr ⟨.call [m] (.ok false), ⟨⟨m, rfl⟩, false, rfl⟩, by simp [Channel.step, atRest]⟩
  | measuring => exact .inr ⟨.receive, trivial, by simp [Channel.step, atRest]⟩
  | measured now c rest error m waiting h =>
    cases waiting
    · exact .inr ⟨.process none, rfl, by simp [Channel.step, atRest]⟩
    · exact .inr ⟨.wake, trivial, by simp [Channel.step, atRest]⟩
  | closeAnswered => exact .inr ⟨.readResponse, trivial, by simp [Channel.step, atRest]⟩

end Good

/-- If every `"tx"` call returns after publishing a measurement, every interleaving of a `transmit`
    of `buf` keeps to `Good`: the receiver never ends, the bytes go in order, only the last may have
    `error` (result `false`), and the receiver ends at rest. -/
theorem transmit_rounds_in_order (buf : List UInt8) (log₀ : List (Entry μ))
    {es : List (ChannelEvent μ)} {w : Channel μ} (hes : ∀ e ∈ es, Delivering e)
    (hr : (transmitting buf log₀).run es = some w) :
    Good buf log₀ w ∧ w.ended = none ∧
      (w.sender = .returned true → ∃ now : List (UInt8 × μ), now.map Prod.fst = buf ∧
        w = atRest [] (.returned true) (log₀ ++ okRounds now)) ∧
      (w.sender = .returned false → ∃ now c rest m, now.map Prod.fst ++ c :: rest = buf ∧
        w = atRest rest (.returned false) (log₀ ++ (okRounds now ++ round c true m))) := by
  have hg := (Good.transmitting.run hes hr).1
  refine ⟨hg, hg.ended, fun ht => ?_, fun hf => ?_⟩
  · cases hg <;> simp [atRest] at ht
    exact ⟨_, ‹_›, rfl⟩
  · cases hg <;> simp [atRest] at hf
    exact ⟨_, _, _, _, ‹_›, rfl⟩

/-- The run of one byte, `'1'`, whose call publishes `7`. -/
def oneByteTrace : List (ChannelEvent Nat) :=
  [.loopHead, .process none, .readResponse, .call [7] (.ok false), .process none, .receive, .wake,
    .readResponse, .loopHead]

theorem transmit_rounds_in_order_one_byte :
    (∀ e ∈ oneByteTrace, Delivering e) ∧ ∃ w, (transmitting ['1'.toUInt8] []).run oneByteTrace = some w ∧
      Good ['1'.toUInt8] [] w ∧ w.ended = none ∧
      (w.sender = .returned true → ∃ now : List (UInt8 × Nat), now.map Prod.fst = ['1'.toUInt8] ∧
        w = atRest [] (.returned true) ([] ++ okRounds now)) ∧
      (w.sender = .returned false → ∃ now c rest m, now.map Prod.fst ++ c :: rest = ['1'.toUInt8] ∧
        w = atRest rest (.returned false) ([] ++ (okRounds now ++ round c true m))) :=
  have hes : ∀ e ∈ oneByteTrace, Delivering e := by simp [oneByteTrace, Delivering]
  ⟨hes, _, rfl, transmit_rounds_in_order ['1'.toUInt8] [] hes rfl⟩

/-- If every `"tx"` call returns after publishing a measurement `m`, `transmit` returns however the
    three threads interleave: a run takes at most eight steps per byte and one more, and until then
    some step can be taken. -/
theorem transmit_returns [Nonempty μ] (buf : List UInt8) (log₀ : List (Entry μ))
    {es : List (ChannelEvent μ)} {w : Channel μ} (hes : ∀ e ∈ es, Delivering e)
    (hr : (transmitting buf log₀).run es = some w) :
    es.length ≤ 8 * buf.length + 1 ∧
      ((∃ ok, w.sender = .returned ok) ∨ ∃ e, Delivering e ∧ (w.step e).isSome) := by
  obtain ⟨hg, hle⟩ := Good.transmitting.run hes hr
  have h₀ : (transmitting buf log₀).remaining = 8 * buf.length + 1 := by
    simp [remaining, progress, transmitting, atRest]
  obtain ⟨m⟩ := ‹Nonempty μ›
  exact ⟨by omega, hg.live m⟩

theorem transmit_returns_one_byte :
    (∀ e ∈ oneByteTrace.take 4, Delivering e) ∧
      ∃ w, (transmitting ['1'.toUInt8] []).run (oneByteTrace.take 4) = some w ∧
        (oneByteTrace.take 4).length ≤ 8 * ['1'.toUInt8].length + 1 ∧
        ((∃ ok, w.sender = .returned ok) ∨ ∃ e, Delivering e ∧ (w.step e).isSome) :=
  have hes : ∀ e ∈ oneByteTrace.take 4, Delivering e := by simp [oneByteTrace, Delivering]
  ⟨hes, _, rfl, transmit_returns ['1'.toUInt8] [] hes rfl⟩

/-! ### A measurement that never comes -/

/-- A channel no step moves on: the receiver is receiving, but no measurement has been pushed or is
    in flight, no response is pending, and the sender is not in a call. -/
structure Silent (w : Channel μ) : Prop where
  receiving : w.isReceiving = true
  notReceived : w.hasReceived = false
  noneInFlight : w.inFlight = []
  noResponse : w.response = false
  notCalling : w.sender ≠ .calling

/-- From a silent channel, any party's step keeps it silent and adds nothing to the history: a new
    `transmit` only reaches `open_connection`, and a sender in `close_connection` stays there. -/
theorem Silent.step {w w' : Channel μ} {e : ChannelEvent μ} (h : Silent w) (hs : w.step e = some w') :
    Silent w' ∧ w'.log = w.log ∧ ∀ error, w.sender = .closing error → w'.sender = .closing error := by
  obtain ⟨h1, h2, h3, h4, h5⟩ := h
  cases e with
  | transmit _ | loopHead =>
    simp only [Channel.step, Option.isSome] at hs
    split at hs <;> try cases hs
    split at hs <;> cases hs <;> exact ⟨⟨h1, h2, h3, h4, by simp⟩, rfl, by simp_all⟩
  | process thrown =>
    simp [Channel.step, h1] at hs
    obtain ⟨-, -, rfl⟩ := hs
    exact ⟨⟨rfl, h2, h3, h4, h5⟩, rfl, fun _ h => h⟩
  | wake => simp [Channel.step, h2] at hs
  | readResponse => simp [Channel.step, h4] at hs
  | call d r =>
    simp only [Channel.step] at hs
    split at hs <;> try cases hs
    split at hs
    · exact absurd ‹_› h5
    · cases hs
  | receive => simp [Channel.step, h3] at hs

theorem Silent.run {es : List (ChannelEvent μ)} {w w' : Channel μ} (h : Silent w) (hr : w.run es = some w') :
    Silent w' ∧ w'.log = w.log ∧ ∀ error, w.sender = .closing error → w'.sender = .closing error := by
  induction es generalizing w with
  | nil => cases hr; exact ⟨h, rfl, fun _ => id⟩
  | cons e es ih =>
    obtain ⟨u, hu, hr⟩ := Option.bind_eq_some.mp hr
    obtain ⟨hu', hlu, hsu⟩ := h.step hu
    obtain ⟨h', hl, hs⟩ := ih hu' hr
    exact ⟨h', hl.trans hlu, fun error he => hs error (hsu error he)⟩

/-- A call that publishes nothing, from the `calling` position, leaves the channel silent. -/
theorem Good.call_unpublished {buf : List UInt8} {log₀ : List (Entry μ)} {w w' : Channel μ}
    {reply : Except Exc Bool} (hg : Good buf log₀ w) (hw : w.step (.call [] reply) = some w') :
    Silent w' ∧ ∀ error, reply = .ok error → w'.sender = .closing error := by
  cases hg <;> simp [Channel.step, atRest] at hw
  cases reply <;> simp at hw <;> subst hw <;> exact ⟨⟨rfl, rfl, rfl, rfl, by simp⟩, by simp⟩

/-- A `"tx"` call that publishes no measurement leaves the channel dead: no later step answers an
    open, calls the dispatcher or pushes a measurement, and if the call returned, `transmit` never
    leaves `close_connection`. -/
theorem unpublished_measurement_stalls_channel (buf : List UInt8) (log₀ : List (Entry μ))
    {es : List (ChannelEvent μ)} {w w' : Channel μ} (reply : Except Exc Bool)
    (hes : ∀ e ∈ es, Delivering e) (hr : (transmitting buf log₀).run es = some w)
    (hc : w.step (.call [] reply) = some w') (es' : List (ChannelEvent μ)) {w'' : Channel μ}
    (hr' : w'.run es' = some w'') :
    w''.log = w'.log ∧ ∀ error, reply = .ok error → w''.sender = .closing error := by
  obtain ⟨hs, hsend⟩ := (Good.transmitting.run hes hr).1.call_unpublished hc
  obtain ⟨-, hl, hclosing⟩ := hs.run hr'
  exact ⟨hl, fun error he => hclosing error (hsend error he)⟩

theorem unpublished_measurement_stalls_channel_one_byte :
    (∀ e ∈ oneByteTrace.take 3, Delivering e) ∧
      ∃ w w' w'' : Channel Nat, (transmitting ['1'.toUInt8] []).run (oneByteTrace.take 3) = some w ∧
        w.step (.call [] (.ok false)) = some w' ∧ w'.run [.process none] = some w'' ∧
        w''.log = w'.log ∧ ∀ error, (.ok false : Except Exc Bool) = .ok error → w''.sender = .closing error :=
  have hes : ∀ e ∈ oneByteTrace.take 3, Delivering e := by simp [oneByteTrace, Delivering]
  ⟨hes, _, _, _, rfl, rfl, rfl,
    unpublished_measurement_stalls_channel ['1'.toUInt8] [] (.ok false) hes rfl rfl [.process none] rfl⟩

end Channel

end ArmishFireplace.Module.Brazil
