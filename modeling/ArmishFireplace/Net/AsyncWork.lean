import ArmishFireplace.Buffer.QueueBuffer

/-! `zmq_server::async_work` (`zmq_server.cpp`) draining the module's `queue_buffer`, beside the
production thread that pushes into it.

The worker sets the push-wait threshold to `async_wait_count`, then loops: `push_wait`, or failing
that `++failCount == async_wait_fail`, lets it take the whole queue with `pop_all` into its local
batch, whose items it sends one by one. Each `queue_buffer` member is one atomic section (see
`Buffer.QueueBuffer`); the worker's read of `do_exit()` touches no buffer, so it is taken together
with the `push_wait` section after it. A send's outcome is an input: the message is sent, it times
out after `async_send_to` (`send` returns `false`, which the loop ignores), or it throws
`zmq::error_t`, which ends the process with `exit(EXIT_FAILURE)`. -/

namespace ArmishFireplace.Net

open Buffer

/-- `zmq_server::async_wait_count`: the push-wait threshold. -/
def asyncWaitCount : Nat := 100

/-- `zmq_server::async_wait_fail`: how many `push_wait` timeouts in a row force a flush. -/
def asyncWaitFail : Nat := 4

/-- What a `socket.send` of one item does. -/
inductive SendResult where
  | sent
  | timedOut
  | failed
  deriving DecidableEq, Repr

/-- Where the worker is. -/
inductive AsyncPhase where
  /-- At `while (!do_exit())`. -/
  | loop
  /-- Blocked in `push_wait`'s `wait_for`, the lock released. -/
  | waiting
  /-- In the inner loop over a non-empty local batch. -/
  | sending
  /-- Has seen `doExit` and returned. -/
  | returned
  /-- A send threw: `exit(EXIT_FAILURE)`. -/
  | processExited
  deriving DecidableEq, Repr

/-- The module's buffer with the worker's locals. `pushed` lists every item the producer pushed
    and `sent` every item the worker took off its batch with whether its send went out; neither is in
    the code. -/
structure AsyncWork (α : Type) where
  buffer : QueueBuffer α
  failCount : Nat
  localBuffer : List α
  phase : AsyncPhase
  pushed : List α
  sent : List (α × Bool)
  deriving DecidableEq, Repr

/-- An event: a push by the production thread, or a step of the worker. -/
inductive AsyncEvent (α : Type) where
  | push (item : α)
  /-- The loop head reads `do_exit()`; on `false`, `push_wait` up to its first block. -/
  | loop (exit : Bool)
  /-- The worker wakes in `push_wait`'s `wait_for`, by its timeout or not. -/
  | wake (timeout : Bool)
  | send (r : SendResult)
  deriving DecidableEq, Repr

namespace AsyncWork
variable {α : Type}

/-- The worker after its set-up, on a buffer holding what was pushed before it started. -/
def start (b : QueueBuffer α) : AsyncWork α :=
  ⟨b.setPushWaitThreshold asyncWaitCount, 0, [], .loop, b.queue, []⟩

/-- `failCount = 0; localBuffer = pop_all()`, then the inner loop unless the batch is empty. -/
def flush (w : AsyncWork α) : AsyncWork α :=
  { w with
    failCount := 0, localBuffer := w.buffer.popAll.1, buffer := w.buffer.popAll.2,
    phase := if w.buffer.queue.isEmpty then .loop else .sending }

@[simp] theorem flush_failCount (w : AsyncWork α) : w.flush.failCount = 0 := rfl

@[simp] theorem flush_localBuffer (w : AsyncWork α) : w.flush.localBuffer = w.buffer.queue := rfl

@[simp] theorem flush_pushed (w : AsyncWork α) : w.flush.pushed = w.pushed := rfl

@[simp] theorem flush_sent (w : AsyncWork α) : w.flush.sent = w.sent := rfl

/-- `push_wait` returned `false`: `++failCount == async_wait_fail` decides the flush. -/
def waitFailed (w : AsyncWork α) : AsyncWork α :=
  if w.failCount + 1 = asyncWaitFail then w.flush
  else { w with failCount := w.failCount + 1, phase := .loop }

/-- The front item `x` of the batch has left it, its send gone out (`ok`) or timed out. -/
def sendFront (w : AsyncWork α) (x : α) (rest : List α) (ok : Bool) : AsyncWork α :=
  { w with
    localBuffer := rest, sent := w.sent ++ [(x, ok)], phase := if rest.isEmpty then .loop else .sending }

/-- Go on from a `push_wait` section that left the buffer `b`. -/
def afterWait (w : AsyncWork α) : WaitResult × QueueBuffer α → AsyncWork α
  | (.released, b) => { w with buffer := b }.flush
  | (.timedOut, b) => { w with buffer := b }.waitFailed
  | (.blocked, b) => { w with buffer := b, phase := .waiting }

/-- One step; `none` if the event cannot happen now. -/
def step (w : AsyncWork α) : AsyncEvent α → Option (AsyncWork α)
  | .push x =>
    if w.phase = .processExited then none
    else some { w with buffer := (w.buffer.push x).1, pushed := w.pushed ++ [x] }
  | .loop exit =>
    if w.phase ≠ .loop then none
    else if exit then some { w with phase := .returned }
    else some (w.afterWait w.buffer.pushWaitEnter)
  | .wake timeout =>
    if w.phase ≠ .waiting then none
    else some (w.afterWait (w.buffer.pushWaitWake timeout))
  | .send r =>
    match w.phase, w.localBuffer with
    | .sending, x :: rest =>
      match r with
      | .sent => some (w.sendFront x rest true)
      | .timedOut => some (w.sendFront x rest false)
      | .failed => some { w with phase := .processExited }
    | _, _ => none

/-- Run the events of a list in order. -/
def run : AsyncWork α → List (AsyncEvent α) → Option (AsyncWork α)
  | w, [] => some w
  | w, e :: es => (step w e).bind (run · es)

/-- The states reached from the worker's start on any buffer. -/
inductive Reachable : AsyncWork α → Prop
  | start (b : QueueBuffer α) : Reachable (start b)
  | step {w w' : AsyncWork α} {e : AsyncEvent α} : Reachable w → w.step e = some w' → Reachable w'

theorem Reachable.run (es : List (AsyncEvent α)) {w w' : AsyncWork α} (hw : Reachable w)
    (h : w.run es = some w') : Reachable w' := by
  induction es generalizing w with
  | nil => cases h; exact hw
  | cons e es ih =>
    obtain ⟨u, hu, h⟩ := Option.bind_eq_some.mp h
    exact ih (hw.step hu) h

/-- What a `push_wait` section's result makes the loop do: `some true` if `pop_all` follows
    (`push_wait` returned `true`, or `++failCount == async_wait_fail`), `some false` if it goes back to
    the loop head, `none` while `push_wait` has not returned. -/
def waitOutcome (w : AsyncWork α) : WaitResult → Option Bool
  | .released => some true
  | .timedOut => some (decide (w.failCount + 1 = asyncWaitFail))
  | .blocked => none

/-- Everything the end of a `push_wait` section can do. -/
theorem afterWait_cases (w : AsyncWork α) (p : WaitResult × QueueBuffer α) :
    w.waitOutcome p.1 = some true ∧ w.afterWait p = ({ w with buffer := p.2 } : AsyncWork α).flush ∨
    w.waitOutcome p.1 = some false ∧ w.failCount + 1 ≠ asyncWaitFail ∧
      w.afterWait p = { w with buffer := p.2, failCount := w.failCount + 1, phase := .loop } ∨
    w.waitOutcome p.1 = none ∧ w.afterWait p = { w with buffer := p.2, phase := .waiting } := by
  obtain ⟨r, b⟩ := p
  cases r with
  | released => exact .inl ⟨rfl, rfl⟩
  | timedOut =>
    by_cases hf : w.failCount + 1 = asyncWaitFail
    · exact .inl ⟨by simp [waitOutcome, hf], by simp [afterWait, waitFailed, hf]⟩
    · exact .inr (.inl ⟨by simp [waitOutcome, hf], hf, by simp [afterWait, waitFailed, hf]⟩)
  | blocked => exact .inr (.inr ⟨rfl, rfl⟩)

@[simp] theorem afterWait_pushed (w : AsyncWork α) (p : WaitResult × QueueBuffer α) :
    (w.afterWait p).pushed = w.pushed := by
  rcases afterWait_cases w p with ⟨-, he⟩ | ⟨-, -, he⟩ | ⟨-, he⟩ <;> simp [he]

@[simp] theorem afterWait_sent (w : AsyncWork α) (p : WaitResult × QueueBuffer α) :
    (w.afterWait p).sent = w.sent := by
  rcases afterWait_cases w p with ⟨-, he⟩ | ⟨-, -, he⟩ | ⟨-, he⟩ <;> simp [he]

/-- Everything a step can do, guards included. -/
theorem step_cases {w w' : AsyncWork α} {e : AsyncEvent α} (h : w.step e = some w') :
    (∃ x, e = .push x ∧ w.phase ≠ .processExited ∧
      w' = { w with buffer := (w.buffer.push x).1, pushed := w.pushed ++ [x] }) ∨
    (e = .loop true ∧ w.phase = .loop ∧ w' = { w with phase := .returned }) ∨
    (e = .loop false ∧ w.phase = .loop ∧ w' = w.afterWait w.buffer.pushWaitEnter) ∨
    (∃ t, e = .wake t ∧ w.phase = .waiting ∧ w' = w.afterWait (w.buffer.pushWaitWake t)) ∨
    (∃ r x rest, e = .send r ∧ w.phase = .sending ∧ w.localBuffer = x :: rest ∧
      (w' = { w with phase := .processExited } ∨ ∃ ok, w' = w.sendFront x rest ok)) := by
  cases e with
  | push x =>
    simp only [AsyncWork.step] at h
    split at h <;> cases h
    exact .inl ⟨x, rfl, ‹_›, rfl⟩
  | loop exit =>
    simp only [AsyncWork.step] at h
    split at h
    · cases h
    rename_i hp
    cases exit <;> cases h
    · exact .inr (.inr (.inl ⟨rfl, not_not.mp hp, rfl⟩))
    · exact .inr (.inl ⟨rfl, not_not.mp hp, rfl⟩)
  | wake t =>
    simp only [AsyncWork.step] at h
    split at h <;> cases h
    exact .inr (.inr (.inr (.inl ⟨t, rfl, not_not.mp ‹_›, rfl⟩)))
  | send r =>
    simp only [AsyncWork.step] at h
    split at h
    · rename_i x rest hp hl
      refine .inr (.inr (.inr (.inr ⟨r, x, rest, rfl, hp, hl, ?_⟩)))
      split at h <;> cases h
      · exact .inr ⟨true, rfl⟩
      · exact .inr ⟨false, rfl⟩
      · exact .inl rfl
    · cases h

/-! ### No item is duplicated or reordered -/

/-- The items delivered by a successful send, in order. -/
def delivered (w : AsyncWork α) : List α := (w.sent.filter (·.2)).map (·.1)

/-- What every reachable state satisfies: every pushed item, in push order, has been taken off a
    batch, or is in the worker's batch, or still in the queue; and the batch is empty outside the
    inner loop. -/
structure Inv (w : AsyncWork α) : Prop where
  conserved : w.sent.map (·.1) ++ w.localBuffer ++ w.buffer.queue = w.pushed
  batch : w.phase = .loop ∨ w.phase = .waiting ∨ w.phase = .returned → w.localBuffer = []

theorem Inv.afterWait {w : AsyncWork α} (h : Inv w) (hl : w.localBuffer = [])
    (p : WaitResult × QueueBuffer α) (hb : p.2.queue = w.buffer.queue) : Inv (w.afterWait p) := by
  have hc := h.conserved
  rw [hl, List.append_nil, ← hb] at hc
  rcases afterWait_cases w p with ⟨-, he⟩ | ⟨-, -, he⟩ | ⟨-, he⟩ <;> rw [he]
  · -- The flush moves the whole queue into the empty batch.
    exact ⟨by simpa [flush] using hc, by cases hq : p.2.queue <;> simp [flush, hq]⟩
  all_goals exact ⟨by simpa [hl] using hc, fun _ => hl⟩

theorem Inv.step {w w' : AsyncWork α} {e : AsyncEvent α} (h : Inv w) (hs : w.step e = some w') : Inv w' := by
  rcases step_cases hs with ⟨x, -, -, rfl⟩ | ⟨-, hp, rfl⟩ | ⟨-, hp, rfl⟩ | ⟨t, -, hp, rfl⟩ |
    ⟨r, x, rest, -, -, hl, rfl | ⟨ok, rfl⟩⟩
  · exact ⟨by simp [← h.conserved], h.batch⟩
  · exact ⟨h.conserved, fun _ => h.batch (.inl hp)⟩
  · exact h.afterWait (h.batch (.inl hp)) _ (QueueBuffer.pushWaitEnter_queue _)
  · exact h.afterWait (h.batch (.inr (.inl hp))) _ (QueueBuffer.pushWaitWake_queue _ t)
  · exact ⟨h.conserved, by simp⟩
  · have hc := h.conserved
    rw [hl] at hc
    exact ⟨by simpa [sendFront] using hc, by cases rest <;> simp [sendFront]⟩

theorem Reachable.inv {w : AsyncWork α} (hw : w.Reachable) : Inv w := by
  induction hw with
  | start b => exact ⟨by simp [AsyncWork.start], fun _ => rfl⟩
  | step _ hs ih => exact ih.step hs

/-- Along every interleaving and every send outcome, the items delivered are pushed items in push
    order, each at most once; while no send has timed out, every pushed item is delivered, batched,
    or queued. -/
theorem delivered_in_push_order {w : AsyncWork α} (hw : w.Reachable) :
    w.delivered.Sublist w.pushed ∧
      (w.sent.all (·.2) → w.delivered ++ w.localBuffer ++ w.buffer.queue = w.pushed) := by
  have h := hw.inv.conserved
  refine ⟨?_, fun hall => ?_⟩
  · rw [← h, List.append_assoc]
    exact ((List.filter_sublist _).map _).trans (List.sublist_append_left _ _)
  · rw [delivered, List.filter_eq_self.mpr (by simpa using hall)]
    exact h

theorem delivered_in_push_order_start :
    (start (⟨[1, 2], false, 0, 0⟩ : QueueBuffer Nat)).Reachable ∧
      (start (⟨[1, 2], false, 0, 0⟩ : QueueBuffer Nat)).delivered.Sublist
        (start (⟨[1, 2], false, 0, 0⟩ : QueueBuffer Nat)).pushed ∧
      ((start (⟨[1, 2], false, 0, 0⟩ : QueueBuffer Nat)).sent.all (·.2) →
        (start (⟨[1, 2], false, 0, 0⟩ : QueueBuffer Nat)).delivered ++
          (start (⟨[1, 2], false, 0, 0⟩ : QueueBuffer Nat)).localBuffer ++
          (start (⟨[1, 2], false, 0, 0⟩ : QueueBuffer Nat)).buffer.queue =
        (start (⟨[1, 2], false, 0, 0⟩ : QueueBuffer Nat)).pushed) :=
  ⟨.start _, delivered_in_push_order (.start _)⟩

/-! ### Every queued item is taken within `async_wait_fail` iterations -/

theorem Reachable.failCount_lt {w : AsyncWork α} (hw : w.Reachable) : w.failCount < asyncWaitFail := by
  induction hw with
  | start b => exact (by decide : 0 < asyncWaitFail)
  | step _ hs ih =>
    have hw : ∀ {w : AsyncWork α} p, w.failCount < asyncWaitFail →
        (w.afterWait p).failCount < asyncWaitFail := fun {w} p h => by
      rcases afterWait_cases w p with ⟨-, he⟩ | ⟨-, hf, he⟩ | ⟨-, he⟩ <;> rw [he]
      · exact (by decide : 0 < asyncWaitFail)
      · show w.failCount + 1 < asyncWaitFail
        omega
      · exact h
    rcases step_cases hs with ⟨_, -, -, rfl⟩ | ⟨-, -, rfl⟩ | ⟨-, -, rfl⟩ | ⟨_, -, -, rfl⟩ |
      ⟨_, _, _, -, -, -, rfl | ⟨_, rfl⟩⟩
    all_goals first | exact ih | exact hw _ ih

theorem step_pushed {w w' : AsyncWork α} {e : AsyncEvent α} (h : w.step e = some w') :
    w.pushed <+: w'.pushed := by
  rcases step_cases h with ⟨x, -, -, rfl⟩ | ⟨-, -, rfl⟩ | ⟨-, -, rfl⟩ | ⟨_, -, -, rfl⟩ |
    ⟨_, _, _, -, -, -, rfl | ⟨_, rfl⟩⟩ <;> simp [sendFront]

theorem run_pushed {w w' : AsyncWork α} (es : List (AsyncEvent α)) (h : w.run es = some w') :
    w.pushed <+: w'.pushed := by
  induction es generalizing w with
  | nil => cases h; exact List.prefix_refl _
  | cons e es ih =>
    obtain ⟨u, hu, h⟩ := Option.bind_eq_some.mp h
    exact (step_pushed hu).trans (ih h)

/-- The `push_wait` outcome an event reaches, if it ends a `push_wait` call. -/
def eventOutcome (w : AsyncWork α) : AsyncEvent α → Option Bool
  | .loop false => w.waitOutcome w.buffer.pushWaitEnter.1
  | .wake t => w.waitOutcome (w.buffer.pushWaitWake t).1
  | _ => none

/-- The outcomes of the `push_wait` calls a run ends, in order: one per loop iteration. -/
def outcomes : AsyncWork α → List (AsyncEvent α) → List Bool
  | _, [] => []
  | w, e :: es =>
    match w.step e with
    | some w' => (w.eventOutcome e).toList ++ outcomes w' es
    | none => []

/-- Every item pushed before `w` has been taken out of the queue in `v`. -/
def Drained (w v : AsyncWork α) : Prop := w.pushed.length ≤ v.sent.length + v.localBuffer.length

/-- No `pop_all` since `w`, through `k` `push_wait` calls that returned `false`. -/
structure Undrained (w v : AsyncWork α) (k : Nat) : Prop where
  failCount : v.failCount = w.failCount + k
  batch : v.localBuffer = []
  pushed : w.pushed.length ≤ v.pushed.length

/-- Taking items out of the queue is never undone. -/
theorem Inv.drained_step {w v v' : AsyncWork α} {e : AsyncEvent α} (h : Inv v) (hs : v.step e = some v')
    (hd : Drained w v) : Drained w v' := by
  unfold Drained at *
  have hw : ∀ p, v.localBuffer = [] →
      v.sent.length + v.localBuffer.length ≤ (v.afterWait p).sent.length + (v.afterWait p).localBuffer.length :=
    fun p hl => by simp [hl]
  rcases step_cases hs with ⟨_, -, -, rfl⟩ | ⟨-, -, rfl⟩ | ⟨-, hp, rfl⟩ | ⟨_, -, hp, rfl⟩ |
    ⟨_, _, _, -, -, hl, rfl | ⟨_, rfl⟩⟩
  · exact hd
  · exact hd
  · exact hd.trans (hw _ (h.batch (.inl hp)))
  · exact hd.trans (hw _ (h.batch (.inr (.inl hp))))
  · exact hd
  · simp only [sendFront, hl, List.length_cons, List.length_append, List.length_singleton] at hd ⊢
    omega

theorem Reachable.drained_run {w u v : AsyncWork α} (hu : u.Reachable) (es : List (AsyncEvent α))
    (hr : u.run es = some v) (hd : Drained w u) : Drained w v := by
  induction es generalizing u with
  | nil => cases hr; exact hd
  | cons e es ih =>
    obtain ⟨u', hs, hr⟩ := Option.bind_eq_some.mp hr
    exact ih (hu.step hs) hr (hu.inv.drained_step hs hd)

theorem Undrained.afterWait {w v : AsyncWork α} {k : Nat} (h : Inv v) (hu : Undrained w v k)
    (p : WaitResult × QueueBuffer α) (hb : p.2.queue = v.buffer.queue) :
    v.waitOutcome p.1 = some true ∧ Drained w (v.afterWait p) ∨
    true ∉ (v.waitOutcome p.1).toList ∧ Undrained w (v.afterWait p) (k + (v.waitOutcome p.1).toList.length) := by
  rcases afterWait_cases v p with ⟨ho, he⟩ | ⟨ho, -, he⟩ | ⟨ho, he⟩ <;> rw [he, ho]
  · -- `pop_all` takes the whole queue, which holds every item not sent yet.
    have hc := congrArg List.length h.conserved
    simp only [hu.batch, List.append_nil, List.length_append, List.length_map] at hc
    exact .inl ⟨rfl, by simp only [Drained, flush, QueueBuffer.popAll_fst, hb]; have := hu.pushed; omega⟩
  · exact .inr ⟨by simp, ⟨by simp [hu.failCount]; omega, hu.batch, hu.pushed⟩⟩
  · exact .inr ⟨by simp, hu.failCount, hu.batch, hu.pushed⟩

theorem Undrained.step {w v v' : AsyncWork α} {e : AsyncEvent α} {k : Nat} (h : Inv v)
    (hu : Undrained w v k) (hs : v.step e = some v') :
    v.eventOutcome e = some true ∧ Drained w v' ∨
    true ∉ (v.eventOutcome e).toList ∧ Undrained w v' (k + (v.eventOutcome e).toList.length) := by
  rcases step_cases hs with ⟨_, rfl, -, rfl⟩ | ⟨rfl, -, rfl⟩ | ⟨rfl, -, rfl⟩ | ⟨_, rfl, -, rfl⟩ |
    ⟨_, _, _, -, -, hl, -⟩
  · exact .inr ⟨by simp [eventOutcome], hu.failCount, hu.batch, by simp; have := hu.pushed; omega⟩
  · exact .inr ⟨by simp [eventOutcome], hu.failCount, hu.batch, hu.pushed⟩
  · exact hu.afterWait h _ (QueueBuffer.pushWaitEnter_queue _)
  · exact hu.afterWait h _ (QueueBuffer.pushWaitWake_queue _ _)
  · rw [hu.batch] at hl
    cases hl

theorem Undrained.run {w v v' : AsyncWork α} {k : Nat} (es : List (AsyncEvent α)) (hv : v.Reachable)
    (hu : Undrained w v k) (hr : v.run es = some v') :
    true ∈ v.outcomes es ∧ Drained w v' ∨
    true ∉ v.outcomes es ∧ Undrained w v' (k + (v.outcomes es).length) := by
  induction es generalizing v k with
  | nil => cases hr; exact .inr ⟨by simp [outcomes], hu⟩
  | cons e es ih =>
    obtain ⟨u, hs, hr⟩ := Option.bind_eq_some.mp hr
    simp only [outcomes, hs, List.mem_append, List.length_append]
    rcases hu.step hv.inv hs with ⟨ho, hd⟩ | ⟨ho, hu'⟩
    · exact .inl ⟨.inl (by simp [ho]), (hv.step hs).drained_run es hr hd⟩
    · rcases ih (hv.step hs) hu' hr with ⟨ht, hd'⟩ | ⟨ht, hu''⟩
      · exact .inl ⟨.inr ht, hd'⟩
      · exact .inr ⟨by simp [ho, ht], by rwa [← Nat.add_assoc]⟩

/-- For every interleaving and every pattern of `push_wait` outcomes, `failCount` stays below
    `async_wait_fail`, and within `async_wait_fail` returns of `push_wait` a `pop_all` takes every item
    pushed before, in push order. -/
theorem queued_items_drained_within_fail_bound :
    (∀ w : AsyncWork α, w.Reachable → w.failCount < asyncWaitFail) ∧
    ∀ (w w' : AsyncWork α) (es : List (AsyncEvent α)), w.Reachable → w.phase = .loop →
      w.run es = some w' → asyncWaitFail ≤ (w.outcomes es).length →
      true ∈ w.outcomes es ∧ w.pushed <+: w'.sent.map (·.1) ++ w'.localBuffer := by
  refine ⟨fun w hw => hw.failCount_lt, fun w w' es hw hp hr hn => ?_⟩
  have hw' := hw.run es hr
  rcases Undrained.run es hw (⟨rfl, hw.inv.batch (.inl hp), le_rfl⟩ : Undrained w w 0) hr with ⟨ht, hd⟩ | ⟨-, hu⟩
  · refine ⟨ht, List.prefix_of_prefix_length_le (run_pushed es hr) ?_ (by simpa using hd)⟩
    rw [← hw'.inv.conserved]
    exact List.prefix_append _ _
  · have := hw'.failCount_lt
    rw [hu.failCount] at this
    omega

/-- Four `push_wait` timeouts on a buffer holding one item. -/
def fourTimeouts : List (AsyncEvent Nat) :=
  [.loop false, .wake true, .loop false, .wake true, .loop false, .wake true, .loop false, .wake true]

theorem queued_item_drained_after_four_timeouts :
    true ∈ (start (⟨[7], false, 0, 0⟩ : QueueBuffer Nat)).outcomes fourTimeouts ∧
    (start (⟨[7], false, 0, 0⟩ : QueueBuffer Nat)).pushed <+:
      ([] : List (Nat × Bool)).map (·.1) ++ [7] :=
  queued_items_drained_within_fail_bound.2 _ ⟨⟨[], true, 0, asyncWaitCount⟩, 0, [7], .sending, [7], []⟩
    fourTimeouts (.start _) rfl rfl (by decide)

/-! ### A timed-out send loses its item -/

/-- One item pushed; four `push_wait` timeouts force a flush, since `push` notifies `pushWaitCV`
    while `push_wait` waits on `pushCV`; the send of the item times out. -/
def lossTrace : List (AsyncEvent Nat) :=
  [.push 7, .loop false, .wake true, .loop false, .wake true, .loop false, .wake true, .loop false,
    .wake true, .send .timedOut]

theorem timed_out_send_loses_item :
    ∃ w : AsyncWork Nat, w.Reachable ∧ w.pushed = [7] ∧ w.delivered = [] ∧ w.localBuffer = [] ∧
      w.buffer.queue = [] ∧ w.phase = .loop :=
  ⟨_, (Reachable.start QueueBuffer.init).run lossTrace rfl, rfl, rfl, rfl, rfl, rfl⟩

/-! ### `push_wait` returns `true` with fewer items than the threshold -/

/-- `n` pushes of `x` while push-wait is enabled append them and count them in `pushWaitNew`. -/
theorem run_replicate_push (w : AsyncWork α) (x : α) (n : Nat) (hp : w.phase ≠ .processExited)
    (he : w.buffer.pushWaitEnabled = true) :
    w.run (List.replicate n (.push x)) = some { w with
      buffer := { w.buffer with
        queue := w.buffer.queue ++ List.replicate n x, pushWaitNew := w.buffer.pushWaitNew + n },
      pushed := w.pushed ++ List.replicate n x } := by
  induction n generalizing w with
  | zero => simp [AsyncWork.run]
  | succ n ih =>
    let w₁ : AsyncWork α := { w with
      buffer := { w.buffer with queue := w.buffer.queue ++ [x], pushWaitNew := w.buffer.pushWaitNew + 1 },
      pushed := w.pushed ++ [x] }
    have hs : w.step (.push x) = some w₁ := by simp [w₁, AsyncWork.step, hp, QueueBuffer.push, he]
    rw [List.replicate_succ, AsyncWork.run, hs, Option.some_bind, ih w₁ hp he]
    simp [w₁, Nat.add_assoc, Nat.add_comm 1 n, List.replicate_succ]

/-- One item pushed, flushed by four timeouts and sent: `pushWaitNew` is still `1` with the queue
    empty, since neither `pop_all` nor the forced flush resets it. -/
def forcedFlushTrace : List (AsyncEvent Nat) :=
  .push 7 :: fourTimeouts ++ [.send .sent]

/-- After the forced flush, 99 pushes raise `pushWaitNew` to `async_wait_count`: `push_wait` returns
    `true` at once with 99 items queued, and the `pop_all` it triggers returns a batch of 99. -/
theorem push_wait_true_below_threshold :
    ∃ w w' : AsyncWork Nat, w.Reachable ∧ w.phase = .loop ∧ w.buffer.pushWaitEnter.1 = .released ∧
      w.buffer.size < w.buffer.pushWaitThreshold ∧ w.step (.loop false) = some w' ∧
      w'.localBuffer.length < asyncWaitCount := by
  have h1 : Reachable (⟨⟨[], true, 1, asyncWaitCount⟩, 0, [], .loop, [7], [(7, true)]⟩ : AsyncWork Nat) :=
    (Reachable.start QueueBuffer.init).run forcedFlushTrace rfl
  exact ⟨_, _, h1.run _ (run_replicate_push _ 0 99 (by decide) rfl), rfl, by decide, by decide, rfl,
    by decide⟩

/-! ### When `push_wait` returns `true` -/

/-- Whether an event is a `push_wait` section that returns `true`. -/
def releases (w : AsyncWork α) : AsyncEvent α → Bool
  | .loop false => w.buffer.pushWaitEnter.1 == .released
  | .wake t => (w.buffer.pushWaitWake t).1 == .released
  | _ => false

/-- Whether some step of a run is a `push_wait` that returns `true`. -/
def anyRelease : AsyncWork α → List (AsyncEvent α) → Bool
  | _, [] => false
  | w, e :: es =>
    match w.step e with
    | some w' => w.releases e || anyRelease w' es
    | none => false

/-- The producer's pushes. -/
def pushCount (es : List (AsyncEvent α)) : Nat := es.countP fun | .push _ => true | _ => false

/-- The end of a `push_wait` section changes the buffer's queue at most. -/
theorem afterWait_buffer (w : AsyncWork α) (p : WaitResult × QueueBuffer α) :
    (w.afterWait p).buffer = { p.2 with queue := (w.afterWait p).buffer.queue } := by
  rcases afterWait_cases w p with ⟨-, he⟩ | ⟨-, -, he⟩ | ⟨-, he⟩ <;> rw [he]
  rfl

/-- A step keeps the threshold `start` set, and counts a push in `pushWaitNew`; a `push_wait` that
    does not return `true` leaves the count as it is. -/
theorem step_buffer {w w' : AsyncWork α} {e : AsyncEvent α} (he : w.buffer.pushWaitEnabled = true)
    (h : w.step e = some w') :
    w'.buffer.pushWaitEnabled = true ∧ w'.buffer.pushWaitThreshold = w.buffer.pushWaitThreshold ∧
      (w.releases e = false →
        w'.buffer.pushWaitNew = w.buffer.pushWaitNew + pushCount [e]) := by
  rcases step_cases h with ⟨x, rfl, -, rfl⟩ | ⟨rfl, -, rfl⟩ | ⟨rfl, -, rfl⟩ | ⟨t, rfl, -, rfl⟩ |
    ⟨r, x, rest, rfl, -, -, rfl | ⟨ok, rfl⟩⟩
  · simp [QueueBuffer.push, he, pushCount]
  · simp [he, pushCount]
  · rw [afterWait_buffer]
    rcases w.buffer.pushWaitEnter_spec with ⟨h1, -, h2⟩ | ⟨h1, h2⟩ <;> simp [releases, h1, h2, he, pushCount]
  · rw [afterWait_buffer]
    rcases w.buffer.pushWaitWake_spec t with ⟨h1, -, h2⟩ | ⟨h1, h2⟩ <;> simp [releases, h1, h2, he, pushCount]
  · simp [he, pushCount]
  · simp [sendFront, he, pushCount]

/-- A section that returns `true` found the queue at the threshold or the count of new pushes there,
    and resets the count. -/
theorem step_release {w w' : AsyncWork α} {e : AsyncEvent α} (h : w.step e = some w')
    (hr : w.releases e = true) :
    (w.buffer.pushWaitThreshold ≤ w.buffer.queue.length ∨ w.buffer.pushWaitThreshold ≤ w.buffer.pushWaitNew) ∧
      w'.buffer.pushWaitNew = 0 := by
  rcases step_cases h with ⟨x, rfl, -, rfl⟩ | ⟨rfl, -, rfl⟩ | ⟨rfl, -, rfl⟩ | ⟨t, rfl, -, rfl⟩ |
    ⟨r, x, rest, rfl, -, -, rfl | ⟨ok, rfl⟩⟩ <;> simp only [releases, Bool.false_eq_true] at hr
  · rcases w.buffer.pushWaitEnter_spec with ⟨-, hc, h2⟩ | ⟨h1, -⟩
    · rw [afterWait_buffer, h2]
      exact ⟨hc, rfl⟩
    · simp [h1] at hr
  · rcases w.buffer.pushWaitWake_spec t with ⟨-, hc, h2⟩ | ⟨h1, -⟩
    · rw [afterWait_buffer, h2]
      exact ⟨.inr hc, rfl⟩
    · simp [h1] at hr

theorem Reachable.enabled {w : AsyncWork α} (hw : w.Reachable) :
    w.buffer.pushWaitEnabled = true ∧ w.buffer.pushWaitThreshold = asyncWaitCount := by
  induction hw with
  | start b => exact ⟨rfl, rfl⟩
  | step _ hs ih =>
    obtain ⟨he, ht, -⟩ := step_buffer ih.1 hs
    exact ⟨he, ht.trans ih.2⟩

/-- Along a run with no `push_wait` returning `true`, `pushWaitNew` counts the pushes. -/
theorem Reachable.run_pushWaitNew {w w' : AsyncWork α} {es : List (AsyncEvent α)} (hw : w.Reachable)
    (hr : w.run es = some w') (hno : w.anyRelease es = false) :
    w'.buffer.pushWaitNew = w.buffer.pushWaitNew + pushCount es := by
  induction es generalizing w with
  | nil => cases hr; rfl
  | cons e es ih =>
    obtain ⟨u, hu, hr⟩ := Option.bind_eq_some.mp hr
    simp only [anyRelease, hu, Bool.or_eq_false_iff] at hno
    have hcount : pushCount (e :: es) = pushCount [e] + pushCount es := by
      simp [pushCount, List.countP_cons, Nat.add_comm]
    rw [ih (hw.step hu) hr hno.2, (step_buffer hw.enabled.1 hu).2.2 hno.1, hcount, Nat.add_assoc]

/-- Over every interleaving, `push_wait` returns `true` only when the queue holds `async_wait_count`
    items, or that many were pushed since it last returned `true` (counted from `w`): neither `pop_all`
    nor the forced flush resets the count, which the release does. -/
theorem push_wait_true_needs_count {w w' w'' : AsyncWork α} {es : List (AsyncEvent α)} {e : AsyncEvent α}
    (hw : w.Reachable) (hr : w.run es = some w') (hno : w.anyRelease es = false)
    (hs : w'.step e = some w'') (he : w'.releases e = true) :
    (asyncWaitCount ≤ w'.buffer.queue.length ∨ asyncWaitCount ≤ w.buffer.pushWaitNew + pushCount es) ∧
      w''.buffer.pushWaitNew = 0 := by
  obtain ⟨hc, h0⟩ := step_release hs he
  rw [(hw.run es hr).enabled.2, hw.run_pushWaitNew hr hno] at hc
  exact ⟨hc, h0⟩

/-- A worker started on a buffer already holding `async_wait_count` items. -/
theorem push_wait_true_needs_count_full :
    ∃ w'', (start (⟨List.replicate 100 7, false, 0, 0⟩ : QueueBuffer Nat)).step (.loop false) = some w'' ∧
      (start (⟨List.replicate 100 7, false, 0, 0⟩ : QueueBuffer Nat)).releases (.loop false) = true ∧
      (asyncWaitCount ≤ (start (⟨List.replicate 100 7, false, 0, 0⟩ : QueueBuffer Nat)).buffer.queue.length ∨
        asyncWaitCount ≤ (start (⟨List.replicate 100 7, false, 0, 0⟩ : QueueBuffer Nat)).buffer.pushWaitNew +
          pushCount ([] : List (AsyncEvent Nat))) ∧ w''.buffer.pushWaitNew = 0 :=
  have hs : (start (⟨List.replicate 100 7, false, 0, 0⟩ : QueueBuffer Nat)).step (.loop false) = some _ := rfl
  ⟨_, hs, rfl, push_wait_true_needs_count (.start _) rfl rfl hs rfl⟩

end AsyncWork

end ArmishFireplace.Net
