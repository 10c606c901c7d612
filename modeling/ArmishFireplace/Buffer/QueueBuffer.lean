import Mathlib.Data.List.Nodup
import ArmishFireplace.Actions

/-! The threadsafe FIFO of `buffer/queue_buffer.cpp`.

Every member locks `queueMutex` for its whole body, except `push_wait`, which releases it while it
waits on `pushCV` and takes it again on waking. So any interleaving of producer and consumer threads
is a sequence of the atomic sections below (`Op`), and the history of a buffer along any such
sequence (`Log`) splits the pushed items exactly into the batches `pop_all` returned and the
current contents. -/

namespace ArmishFireplace.Buffer

/-- The two condition variables of a `queue_buffer`. -/
inductive CondVar where
  | pushCV
  | pushWaitCV
  deriving DecidableEq, Repr

/-- `buffer::queue_buffer`: the queue and the push-wait counters that `queueMutex` guards. The items
    (`buffer_item`, move-only) are kept abstract. -/
structure QueueBuffer (α : Type) where
  queue : List α
  pushWaitEnabled : Bool
  pushWaitNew : Nat
  pushWaitThreshold : Nat
  deriving DecidableEq, Repr

/-- How a section of `push_wait` under `queueMutex` ends: it returns `true`, it returns `false` after
    its timeout, or it blocks on `pushCV` with the lock released. -/
inductive WaitResult where
  | released
  | timedOut
  | blocked
  deriving DecidableEq, Repr

namespace QueueBuffer
variable {α : Type}

/-- The constructor: empty, push-wait disabled, both counters zero. -/
def init : QueueBuffer α := ⟨[], false, 0, 0⟩

/-- `set_push_wait_threshold`. -/
def setPushWaitThreshold (b : QueueBuffer α) (threshold : Nat) : QueueBuffer α :=
  { b with pushWaitEnabled := true, pushWaitThreshold := threshold }

/-- `size`. -/
def size (b : QueueBuffer α) : Nat := b.queue.length

/-- `push`: append the item; when push-wait is enabled, count the push and notify `pushWaitCV` once
    the count reaches the threshold. The second component is the condition variable notified. -/
def push (b : QueueBuffer α) (item : α) : QueueBuffer α × Option CondVar :=
  if b.pushWaitEnabled then
    ({ b with queue := b.queue ++ [item], pushWaitNew := b.pushWaitNew + 1 },
      if b.pushWaitThreshold ≤ b.pushWaitNew + 1 then some .pushWaitCV else none)
  else ({ b with queue := b.queue ++ [item] }, none)

/-- `pop_all`: swap the contents out into the returned queue. -/
def popAll (b : QueueBuffer α) : List α × QueueBuffer α := (b.queue, { b with queue := [] })

/-- The predicate of the `wait_for` in `push_wait`. -/
def pushWaitReady (b : QueueBuffer α) : Bool := b.pushWaitThreshold ≤ b.pushWaitNew

/-- `push_wait` from taking the lock to its first block: the size test, then the first test of the
    `wait_for`'s predicate. A release resets the count of new pushes. -/
def pushWaitEnter (b : QueueBuffer α) : WaitResult × QueueBuffer α :=
  if b.pushWaitThreshold ≤ b.queue.length || b.pushWaitReady then
    (.released, { b with pushWaitNew := 0 })
  else (.blocked, b)

/-- `push_wait` after its thread wakes in `pushCV.wait_for`, by the timeout (`timeout`) or otherwise:
    the predicate is tested again, and after the timeout its value is returned. -/
def pushWaitWake (b : QueueBuffer α) (timeout : Bool) : WaitResult × QueueBuffer α :=
  if b.pushWaitReady then (.released, { b with pushWaitNew := 0 })
  else if timeout then (.timedOut, b)
  else (.blocked, b)

@[simp] theorem push_queue (b : QueueBuffer α) (x : α) : (b.push x).1.queue = b.queue ++ [x] := by
  unfold push; split <;> rfl

@[simp] theorem popAll_fst (b : QueueBuffer α) : b.popAll.1 = b.queue := rfl

@[simp] theorem popAll_queue (b : QueueBuffer α) : b.popAll.2.queue = [] := rfl

@[simp] theorem setPushWaitThreshold_queue (b : QueueBuffer α) (n : Nat) :
    (b.setPushWaitThreshold n).queue = b.queue := rfl

@[simp] theorem pushWaitEnter_queue (b : QueueBuffer α) : b.pushWaitEnter.2.queue = b.queue := by
  unfold pushWaitEnter; split <;> rfl

@[simp] theorem pushWaitWake_queue (b : QueueBuffer α) (t : Bool) : (b.pushWaitWake t).2.queue = b.queue := by
  unfold pushWaitWake; split
  · rfl
  · split <;> rfl

/-- A `push_wait` test that releases found the queue or the count of new pushes at the threshold,
    and resets the count; one that does not leaves the buffer as it is. -/
theorem pushWaitEnter_spec (b : QueueBuffer α) :
    b.pushWaitEnter.1 = .released ∧
        (b.pushWaitThreshold ≤ b.queue.length ∨ b.pushWaitThreshold ≤ b.pushWaitNew) ∧
        b.pushWaitEnter.2 = { b with pushWaitNew := 0 } ∨
      b.pushWaitEnter.1 ≠ .released ∧ b.pushWaitEnter.2 = b := by
  unfold pushWaitEnter pushWaitReady
  split <;> simp_all

/-- After a wake, a release found the count of new pushes at the threshold, and resets it. -/
theorem pushWaitWake_spec (b : QueueBuffer α) (t : Bool) :
    (b.pushWaitWake t).1 = .released ∧ b.pushWaitThreshold ≤ b.pushWaitNew ∧
        (b.pushWaitWake t).2 = { b with pushWaitNew := 0 } ∨
      (b.pushWaitWake t).1 ≠ .released ∧ (b.pushWaitWake t).2 = b := by
  unfold pushWaitWake pushWaitReady
  split
  · simp_all
  · split <;> simp

/-- `push` notifies `pushWaitCV` or nothing. -/
theorem push_notifies (b : QueueBuffer α) (x : α) :
    (b.push x).2 = none ∨ (b.push x).2 = some .pushWaitCV := by
  unfold push; split
  · split <;> simp
  · simp

end QueueBuffer

/-! ### Waking a blocked `push_wait` -/

/-- The condition variable whose `wait_for` `push_wait` blocks in. -/
def pushWaitWaitsOn : CondVar := .pushCV

/-- A consumer blocked in `push_wait` and the buffer it shares with the producers; `result` is what
    `push_wait` returned once it left its wait. -/
structure Waiting (α : Type) where
  buffer : QueueBuffer α
  result : Option Bool
  deriving DecidableEq, Repr

/-- What can happen to a blocked consumer: a producer's `push`, or the timeout of its `wait_for`. -/
inductive WaitEvent (α : Type) where
  | push (item : α)
  | timeout
  deriving DecidableEq, Repr

namespace Waiting
variable {α : Type}

/-- The consumer wakes in `wait_for`, by its timeout or by a notification, and tests the predicate. -/
def wake (w : Waiting α) (timeout : Bool) : Waiting α :=
  match w.buffer.pushWaitWake timeout with
  | (.released, b) => ⟨b, some true⟩
  | (.timedOut, b) => ⟨b, some false⟩
  | (.blocked, b) => ⟨b, none⟩

/-- One event. A blocked consumer leaves its wait only when its condition variable is notified or its
    timeout fires. -/
def step (w : Waiting α) : WaitEvent α → Waiting α
  | .push x =>
    if w.result.isNone ∧ (w.buffer.push x).2 = some pushWaitWaitsOn then
      wake ⟨(w.buffer.push x).1, none⟩ false
    else ⟨(w.buffer.push x).1, w.result⟩
  | .timeout => if w.result.isNone then w.wake true else w

/-- Run the events of a list in order. -/
def run (w : Waiting α) (es : List (WaitEvent α)) : Waiting α := es.foldl step w

@[simp] theorem step_push (w : Waiting α) (x : α) :
    w.step (.push x) = ⟨(w.buffer.push x).1, w.result⟩ := by
  unfold step pushWaitWaitsOn
  rcases QueueBuffer.push_notifies w.buffer x with h | h <;> simp [h]

@[simp] theorem wake_result (w : Waiting α) :
    (w.wake true).result = some w.buffer.pushWaitReady := by
  unfold wake QueueBuffer.pushWaitWake
  cases w.buffer.pushWaitReady <;> rfl

theorem run_pushes (w : Waiting α) (xs : List α) :
    (w.run (xs.map .push)).result = w.result := by
  induction xs generalizing w with
  | nil => rfl
  | cons x xs ih => exact (ih (w.step (.push x))).trans (by simp)

/-- For every buffer and every sequence of pushes while a consumer is blocked in `push_wait`, no push
    wakes it: `push` notifies `pushWaitCV`, never the `pushCV` it waits on. It leaves at its timeout,
    returning whether the threshold was reached. -/
theorem pushes_never_wake_push_wait (b : QueueBuffer α) (xs : List α) :
    (∀ x, (b.push x).2 ≠ some pushWaitWaitsOn) ∧
    (run ⟨b, none⟩ (xs.map .push)).result = none ∧
    ((run ⟨b, none⟩ (xs.map .push)).step .timeout).result =
      some (run ⟨b, none⟩ (xs.map .push)).buffer.pushWaitReady := by
  refine ⟨fun x => ?_, run_pushes _ xs, ?_⟩
  · rcases QueueBuffer.push_notifies b x with h | h <;> simp [h, pushWaitWaitsOn]
  · simp [step, run_pushes]

end Waiting

/-! ### Histories -/

/-- One atomic section of a `queue_buffer` member under `queueMutex`. -/
inductive Op (α : Type) where
  | push (item : α)
  | popAll
  | size
  | setPushWaitThreshold (threshold : Nat)
  | pushWaitEnter
  | pushWaitWake (timeout : Bool)
  deriving DecidableEq, Repr

/-- A buffer with its history: every item passed to `push`, and every batch `pop_all` returned, in
    order. -/
structure Log (α : Type) where
  buffer : QueueBuffer α
  pushed : List α
  batches : List (List α)
  deriving DecidableEq, Repr

namespace Log
variable {α : Type}

/-- Run one section and record what it pushed or returned. -/
def step (l : Log α) : Op α → Log α
  | .push x => { l with buffer := (l.buffer.push x).1, pushed := l.pushed ++ [x] }
  | .popAll => { l with buffer := l.buffer.popAll.2, batches := l.batches ++ [l.buffer.popAll.1] }
  | .size => l
  | .setPushWaitThreshold n => { l with buffer := l.buffer.setPushWaitThreshold n }
  | .pushWaitEnter => { l with buffer := l.buffer.pushWaitEnter.2 }
  | .pushWaitWake t => { l with buffer := (l.buffer.pushWaitWake t).2 }

/-- The history of a fresh buffer along a sequence of sections. -/
def run (ops : List (Op α)) : Log α := ops.foldl step ⟨QueueBuffer.init, [], []⟩

/-- Every pushed item is in exactly one returned batch or still queued, in push order. -/
def Conserved (l : Log α) : Prop := l.batches.flatten ++ l.buffer.queue = l.pushed

theorem step_conserved {l : Log α} (h : l.Conserved) (op : Op α) : (l.step op).Conserved := by
  unfold Conserved at *
  cases op <;> simp [step, ← h]

theorem run_conserved (ops : List (Op α)) : (run ops).Conserved := by
  suffices ∀ l : Log α, l.Conserved → (ops.foldl step l).Conserved from this _ rfl
  induction ops with
  | nil => exact fun l h => h
  | cons op ops ih => exact fun l h => ih _ (step_conserved h op)

/-- With distinct items, no item is in two batches, nor in a batch and the queue. -/
theorem Conserved.disjoint {l : Log α} (h : l.Conserved) (hd : l.pushed.Nodup) :
    l.batches.Pairwise List.Disjoint ∧ ∀ b ∈ l.batches, b.Disjoint l.buffer.queue := by
  rw [← h, List.nodup_append, List.nodup_flatten] at hd
  exact ⟨hd.1.2, fun b hb x hx hq => hd.2.2 (List.mem_flatten.mpr ⟨b, hb, hx⟩) hq⟩

/-- Along any sequence of sections, the batches followed by the contents are the pushed items in
    order, `size()` counts the items not yet returned, no item is returned twice, and the threshold
    and `push_wait` sections keep the contents. -/
theorem history_conserved (ops : List (Op α)) :
    (run ops).batches.flatten ++ (run ops).buffer.queue = (run ops).pushed ∧
    (run ops).buffer.size + (run ops).batches.flatten.length = (run ops).pushed.length ∧
    ((run ops).pushed.Nodup →
      (run ops).batches.Pairwise List.Disjoint ∧ ∀ b ∈ (run ops).batches, b.Disjoint (run ops).buffer.queue) ∧
    ∀ n t, (run (ops ++ [.setPushWaitThreshold n])).buffer.queue = (run ops).buffer.queue ∧
      (run (ops ++ [.pushWaitEnter])).buffer.queue = (run ops).buffer.queue ∧
      (run (ops ++ [.pushWaitWake t])).buffer.queue = (run ops).buffer.queue := by
  have h := run_conserved ops
  refine ⟨h, ?_, h.disjoint, fun n t => ?_⟩
  · rw [← h, List.length_append, QueueBuffer.size]
    omega
  · simp [run, List.foldl_append, step]

end Log

end ArmishFireplace.Buffer
