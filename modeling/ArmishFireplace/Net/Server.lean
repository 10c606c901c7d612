import Mathlib.Data.List.Basic
import ArmishFireplace.Actions

/-! `net::middleware::server` (`server.cpp`) together with the work threads it launches.

One caller thread runs the server's members (`setup`, `stop`, `notify`); the sync and async work
threads run beside it. Each event below is one step of one of these threads. `notify` holds
`stateMutex` from its launches to its return, and no work thread takes that lock, so its launch
section is one step (`launch`); a work thread's start-up signal commutes with the launches around
it. The wait on `startCV` is the step that finds its predicate true.

A work thread binds its endpoint (a failed bind exits the process), calls `notify_thread_started`,
and then serves until it sees `doExit`. Moving a thread into a `workThreads` slot that still holds a
joinable thread calls `std::terminate`. -/

namespace ArmishFireplace.Net

/-- The work function a server thread runs: `sync_work` or `async_work`. -/
inductive WorkKind where
  | sync
  | async
  deriving DecidableEq, Repr

/-- Where a work thread is. -/
inductive WorkPhase where
  /-- Launched; creating and binding its socket. -/
  | binding
  /-- Has called `notify_thread_started`; in its `while (!do_exit())` loop. -/
  | serving
  /-- Has seen `doExit` and returned. -/
  | exited
  /-- Joined by `stop`. -/
  | joined
  deriving DecidableEq, Repr

/-- A work thread, with the `notify` call that launched it. -/
structure Worker where
  kind : WorkKind
  call : Nat
  phase : WorkPhase
  deriving DecidableEq, Repr

/-- What `stop` goes on with when it is done: return to its caller, or the rest of a `notify`. -/
inductive AfterStop where
  | ret
  | notify (buf : Nat) (supActs : ActionsList)
  deriving DecidableEq, Repr

/-- Where the caller thread is in the server's members. -/
inductive Caller where
  | idle
  /-- In `stop` with `doExit` set, about to join `workThreads[slot]`. -/
  | stopping (slot : Nat) (next : AfterStop)
  /-- In `notify` after its `stop`, about to take `stateMutex` and launch. -/
  | launching (buf : Nat) (supActs : ActionsList)
  /-- In `notify`, waiting on `startCV`. -/
  | waiting
  deriving DecidableEq, Repr

/-- Whether the process still runs, or ended by `std::terminate` or `exit(EXIT_FAILURE)`. -/
inductive Process where
  | running
  | terminated
  | exited
  deriving DecidableEq, Repr

/-- The server's members with its threads. `moduleAsyncBuffer` names the module whose buffer it
    points to; `workThreads[i]` is the worker a joinable `std::thread` runs. `workers` lists every
    thread launched and `calls` counts `notify` calls; neither is in the code. -/
structure Server where
  moduleAsyncBuffer : Option Nat
  iEndpoint : String
  oEndpoint : String
  isRunning : Bool
  doExit : Bool
  startupState : Nat
  startupStateTarget : Nat
  workThreads : List (Option Nat)
  workers : List Worker
  calls : Nat
  caller : Caller
  process : Process
  deriving DecidableEq, Repr

namespace Server

/-- The constructor: no buffer, empty endpoints, stopped, counters zero, two empty slots. -/
def init : Server :=
  ⟨none, "", "", false, false, 0, 0, [none, none], [], 0, .idle, .running⟩

/-- `setup`: copy the endpoints unless the server is running; an endpoint that does not fit the
    128-byte array with its terminator throws `invalid_argument` before anything is copied. -/
def setup (s : Server) (i o : String) : Outcome Server :=
  if s.isRunning then .ret s
  else if 128 < i.utf8ByteSize + 1 ∨ 128 < o.utf8ByteSize + 1 then .throw (.invalidArgument ErrMsg.arybnds) s
  else .ret { s with iEndpoint := i, oEndpoint := o }

/-- Where `stop` continues once it has returned. -/
def afterStop (s : Server) : AfterStop → Server
  | .ret => { s with caller := .idle }
  | .notify buf supActs => { s with caller := .launching buf supActs }

/-- `stop` up to its loop: it returns at once unless the server is running. -/
def beginStop (s : Server) (next : AfterStop) : Server :=
  if !s.isRunning then afterStop s next
  else { s with doExit := true, caller := .stopping 0 next }

/-- Set the phase of worker `w`. -/
def setPhase (s : Server) (w : Nat) (p : WorkPhase) : Server :=
  match s.workers[w]? with
  | some x => { s with workers := s.workers.set w { x with phase := p } }
  | none => s

/-- One turn of `stop`'s loop over `workThreads`, and past the last slot its tail. `none` while the
    thread being joined has not returned. -/
def stopStep (s : Server) (slot : Nat) (next : AfterStop) : Option Server :=
  if slot < 2 then
    match s.workThreads.getD slot none with
    | none => some { s with caller := .stopping (slot + 1) next }
    | some w =>
      if (s.workers[w]?.map (·.phase)) = some .exited then
        some { s.setPhase w .joined with
          workThreads := s.workThreads.set slot none, caller := .stopping (slot + 1) next }
      else none
  else some (afterStop { s with doExit := false, isRunning := false } next)

/-- `workThreads[startupStateTarget++] = std::thread(...)`: `none` is `std::terminate`, for a slot
    that still holds a joinable thread. -/
def startWork (s : Server) (kind : WorkKind) : Option Server :=
  if (s.workThreads.getD s.startupStateTarget none).isSome then none
  else some { s with
    workThreads := s.workThreads.set s.startupStateTarget (some s.workers.length),
    workers := s.workers ++ [⟨kind, s.calls, .binding⟩],
    startupStateTarget := s.startupStateTarget + 1 }

/-- Launch the work thread of `kind` when the actions want it; the endpoint it binds must be set. -/
def launchIf (wanted : Bool) (endpoint : String) (kind : WorkKind) (s : Server) : Outcome Server :=
  if wanted then
    if endpoint = "" then .throw (.runtimeError ErrMsg.zrlngth) s
    else match startWork s kind with
      | some t => .ret t
      | none => .abort
  else .ret s

/-- The launch section of `notify`, between its `stop` and its wait. -/
def launch (s : Server) (buf : Nat) (supActs : ActionsList) : Outcome Server :=
  match launchIf (syncActions supActs) s.iEndpoint .sync
      { s with startupStateTarget := 0, moduleAsyncBuffer := some buf } with
  | .ret s₁ => launchIf (asyncActions supActs) s.oEndpoint .async s₁
  | o => o

/-- An event: one step of the caller or of a work thread. -/
inductive Event where
  /-- The caller calls `setup`. -/
  | setup (i o : String)
  /-- The caller calls `stop`. -/
  | stop
  /-- The caller calls `notify` with a module's buffer and supported actions. -/
  | notify (buf : Nat) (supActs : ActionsList)
  /-- The caller's next step inside `stop` or `notify`. -/
  | caller
  /-- Worker `w` binds its endpoint (or fails to, and the process exits), then signals start-up. -/
  | bind (w : Nat) (ok : Bool)
  /-- Worker `w` sees `doExit` and returns. -/
  | exit (w : Nat)
  deriving DecidableEq, Repr

/-- One step of the server and its threads; `none` if the event cannot happen now. -/
def step (s : Server) : Event → Option Server
  | .setup i o =>
    if s.process = .running ∧ s.caller = .idle then
      match s.setup i o with
      | .ret t => some t
      | .throw _ t => some t
      | .abort => none
    else none
  | .stop => if s.process = .running ∧ s.caller = .idle then some (s.beginStop .ret) else none
  | .notify buf supActs =>
    if s.process = .running ∧ s.caller = .idle then
      some ({ s with calls := s.calls + 1 }.beginStop (.notify buf supActs))
    else none
  | .caller =>
    if s.process ≠ .running then none
    else match s.caller with
      | .idle => none
      | .stopping slot next => s.stopStep slot next
      | .launching buf supActs =>
        match s.launch buf supActs with
        | .ret t => some { t with caller := .waiting }
        | .throw _ t => some { t with caller := .idle }
        | .abort => some { s with process := .terminated }
      | .waiting =>
        if s.startupState = s.startupStateTarget then some { s with caller := .idle } else none
  | .bind w ok =>
    if s.process = .running ∧ (s.workers[w]?.map (·.phase)) = some .binding then
      if ok then some { s.setPhase w .serving with startupState := s.startupState + 1 }
      else some { s with process := .exited }
    else none
  | .exit w =>
    if s.process = .running ∧ s.doExit ∧ (s.workers[w]?.map (·.phase)) = some .serving then
      some (s.setPhase w .exited)
    else none

/-- Run the events of a list in order. -/
def run : Server → List Event → Option Server
  | s, [] => some s
  | s, e :: es => (step s e).bind (run · es)

/-- The states the server and its threads reach from construction. -/
inductive Reachable : Server → Prop
  | constructed : Reachable init
  | step {s t : Server} {e : Event} : Reachable s → step s e = some t → Reachable t

theorem Reachable.run {s t : Server} : ∀ (es : List Event), Reachable s → s.run es = some t → Reachable t
  | [], hs, h => by
    cases h
    exact hs
  | e :: es, hs, h => by
    simp only [Server.run, Option.bind_eq_some] at h
    obtain ⟨u, hu, h⟩ := h
    exact Reachable.run es (hs.step hu) h

/-! ### Frame lemmas -/

theorem setup_cases (s : Server) (i o : String) :
    s.setup i o = .ret s ∨ s.setup i o = .throw (.invalidArgument ErrMsg.arybnds) s ∨
      s.setup i o = .ret { s with iEndpoint := i, oEndpoint := o } := by
  unfold setup
  split_ifs <;> simp

/-- A `setup` step changes the endpoints at most. -/
theorem step_setup {s t : Server} {i o : String} (h : s.step (.setup i o) = some t) :
    ∃ i' o', t = { s with iEndpoint := i', oEndpoint := o' } := by
  rcases setup_cases s i o with he | he | he <;> simp only [Server.step, he] at h <;> split at h <;>
    cases h <;> exact ⟨_, _, rfl⟩

@[simp] theorem setPhase_caller (s : Server) (w : Nat) (p : WorkPhase) : (s.setPhase w p).caller = s.caller := by
  unfold setPhase; split <;> rfl

@[simp] theorem setPhase_startupState (s : Server) (w : Nat) (p : WorkPhase) :
    (s.setPhase w p).startupState = s.startupState := by
  unfold setPhase; split <;> rfl

@[simp] theorem setPhase_startupStateTarget (s : Server) (w : Nat) (p : WorkPhase) :
    (s.setPhase w p).startupStateTarget = s.startupStateTarget := by
  unfold setPhase; split <;> rfl

theorem setPhase_eq {s : Server} {w : Nat} {x : Worker} (hx : s.workers[w]? = some x) (p : WorkPhase) :
    s.setPhase w p = { s with workers := s.workers.set w { x with phase := p } } := by
  simp [setPhase, hx]

/-! ### What every reachable state satisfies -/

/-- The workers that have signalled start-up. -/
def signalled (s : Server) : Nat := s.workers.countP (·.phase != .binding)

/-- The workers the current `notify` call launched. -/
def launched (s : Server) : Nat := s.workers.countP (·.call == s.calls)

/-- What holds whatever the caller does: nothing sets `isRunning`, so no thread is told to exit or
    joined; the threads come from one `notify` call, the first in `workThreads[0]`; `startupState`
    counts every signal. -/
structure Core (s : Server) : Prop where
  isRunning : s.isRunning = false
  doExit : s.doExit = false
  slots : s.workThreads.length = 2
  slot0 : s.workers ≠ [] → (s.workThreads.getD 0 none).isSome
  oneCall : ∀ w ∈ s.workers, ∀ w' ∈ s.workers, w.call = w'.call
  callLe : ∀ w ∈ s.workers, w.call ≤ s.calls
  phases : ∀ w ∈ s.workers, w.phase = .binding ∨ w.phase = .serving
  startupState : s.startupState = s.signalled

/-- What holds of the caller's place: `stop` never gets to its loop, a `notify` about to launch has
    launched nothing yet, and a waiting one targets the threads it launched. -/
def CallerInv (s : Server) : Prop :=
  match s.caller with
  | .idle => True
  | .stopping _ _ => False
  | .launching _ _ => ∀ w ∈ s.workers, w.call < s.calls
  | .waiting => s.startupStateTarget = s.launched

/-- The invariant of the server's reachable states. -/
structure Inv (s : Server) : Prop where
  core : Core s
  caller : CallerInv s

theorem Core.with_caller {s : Server} (h : Core s) (c : Caller) : Core { s with caller := c } where
  isRunning := h.isRunning
  doExit := h.doExit
  slots := h.slots
  slot0 := h.slot0
  oneCall := h.oneCall
  callLe := h.callLe
  phases := h.phases
  startupState := h.startupState

/-- A thread moved into a free slot keeps the core, and counts towards the target. -/
theorem startWork_core {s t : Server} {k : WorkKind} (h : Core s) (ht : s.startupStateTarget = s.launched)
    (hw : s.startWork k = some t) : Core t ∧ t.startupStateTarget = t.launched := by
  unfold startWork at hw
  split at hw
  · cases hw
  rename_i hfree
  cases hw
  -- A second launch of the call goes to slot 1, after a thread of the same call.
  have same : s.startupStateTarget ≠ 0 → ∀ w ∈ s.workers, w.call = s.calls := fun h0 w hw => by
    obtain ⟨w₀, hw₀, hc⟩ : ∃ w₀ ∈ s.workers, w₀.call = s.calls := by
      have : 0 < s.launched := by omega
      simpa [launched, List.countP_pos_iff] using this
    exact (h.oneCall w hw w₀ hw₀).trans hc
  refine ⟨⟨h.isRunning, h.doExit, by simp [h.slots], fun _ => ?_, ?_, ?_, ?_, ?_⟩, ?_⟩
  · by_cases h0 : s.startupStateTarget = 0
    · simp [h0, List.getD_eq_getElem?_getD, List.getElem?_set, h.slots]
    · have hne : s.workers ≠ [] := fun he => by simp [launched, he] at ht; exact h0 ht
      simpa [List.getD_eq_getElem?_getD, List.getElem?_set, h0] using h.slot0 hne
  · intro w hw w' hw'
    simp only [List.mem_append, List.mem_singleton] at hw hw'
    by_cases h0 : s.startupStateTarget = 0
    · have hnil : s.workers = [] := by
        by_contra hne
        exact absurd (h.slot0 hne) (by simpa [h0] using hfree)
      simp only [hnil, List.not_mem_nil, false_or] at hw hw'
      rw [hw, hw']
    · rcases hw with hw | rfl <;> rcases hw' with hw' | rfl
      · exact h.oneCall w hw w' hw'
      · exact same h0 w hw
      · exact (same h0 w' hw').symm
      · rfl
  · intro w hw
    simp only [List.mem_append, List.mem_singleton] at hw
    rcases hw with hw | rfl
    · exact h.callLe w hw
    · exact Nat.le_refl _
  · intro w hw
    simp only [List.mem_append, List.mem_singleton] at hw
    rcases hw with hw | rfl
    · exact h.phases w hw
    · exact Or.inl rfl
  · simp [h.startupState, signalled]
  · simp [launched, ht]

/-- A launch that returns or throws keeps the core. -/
theorem launchIf_core (b : Bool) (ep : String) (k : WorkKind) {s : Server} (h : Core s)
    (ht : s.startupStateTarget = s.launched) :
    (∀ t, launchIf b ep k s = .ret t → Core t ∧ t.startupStateTarget = t.launched) ∧
      ∀ e t, launchIf b ep k s = .throw e t → Core t := by
  unfold launchIf
  split
  · split
    · exact ⟨fun _ h' => (by cases h'), fun _ _ h' => (by cases h'; exact h)⟩
    · split
      · rename_i t' hw
        exact ⟨fun _ h' => (by cases h'; exact startWork_core h ht hw), fun _ _ h' => (by cases h')⟩
      · exact ⟨fun _ h' => (by cases h'), fun _ _ h' => (by cases h')⟩
  · exact ⟨fun _ h' => (by cases h'; exact ⟨h, ht⟩), fun _ _ h' => (by cases h')⟩

/-- The launch section keeps the core; when it returns, the target is what it launched. -/
theorem launch_core {s : Server} (buf : Nat) (m : ActionsList) (h : Core s)
    (hf : ∀ w ∈ s.workers, w.call < s.calls) :
    (∀ t, s.launch buf m = .ret t → Core t ∧ t.startupStateTarget = t.launched) ∧
      ∀ e t, s.launch buf m = .throw e t → Core t := by
  have h₀ : Core { s with startupStateTarget := 0, moduleAsyncBuffer := some buf } :=
    ⟨h.isRunning, h.doExit, h.slots, h.slot0, h.oneCall, h.callLe, h.phases, h.startupState⟩
  -- The call was counted when it began, so no thread carries its number yet.
  have ht₀ : 0 = ({ s with startupStateTarget := 0, moduleAsyncBuffer := some buf } : Server).launched :=
    (List.countP_eq_zero.mpr fun w hw heq => Nat.ne_of_lt (hf w hw) (beq_iff_eq.mp heq)).symm
  have k₀ := launchIf_core (syncActions m) s.iEndpoint .sync h₀ ht₀
  cases hs : launchIf (syncActions m) s.iEndpoint .sync
    { s with startupStateTarget := 0, moduleAsyncBuffer := some buf } with
  | ret s₁ =>
    obtain ⟨c₁, t₁⟩ := k₀.1 s₁ hs
    simp only [launch, hs]
    exact launchIf_core _ _ _ c₁ t₁
  | throw e t₁ =>
    simp only [launch, hs, reduceCtorEq, false_implies, Outcome.throw.injEq, true_and, implies_true]
    rintro e' t ⟨-, rfl⟩
    exact k₀.2 e t₁ hs
  | abort => simp [launch, hs]

theorem Core.congr {s t : Server} (h : Core s) (h₁ : t.isRunning = s.isRunning) (h₂ : t.doExit = s.doExit)
    (h₃ : t.workThreads = s.workThreads) (h₄ : t.workers = s.workers) (h₅ : s.calls ≤ t.calls)
    (h₆ : t.startupState = s.startupState) : Core t where
  isRunning := h₁ ▸ h.isRunning
  doExit := h₂ ▸ h.doExit
  slots := h₃ ▸ h.slots
  slot0 := h₃ ▸ h₄ ▸ h.slot0
  oneCall := h₄ ▸ h.oneCall
  callLe := fun w hw => Nat.le_trans (h.callLe w (h₄ ▸ hw)) h₅
  phases := h₄ ▸ h.phases
  startupState := by rw [h₆, h.startupState, signalled, signalled, h₄]

theorem countP_set_of_eq {α : Type} (p : α → Bool) {l : List α} {i : Nat} {x y : α} (hx : l[i]? = some x)
    (hp : p y = p x) : (l.set i y).countP p = l.countP p := by
  obtain ⟨hi, rfl⟩ := List.getElem?_eq_some_iff.mp hx
  have := List.boole_getElem_le_countP p l i hi
  rw [List.countP_set p l i y hi, hp]
  by_cases hq : p l[i] <;> simp only [hq, if_true, if_false, Bool.false_eq_true] at this ⊢ <;> omega

/-- A worker's start-up signal: it serves, and `startupState` counts it. -/
theorem Inv.bind {s : Server} {w : Nat} {x : Worker} (h : Inv s) (hx : s.workers[w]? = some x)
    (hb : x.phase = .binding) : Inv { s.setPhase w .serving with startupState := s.startupState + 1 } := by
  rw [setPhase_eq hx]
  have mem : ∀ y ∈ s.workers.set w { x with phase := .serving }, y ∈ s.workers ∨ y = { x with phase := .serving } :=
    fun y hy => (List.mem_or_eq_of_mem_set hy).imp_right id
  have hxw : x ∈ s.workers := List.getElem?_mem hx
  refine ⟨⟨h.core.isRunning, h.core.doExit, by simp [h.core.slots], fun hne => h.core.slot0 (by simpa using hne),
    fun y hy y' hy' => ?_, fun y hy => ?_, fun y hy => ?_, ?_⟩, ?_⟩
  · rcases mem y hy with hy | rfl <;> rcases mem y' hy' with hy' | rfl
    · exact h.core.oneCall y hy y' hy'
    · exact h.core.oneCall y hy x hxw
    · exact h.core.oneCall x hxw y' hy'
    · rfl
  · rcases mem y hy with hy | rfl
    · exact h.core.callLe y hy
    · exact h.core.callLe x hxw
  · rcases mem y hy with hy | rfl
    · exact h.core.phases y hy
    · exact Or.inr rfl
  · obtain ⟨hi, hxe⟩ := List.getElem?_eq_some_iff.mp hx
    have := List.countP_set (·.phase != .binding) s.workers w { x with phase := .serving } hi
    simp [signalled, h.core.startupState, this, hxe, hb]
  · have hl : (s.workers.set w { x with phase := .serving }).countP (·.call == s.calls) = s.launched :=
      countP_set_of_eq _ hx rfl
    have hc := h.caller
    unfold CallerInv at hc ⊢
    split at hc <;> simp_all [launched]
    exact fun y hy => (List.mem_or_eq_of_mem_set hy).elim (hc y) fun he => he ▸ hc x hxw

/-- Every step keeps the invariant. -/
theorem Inv.step {s t : Server} {e : Event} (h : Inv s) (hs : s.step e = some t) : Inv t := by
  have hnr : ∀ next, s.beginStop next = s.afterStop next := fun _ => by simp [beginStop, h.core.isRunning]
  cases e with
  | setup i o =>
    obtain ⟨i', o', rfl⟩ := step_setup hs
    exact ⟨h.core.congr rfl rfl rfl rfl (Nat.le_refl _) rfl, h.caller⟩
  | stop =>
    simp only [Server.step, hnr] at hs
    split at hs <;> cases hs
    exact ⟨h.core.with_caller _, trivial⟩
  | notify buf m =>
    simp only [Server.step] at hs
    split at hs <;> cases hs
    simp only [beginStop, h.core.isRunning, Bool.not_false, if_true, afterStop]
    exact ⟨h.core.congr h.core.isRunning.symm rfl rfl rfl (Nat.le_succ _) rfl,
      fun w hw => Nat.lt_succ_of_le (h.core.callLe w hw)⟩
  | caller =>
    have hc := h.caller
    simp only [Server.step] at hs
    split at hs
    · cases hs
    unfold CallerInv at hc
    split at hs <;> rename_i hcs <;> rw [hcs] at hc
    · cases hs
    · exact absurd hc id
    · rename_i buf m
      have k := launch_core buf m h.core hc
      split at hs <;> rename_i t' ho <;> cases hs
      · obtain ⟨c, tc⟩ := k.1 _ ho
        exact ⟨c.with_caller _, tc⟩
      · exact ⟨(k.2 _ _ ho).with_caller _, trivial⟩
      · exact ⟨h.core.congr rfl rfl rfl rfl (Nat.le_refl _) rfl, by simpa [CallerInv, hcs] using hc⟩
    · split at hs <;> cases hs
      exact ⟨h.core.with_caller _, trivial⟩
  | bind w ok =>
    simp only [Server.step] at hs
    split at hs
    · rename_i hb
      obtain ⟨x, hx, hxb⟩ : ∃ x, s.workers[w]? = some x ∧ x.phase = .binding := by
        simpa using hb.2
      split at hs <;> cases hs
      · exact h.bind hx hxb
      · exact ⟨h.core.congr rfl rfl rfl rfl (Nat.le_refl _) rfl, h.caller⟩
    · cases hs
  | exit w =>
    simp only [Server.step, h.core.doExit] at hs
    simp at hs

theorem Reachable.of_run (es : List Event) {s : Server} (h : Server.init.run es = some s) : Reachable s :=
  Reachable.constructed.run es h

theorem Reachable.inv {s : Server} (hs : Reachable s) : Inv s := by
  induction hs with
  | constructed =>
    exact ⟨⟨rfl, rfl, rfl, fun h => absurd rfl h, fun _ h => (by cases h), fun _ h => (by cases h),
      fun _ h => (by cases h), rfl⟩, trivial⟩
  | step _ hst ih => exact ih.step hst

/-! ### Launches -/

theorem launchIf_throw {b : Bool} {ep : String} {k : WorkKind} {s t : Server} {e : Exc} :
    launchIf b ep k s = .throw e t ↔ b = true ∧ ep = "" ∧ e = .runtimeError ErrMsg.zrlngth ∧ t = s := by
  unfold launchIf
  cases b <;> by_cases he : ep = "" <;> cases hw : s.startWork k <;> simp [he, hw, eq_comm]

theorem launchIf_ret {b : Bool} {ep : String} {k : WorkKind} {s t : Server} :
    launchIf b ep k s = .ret t ↔ (b = false ∧ t = s) ∨ (b = true ∧ ep ≠ "" ∧ s.startWork k = some t) := by
  unfold launchIf
  cases b <;> by_cases he : ep = "" <;> cases hw : s.startWork k <;> simp [he, hw, eq_comm]

theorem startWork_eq {s t : Server} {k : WorkKind} (h : s.startWork k = some t) :
    t = { s with
      workThreads := s.workThreads.set s.startupStateTarget (some s.workers.length),
      workers := s.workers ++ [⟨k, s.calls, .binding⟩], startupStateTarget := s.startupStateTarget + 1 } := by
  unfold startWork at h
  split at h <;> cases h
  rfl

/-- A launch section for actions that hold an action either throws or launches a thread. -/
theorem launch_target_pos {s t : Server} {buf : Nat} {m : ActionsList}
    (hm : syncActions m = true ∨ asyncActions m = true) (h : s.launch buf m = .ret t) :
    0 < t.startupStateTarget := by
  unfold launch at h
  split at h
  · rename_i s₁ hs₁
    rcases launchIf_ret.mp h with ⟨ha, rfl⟩ | ⟨-, -, hw⟩
    · rcases launchIf_ret.mp hs₁ with ⟨hb, -⟩ | ⟨-, -, hw₁⟩
      · simp [hb, ha] at hm
      · rw [startWork_eq hw₁]
        exact Nat.succ_pos _
    · rw [startWork_eq hw]
      exact Nat.succ_pos _
  · rename_i hnot
    exact (hnot t h).elim

/-! ### The start-up barrier -/

/-- An event a program can send: `notify` gets a module's supported actions, which `pack` builds
    from at least one action. -/
def Event.Valid : Event → Prop
  | .notify _ supActs => syncActions supActs = true ∨ asyncActions supActs = true
  | _ => True

instance (e : Event) : Decidable e.Valid :=
  match e with
  | .notify _ supActs => inferInstanceAs (Decidable (syncActions supActs = true ∨ asyncActions supActs = true))
  | .setup _ _ | .stop | .caller | .bind _ _ | .exit _ => isTrue trivial

/-- The states reached from construction by valid events. -/
inductive ValidReachable : Server → Prop
  | constructed : ValidReachable init
  | step {s t : Server} {e : Event} : ValidReachable s → e.Valid → step s e = some t → ValidReachable t

theorem ValidReachable.reachable {s : Server} (hs : ValidReachable s) : Reachable s := by
  induction hs with
  | constructed => exact .constructed
  | step _ _ hst ih => exact ih.step hst

theorem ValidReachable.of_run (es : List Event) (hes : ∀ e ∈ es, e.Valid) {s : Server}
    (h : Server.init.run es = some s) : ValidReachable s := by
  suffices ∀ es u t, (∀ e ∈ es, e.Valid) → ValidReachable u → u.run es = some t → ValidReachable t from
    this es _ _ hes .constructed h
  intro es
  induction es with
  | nil => intro u t _ hu h; cases h; exact hu
  | cons e es ih =>
    intro u t hes hu h
    obtain ⟨v, hv, h⟩ := Option.bind_eq_some.mp h
    exact ih v t (fun e' he' => hes e' (List.mem_cons_of_mem e he')) (hu.step (hes e (List.mem_cons_self e es)) hv) h

/-- What valid events add to `CallerInv`: a `notify` on its way to launch has an action, and a
    waiting one has launched a thread. -/
def LaunchInv (s : Server) : Prop :=
  match s.caller with
  | .launching _ m => syncActions m = true ∨ asyncActions m = true
  | .waiting => 0 < s.startupStateTarget
  | _ => True

theorem LaunchInv.step {s t : Server} {e : Event} (h : Inv s) (hl : LaunchInv s) (he : e.Valid)
    (hs : s.step e = some t) : LaunchInv t := by
  have hnr : ∀ next, s.beginStop next = s.afterStop next := fun _ => by simp [beginStop, h.core.isRunning]
  cases e with
  | setup i o =>
    obtain ⟨i', o', rfl⟩ := step_setup hs
    exact hl
  | stop =>
    simp only [Server.step, hnr] at hs
    split at hs <;> cases hs
    trivial
  | notify buf m =>
    simp only [Server.step] at hs
    split at hs <;> cases hs
    simpa only [beginStop, h.core.isRunning, Bool.not_false, if_true, afterStop, LaunchInv] using he
  | caller =>
    have hc := h.caller
    simp only [Server.step] at hs
    split at hs
    · cases hs
    unfold CallerInv at hc
    unfold LaunchInv at hl
    split at hs <;> rename_i hcs <;> rw [hcs] at hc hl
    · cases hs
    · exact absurd hc id
    · split at hs <;> rename_i t' ho <;> cases hs
      · exact (launch_target_pos hl ho : 0 < t'.startupStateTarget)
      · trivial
      · simpa [LaunchInv, hcs] using hl
    · split at hs <;> cases hs
      trivial
  | bind w ok =>
    simp only [Server.step] at hs
    split at hs
    · split at hs <;> cases hs <;> simpa [LaunchInv] using hl
    · cases hs
  | exit w =>
    simp only [Server.step, h.core.doExit] at hs
    simp at hs

/-- `setup`, `notify` with `REQUEST`, the sync worker's start-up signal, and the end of the wait. -/
def startTrace : List Event :=
  [.setup "tcp://*:5555" "tcp://*:5556", .notify 0 (pack .request []), .caller, .bind 0 true, .caller]

/-- Where `startTrace` leaves the server: `notify` has returned, its sync worker serves. -/
def started : Server :=
  { init with
    iEndpoint := "tcp://*:5555", oEndpoint := "tcp://*:5556", moduleAsyncBuffer := some 0
    startupState := 1, startupStateTarget := 1, workThreads := [some 0, none]
    workers := [⟨.sync, 1, .serving⟩], calls := 1 }

theorem started_reachable : Reachable started := .of_run startTrace (by decide)

/-- `stop()` returns at its first test, since nothing sets `isRunning`: from `started` it returns
    while the sync worker serves unjoined in `workThreads[0]`, and a second `notify` moving a thread
    into that slot terminates. -/
theorem stop_returns_before_join :
    (∃ s t, Reachable s ∧ s.step .stop = some t ∧ t.caller = .idle ∧ t.isRunning = false ∧
      t.workThreads = [some 0, none] ∧ t.workers = [⟨.sync, 1, .serving⟩]) ∧
    ∃ s t, Reachable s ∧ (s.workThreads.getD 0 none).isSome ∧
      s.run [.notify 0 (pack .request []), .caller] = some t ∧ t.process = .terminated :=
  ⟨⟨started, started, started_reachable, by decide, rfl, rfl, rfl, rfl⟩,
    ⟨started, { started with calls := 2, caller := .launching 0 4, process := .terminated },
      started_reachable, rfl, by decide, rfl⟩⟩

/-! ### A throwing `notify` -/

/-- When `notify` throws, `isRunning` and `doExit` are false and the error is the empty endpoint. It
    launched a thread only for sync work with `iEndpoint` set; it then threw at the async check, and
    that worker runs on in `workThreads[0]`. -/
theorem notify_throw_leaves {s t : Server} {e : Exc} {buf : Nat} {m : ActionsList} (hs : Reachable s)
    (hc : s.caller = .launching buf m) (ht : s.launch buf m = .throw e t) :
    t.isRunning = false ∧ t.doExit = false ∧ e = .runtimeError ErrMsg.zrlngth ∧
      t.workers.filter (·.call == t.calls) =
        (if syncActions m = true ∧ s.iEndpoint ≠ "" then [⟨.sync, s.calls, .binding⟩] else []) ∧
      (syncActions m = true → s.iEndpoint ≠ "" →
        asyncActions m = true ∧ s.oEndpoint = "" ∧ t.workThreads.getD 0 none = some s.workers.length) := by
  have h := hs.inv
  have hf : ∀ w ∈ s.workers, w.call < s.calls := by simpa [CallerInv, hc] using h.caller
  have c := (launch_core buf m h.core hf).2 e t ht
  have none : s.workers.filter (·.call == s.calls) = [] :=
    List.filter_eq_nil_iff.mpr fun w hw heq => Nat.ne_of_lt (hf w hw) (beq_iff_eq.mp heq)
  refine ⟨c.isRunning, c.doExit, ?_⟩
  unfold launch at ht
  split at ht
  · rename_i s₁ hs₁
    obtain ⟨ha, ho, rfl, rfl⟩ := launchIf_throw.mp ht
    rcases launchIf_ret.mp hs₁ with ⟨hb, rfl⟩ | ⟨hb, hne, hw⟩
    · simp [hb, none]
    · -- The sync worker went into slot `0`, and the async check threw.
      rw [startWork_eq hw]
      refine ⟨rfl, by simp [hb, hne, none], fun _ _ => ⟨ha, ho, ?_⟩⟩
      simp [List.getD_eq_getElem?_getD, List.getElem?_set, h.core.slots]
  · obtain ⟨hb, he, rfl, rfl⟩ := launchIf_throw.mp ht
    simp [he, none]

/-- The state in which `notify` with `REQUEST | WAIT` is about to launch, after `setup` with an empty
    `oEndpoint`; and where its launch section leaves the server. -/
def throwStart : Server := { init with iEndpoint := "tcp://*:5555", calls := 1, caller := .launching 0 6 }

def throwEnd : Server :=
  { throwStart with
    moduleAsyncBuffer := some 0, startupStateTarget := 1, workThreads := [some 0, none]
    workers := [⟨.sync, 1, .binding⟩] }

/-- With `REQUEST | WAIT`, `iEndpoint` set and `oEndpoint` empty, `notify` throws with the sync worker
    it launched still running. -/
theorem notify_throw_keeps_worker :
    Reachable throwStart ∧
      throwStart.launch 0 (pack .request [.wait]) = .throw (.runtimeError ErrMsg.zrlngth) throwEnd ∧
      ⟨.sync, throwEnd.calls, .binding⟩ ∈ throwEnd.workers :=
  ⟨.of_run [.setup "tcp://*:5555" "", .notify 0 (pack .request [.wait])] rfl, rfl, by decide⟩

theorem notify_throw_leaves_sync_running :
    throwStart.launch 0 (pack .request [.wait]) = .throw (.runtimeError ErrMsg.zrlngth) throwEnd ∧
      throwEnd.isRunning = false ∧ throwEnd.doExit = false ∧
      .runtimeError ErrMsg.zrlngth = Exc.runtimeError ErrMsg.zrlngth ∧
      throwEnd.workers.filter (·.call == throwEnd.calls) =
        (if syncActions (pack .request [.wait]) = true ∧ throwStart.iEndpoint ≠ "" then
          [⟨.sync, throwStart.calls, .binding⟩] else []) ∧
      (syncActions (pack .request [.wait]) = true → throwStart.iEndpoint ≠ "" →
        asyncActions (pack .request [.wait]) = true ∧ throwStart.oEndpoint = "" ∧
          throwEnd.workThreads.getD 0 none = some throwStart.workers.length) :=
  ⟨rfl, notify_throw_leaves (.of_run [.setup "tcp://*:5555" "", .notify 0 (pack .request [.wait])] rfl)
    rfl rfl⟩

end Server

end ArmishFireplace.Net
