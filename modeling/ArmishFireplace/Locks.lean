import Mathlib.Data.List.Basic
import ArmishFireplace.Program

/-! The lock order of the public operations of `module_manager` and `server`.

Each operation is the sequence of `std::mutex` locks and unlocks of one path through its body, its
callees' inlined in order; a `lock_guard` or `unique_lock` releases at the end of its scope, the last
taken first. A thread runs one such sequence; threads interleave one instruction at a time. A
`std::mutex` is not recursive: locking one that any thread holds, the locking thread included,
blocks. The condition waits of `notify` release `startMutex` and are not lock waits; no reachable
path joins a thread while another waits for a lock the joiner holds, since `stop` never reaches its
joins (`Net.Server`). The paths of `notify` and `load_proc_unit` are also read off the modelled
states (`notifyPath`, `loadProcUnitPath`), and on every reachable program the loading path is
`loadProcUnit`. -/

namespace ArmishFireplace.Locks

open Module Net

/-- The four mutexes. -/
inductive Mutex where
  /-- `module_manager::stateMutex`. -/
  | managerState
  /-- `imodule::stateMutex`. -/
  | moduleState
  /-- `server::stateMutex`. -/
  | serverState
  /-- `server::startMutex`. -/
  | serverStart
  deriving DecidableEq, Repr

/-- A lock instruction. -/
inductive Instr where
  | lock (m : Mutex)
  | unlock (m : Mutex)
  deriving DecidableEq, Repr

/-- A thread: the mutexes it holds and what it has still to run. -/
structure Thread where
  held : List Mutex
  code : List Instr
  deriving DecidableEq, Repr

/-! ### The operations' lock sequences -/

/-- `module_manager::is_module_loaded`. -/
def isModuleLoaded : List Instr := [.lock .managerState, .unlock .managerState]

/-- `imodule::is_proc_unit_loaded`. -/
def moduleIsProcUnitLoaded : List Instr := [.lock .moduleState, .unlock .moduleState]

/-- `module_manager::supported_actions`: it holds `stateMutex` while it calls `is_module_loaded`,
    which locks it again. -/
def supportedActions : List Instr :=
  [.lock .managerState] ++ isModuleLoaded ++ moduleIsProcUnitLoaded ++ [.unlock .managerState]

/-- `module_manager::unregister_callback`. -/
def unregisterCallback : List Instr := [.lock .managerState, .unlock .managerState]

/-- `server::stop` while the server is not running. -/
def stop : List Instr := [.lock .serverState, .unlock .serverState]

/-- `server::~server`: unregister under `stateMutex`, then `stop`. -/
def serverDtor : List Instr := [.lock .serverState] ++ unregisterCallback ++ [.unlock .serverState] ++ stop

/-- `server::notify`: `stop`, then `stateMutex` to its return, and `startMutex` for the wait. -/
def notify : List Instr :=
  stop ++ [.lock .serverState, .lock .serverStart, .unlock .serverStart, .unlock .serverState]

/-- `imodule::load_proc_unit`. -/
def moduleLoadProcUnit : List Instr := [.lock .moduleState, .unlock .moduleState]

/-- `module_manager::load_proc_unit` loading a unit: it holds `stateMutex` through the module's calls
    and the callback, the server's `notify`. -/
def loadProcUnit : List Instr :=
  [.lock .managerState] ++ moduleIsProcUnitLoaded ++ moduleLoadProcUnit ++ notify ++ [.unlock .managerState]

/-! ### The paths the models take

The branches of `Net.Server.launch` and `Module.ModuleManager.loadProcUnitBody` decide which locks a
call takes: a `lock_guard` left by an exception releases its mutex, and a call that ends the process
stops where it is. -/

/-- The locks of `server::notify` on `s`: its `stop`, `stateMutex` around the launches, and
    `startMutex` for the wait once they return. -/
def notifyPath (s : Server) (buf : Nat) (supActs : ActionsList) : List Instr :=
  stop ++ .lock .serverState ::
    match s.launch buf supActs with
    | .ret _ => [.lock .serverStart, .unlock .serverStart, .unlock .serverState]
    | .throw _ _ => [.unlock .serverState]
    | .abort => []

/-- The locks of `module_manager::load_proc_unit` from `p`, whose callback is the server's `notify`. -/
def loadProcUnitPath (p : Program) (name : String) (init : Outcome Unit) : List Instr :=
  .lock .managerState ::
    match p.moduleManager.loadedModule with
    | none => [.unlock .managerState]
    | some m =>
      moduleIsProcUnitLoaded ++
        if m.loadedProcUnit.isSome then [.unlock .managerState]
        else match m.loadProcUnit name init with
          | .ret m' =>
            moduleLoadProcUnit ++
              if p.moduleManager.serverCallback then
                notifyPath p.server m'.addr m'.supportedActions ++
                  match p.server.launch m'.addr m'.supportedActions with
                  | .abort => []
                  | _ => [.unlock .managerState]
              else [.unlock .managerState]
          | .throw _ _ => moduleLoadProcUnit ++ [.unlock .managerState]
          | .abort => [.lock .moduleState]

theorem notifyPath_of_ret {s t : Server} {buf : Nat} {supActs : ActionsList}
    (h : s.launch buf supActs = .ret t) : notifyPath s buf supActs = notify := by
  simp [notifyPath, h, notify]

/-- On every reachable program, a `load_proc_unit` that loads a unit and whose `notify` launches
    takes the locks of `loadProcUnit`, and that `notify`'s `stop` returns at its test, before any join. -/
theorem loadProcUnitPath_of_load {p : Program} (hp : p.Reachable) {name : String} {init : Outcome Unit}
    {m m' : IModule} {t : Server} (hm : p.moduleManager.loadedModule = some m) (hn : m.loadedProcUnit = none)
    (hl : m.loadProcUnit name init = .ret m') (hc : p.moduleManager.serverCallback = true)
    (ht : p.server.launch m'.addr m'.supportedActions = .ret t) :
    p.server.isRunning = false ∧ loadProcUnitPath p name init = loadProcUnit := by
  refine ⟨hp.parts.1.inv.core.isRunning, ?_⟩
  simp [loadProcUnitPath, hm, hn, hl, hc, ht, notifyPath_of_ret ht, loadProcUnit]

example : (Program.init.run [.setup "tcp://*:5555" "tcp://*:5556", .loadModule "trabea"]).map
    (loadProcUnitPath · "circulator_switch" (.ret ())) = some loadProcUnit := by decide

/-! ### Interleavings -/

/-- Some thread holds `m`. -/
def held (ts : List Thread) (m : Mutex) : Bool := ts.any (·.held.contains m)

/-- Thread `i` runs its next instruction; `none` if it has none or is blocked on a held mutex. -/
def step (ts : List Thread) (i : Nat) : Option (List Thread) :=
  match ts[i]? with
  | some ⟨hs, .lock m :: rest⟩ => if held ts m then none else some (ts.set i ⟨m :: hs, rest⟩)
  | some ⟨hs, .unlock m :: rest⟩ => some (ts.set i ⟨hs.erase m, rest⟩)
  | _ => none

/-- Run the threads in the order a schedule gives. -/
def run : List Thread → List Nat → Option (List Thread)
  | ts, [] => some ts
  | ts, i :: is => (step ts i).bind (run · is)

/-- The states that threads started on `start` reach. -/
inductive Reachable (start : List Thread) : List Thread → Prop
  | start : Reachable start start
  | step {ts ts' : List Thread} {i : Nat} : Reachable start ts → step ts i = some ts' → Reachable start ts'

theorem Reachable.run {start ts ts' : List Thread} (is : List Nat) (h : Reachable start ts)
    (hr : run ts is = some ts') : Reachable start ts' := by
  induction is generalizing ts with
  | nil => cases hr; exact h
  | cons i is ih =>
    obtain ⟨u, hu, hr⟩ := Option.bind_eq_some.mp hr
    exact ih (h.step hu) hr

/-- Thread `i` waits for a mutex that thread `j` holds: an edge of the wait-for graph. -/
def WaitsFor (ts : List Thread) (i j : Nat) : Prop :=
  ∃ t u m, ts[i]? = some t ∧ t.code.head? = some (.lock m) ∧ ts[j]? = some u ∧ m ∈ u.held

/-- The threads of `S` each wait for one of `S`: a cycle of the wait-for graph runs through them. -/
def Deadlocked (ts : List Thread) (S : List Nat) : Prop := S ≠ [] ∧ ∀ i ∈ S, ∃ j ∈ S, WaitsFor ts i j

/-! ### A deadlock is forever -/

theorem step_blocked {ts : List Thread} {i j : Nat} (h : WaitsFor ts i j) : step ts i = none := by
  obtain ⟨⟨hs, code⟩, u, m, hi, hc, hj, hm⟩ := h
  obtain ⟨rest, rfl⟩ : ∃ rest, code = .lock m :: rest := by
    cases code with
    | nil => cases hc
    | cons x rest => cases hc; exact ⟨rest, rfl⟩
  have hheld : held ts m = true :=
    List.any_eq_true.mpr ⟨u, List.getElem?_mem hj, List.elem_iff.mpr hm⟩
  simp [step, hi, hheld]

/-- Another thread's step leaves a thread as it was. -/
theorem step_getElem?_ne {ts ts' : List Thread} {k i : Nat} (hs : step ts k = some ts') (hik : k ≠ i) :
    ts'[i]? = ts[i]? := by
  unfold step at hs
  split at hs
  · split at hs <;> cases hs
    exact List.getElem?_set_ne hik
  · cases hs
    exact List.getElem?_set_ne hik
  · cases hs

/-- No step of any thread ends a deadlock: the threads of the cycle cannot move, and the others do
    not touch them. -/
theorem Deadlocked.step {ts ts' : List Thread} {S : List Nat} {k : Nat} (h : Deadlocked ts S)
    (hs : step ts k = some ts') : Deadlocked ts' S := by
  have hk : k ∉ S := fun hk => by
    obtain ⟨j, -, hw⟩ := h.2 k hk
    simp [step_blocked hw] at hs
  refine ⟨h.1, fun i hi => ?_⟩
  obtain ⟨j, hj, t, u, m, hti, hc, huj, hm⟩ := h.2 i hi
  exact ⟨j, hj, t, u, m, (step_getElem?_ne hs (fun e => hk (e ▸ hi))).trans hti, hc,
    (step_getElem?_ne hs (fun e => hk (e ▸ hj))).trans huj, hm⟩

theorem Deadlocked.run {ts ts' : List Thread} {S : List Nat} (is : List Nat) (h : Deadlocked ts S)
    (hr : run ts is = some ts') : Deadlocked ts' S := by
  induction is generalizing ts with
  | nil => cases hr; exact h
  | cons i is ih =>
    obtain ⟨u, hu, hr⟩ := Option.bind_eq_some.mp hr
    exact ih (h.step hu) hr

/-! ### Two deadlocks of the code -/

/-- `supported_actions` run alone, after its first lock. -/
def selfWait : List Thread := [⟨[.managerState], isModuleLoaded ++ moduleIsProcUnitLoaded ++ [.unlock .managerState]⟩]

/-- `~server` (thread 0) and `load_proc_unit` (thread 1): each holds the lock the other waits for. -/
def crossWait : List Thread :=
  [⟨[.serverState], unregisterCallback ++ [.unlock .serverState] ++ stop⟩,
    ⟨[.managerState], notify ++ [.unlock .managerState]⟩]

/-- A thread calling `supported_actions` waits for the mutex it holds, and `~server` racing
    `load_proc_unit` closes a cycle through `server::stateMutex` and `module_manager::stateMutex`;
    neither wait ever ends, whatever the threads do next. -/
theorem lock_order_deadlocks :
    Reachable [⟨[], supportedActions⟩] selfWait ∧ WaitsFor selfWait 0 0 ∧
      (∀ is ts, run selfWait is = some ts → Deadlocked ts [0]) ∧
    Reachable [⟨[], serverDtor⟩, ⟨[], loadProcUnit⟩] crossWait ∧
      WaitsFor crossWait 0 1 ∧ WaitsFor crossWait 1 0 ∧
      (∀ is ts, run crossWait is = some ts → Deadlocked ts [0, 1]) := by
  have hself : WaitsFor selfWait 0 0 := ⟨_, _, .managerState, rfl, rfl, rfl, List.mem_singleton_self _⟩
  have h01 : WaitsFor crossWait 0 1 := ⟨_, _, .managerState, rfl, rfl, rfl, List.mem_singleton_self _⟩
  have h10 : WaitsFor crossWait 1 0 := ⟨_, _, .serverState, rfl, rfl, rfl, List.mem_singleton_self _⟩
  refine ⟨Reachable.start.run [0] rfl, hself, fun is ts hr => Deadlocked.run is ⟨by simp, ?_⟩ hr,
    Reachable.start.run [1, 0, 1, 1, 1, 1] rfl, h01, h10,
    fun is ts hr => Deadlocked.run is ⟨by simp, ?_⟩ hr⟩
  · simpa using hself
  · simp only [List.mem_cons, List.mem_singleton, List.not_mem_nil, or_false]
    rintro i (rfl | rfl)
    · exact ⟨1, by simp, h01⟩
    · exact ⟨0, by simp, h10⟩

end ArmishFireplace.Locks
