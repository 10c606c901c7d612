import Mathlib.Data.List.Basic
import ArmishFireplace.Actions

/-! `module::imodule` (`imodule.cpp`): the loaded processing unit and its async production thread.

`load_proc_unit` and `unload_proc_unit` hold `stateMutex` for their whole body; the production
thread (`_async_proc_wrapper`) runs unlocked, calling the unit's `async_work` until it sees `doExit`.
So the caller's steps are a load, the start of an unload up to its join, and the join with the rest
of the unload; the production thread's one step that matters here is its exit. A unit's
`string_initialize_parameters` is the unit's own code: how it ends is part of the load event. It
returns, throws (a malformed endpoint, a failed dispatcher call), or calls `exit(-1)`, as every unit
does when a required option is missing or the options do not parse; a load that ends the process is
no step. -/

namespace ArmishFireplace.Module

/-- Where an async production thread is. -/
inductive ProdPhase where
  | running
  | exited
  | joined
  deriving DecidableEq, Repr

/-- `module::imodule`; its constructor fixes `supportedActions` and `procUnits`. -/
structure IModule where
  /-- The module object, whose `asyncBuffer` the server drains. -/
  addr : Nat
  supportedActions : ActionsList
  /-- The names of the registered units. -/
  procUnits : List String
  loadedProcUnit : Option String
  isRunning : Bool
  doExit : Bool
  /-- The thread a joinable `std::thread` member runs. -/
  asyncProcThread : Option Nat
  /-- Every production thread started (not in the code). -/
  threads : List ProdPhase
  /-- The caller is in `unload_proc_unit`'s join (not in the code). -/
  unloading : Bool
  deriving DecidableEq, Repr

/-- A module class: what its constructor passes to `imodule` and registers. -/
structure ModuleDef where
  supportedActions : ActionsList
  procUnits : List String
  deriving DecidableEq, Repr

/-- `module::brazil::brazil`: `PUSH | WAIT` and its three units. -/
def brazil : ModuleDef := ⟨pack .push [.wait], ["bobwire_circuit", "trx_circuit", "lcc_and_fpga"]⟩

/-- `module::trabea::trabea`: `REQUEST | PUSH` and the circulator switch. -/
def trabea : ModuleDef := ⟨pack .request [.push], ["circulator_switch"]⟩

namespace IModule

/-- The constructor of a module of class `d` at `addr`. -/
def init (d : ModuleDef) (addr : Nat) : IModule :=
  ⟨addr, d.supportedActions, d.procUnits, none, false, false, none, [], false⟩

/-- `_start_async_proc`: start the production thread unless it runs. Moving a thread into the member
    while it still holds a joinable thread calls `std::terminate`. -/
def startAsyncProc (m : IModule) : Outcome IModule :=
  if m.loadedProcUnit.isNone then .ret m
  else if !m.isRunning then
    if m.asyncProcThread.isSome then .abort
    else .ret { m with
      asyncProcThread := some m.threads.length, threads := m.threads ++ [.running], isRunning := true }
  else .ret m

/-- `load_proc_unit`: a no-op while a unit is loaded; a registered name stores its unit, runs its
    `string_initialize_parameters` (ending as `init` says), and then starts the production thread if
    the module supports `REPLY` or `WAIT`; an unknown name throws `invalid_argument`. -/
def loadProcUnit (m : IModule) (name : String) (init : Outcome Unit) : Outcome IModule :=
  if m.loadedProcUnit.isSome then .ret m
  else if name ∈ m.procUnits then
    match init with
    | .ret _ =>
      if asyncActions m.supportedActions then { m with loadedProcUnit := some name }.startAsyncProc
      else .ret { m with loadedProcUnit := some name }
    | .throw e _ => .throw e { m with loadedProcUnit := some name }
    | .abort => .abort
  else .throw (.invalidArgument ErrMsg.tpntfnd) m

/-- `unload_proc_unit` up to `_stop_async_proc`'s join: with the production thread running, set
    `doExit` and wait for it; otherwise delete the unit at once. -/
def unloadProcUnit (m : IModule) : IModule :=
  if m.loadedProcUnit.isNone then m
  else if asyncActions m.supportedActions && m.isRunning then { m with doExit := true, unloading := true }
  else { m with loadedProcUnit := none }

/-- The join returns once the production thread has exited; then `_stop_async_proc` clears its flags
    and `unload_proc_unit` deletes the unit. -/
def unloadJoin (m : IModule) : Option IModule :=
  match m.asyncProcThread with
  | some i =>
    if m.unloading ∧ m.threads[i]? = some .exited then
      some { m with
        threads := m.threads.set i .joined, asyncProcThread := none, doExit := false, isRunning := false,
        loadedProcUnit := none, unloading := false }
    else none
  | none => none

/-- The production thread `i` sees `doExit` and leaves `_async_proc_wrapper`. -/
def prodExit (m : IModule) (i : Nat) : Option IModule :=
  if m.doExit ∧ m.threads[i]? = some .running then some { m with threads := m.threads.set i .exited }
  else none

/-- An event: a call of the caller, the end of its join, or a production thread's exit. -/
inductive Event where
  | load (name : String) (init : Outcome Unit)
  | unload
  | join
  | prodExit (i : Nat)
  deriving DecidableEq, Repr

/-- One step; `none` if the event cannot happen now, or the load ends the process. -/
def step (m : IModule) : Event → Option IModule
  | .load name init =>
    if m.unloading then none
    else match m.loadProcUnit name init with
      | .ret m' => some m'
      | .throw _ m' => some m'
      | .abort => none
  | .unload => if m.unloading then none else some m.unloadProcUnit
  | .join => m.unloadJoin
  | .prodExit i => m.prodExit i

/-- The production threads not yet joined. -/
def live (m : IModule) : Nat := m.threads.countP (· != .joined)

/-- The states a module reaches from its construction. -/
inductive Reachable : IModule → Prop
  | constructed (d : ModuleDef) (addr : Nat) : Reachable (init d addr)
  | step {m m' : IModule} {e : Event} : Reachable m → m.step e = some m' → Reachable m'

/-! ### The production thread stays in step -/

/-- What every reachable module satisfies: the member thread is the last one started and the others
    are joined; a thread runs only for a loaded unit with async actions; `doExit` is set exactly inside
    an unload. -/
structure Inv (m : IModule) : Prop where
  member : m.asyncProcThread = if m.isRunning then some (m.threads.length - 1) else none
  count : m.live = if m.isRunning then 1 else 0
  unit : m.isRunning → m.loadedProcUnit.isSome ∧ asyncActions m.supportedActions
  doExit : m.doExit = m.unloading
  unloading : m.unloading → m.isRunning

theorem live_set {m : IModule} {i : Nat} {p : ProdPhase} (q : ProdPhase) (hi : m.threads[i]? = some p) :
    (m.threads.set i q).countP (· != .joined) = m.live - (if p != .joined then 1 else 0) + (if q != .joined then 1 else 0) := by
  obtain ⟨hlt, rfl⟩ := List.getElem?_eq_some_iff.mp hi
  exact List.countP_set _ _ _ _ hlt

/-- The module a first load leaves, with its production thread started. -/
def started (m : IModule) (name : String) : IModule :=
  { m with
    loadedProcUnit := some name, asyncProcThread := some m.threads.length
    threads := m.threads ++ [.running], isRunning := true }

/-- With no unit loaded, no production thread runs. -/
theorem Inv.isRunning_of_none {m : IModule} (h : Inv m) (hn : m.loadedProcUnit = none) :
    m.isRunning = false := by
  by_contra hr
  simpa [hn] using (h.unit (by simpa using hr)).1

/-- Every end of a load: a no-op with a unit loaded; otherwise an unknown name throws and changes
    nothing, and a registered unit is stored before its initialisation ends the process, throws or
    returns. -/
theorem Inv.load_eq {m : IModule} (h : Inv m) (name : String) (init : Outcome Unit) :
    m.loadedProcUnit.isSome ∧ m.loadProcUnit name init = .ret m ∨
    m.loadedProcUnit = none ∧ m.isRunning = false ∧
      (name ∉ m.procUnits ∧ m.loadProcUnit name init = .throw (.invalidArgument ErrMsg.tpntfnd) m ∨
       name ∈ m.procUnits ∧
        (init = .abort ∧ m.loadProcUnit name init = .abort ∨
         (∃ e, init = .throw e () ∧ m.loadProcUnit name init = .throw e { m with loadedProcUnit := some name }) ∨
         init = .ret () ∧ asyncActions m.supportedActions = true ∧ m.loadProcUnit name init = .ret (m.started name) ∨
         init = .ret () ∧ asyncActions m.supportedActions = false ∧
          m.loadProcUnit name init = .ret { m with loadedProcUnit := some name })) := by
  by_cases hu : m.loadedProcUnit.isSome
  · exact Or.inl ⟨hu, by simp [loadProcUnit, hu]⟩
  have hn : m.loadedProcUnit = none := by simpa using hu
  have hr := h.isRunning_of_none hn
  have hslot : m.asyncProcThread = none := by simpa [hr] using h.member
  refine Or.inr ⟨hn, hr, ?_⟩
  by_cases hm : name ∈ m.procUnits
  · refine Or.inr ⟨hm, ?_⟩
    cases init with
    | ret u =>
      cases u
      cases ha : asyncActions m.supportedActions
      · exact Or.inr (Or.inr (Or.inr ⟨rfl, rfl, by simp [loadProcUnit, hn, hm, ha]⟩))
      · exact Or.inr (Or.inr (Or.inl ⟨rfl, rfl, by simp [loadProcUnit, hn, hm, ha, startAsyncProc, hr, hslot, started]⟩))
    | throw e u => cases u; exact Or.inr (Or.inl ⟨e, rfl, by simp [loadProcUnit, hn, hm]⟩)
    | abort => exact Or.inl ⟨rfl, by simp [loadProcUnit, hn, hm]⟩
  · exact Or.inl ⟨hm, by simp [loadProcUnit, hn, hm]⟩

/-- What a load that returns or throws leaves: the module as it was, or a registered unit loaded
    into an empty module, with the production thread started when the unit's initialisation returned
    and the module supports async actions. -/
theorem Inv.load_cases {m m' : IModule} {name : String} {init : Outcome Unit} (h : Inv m)
    (hl : m.loadProcUnit name init = .ret m' ∨ ∃ e, m.loadProcUnit name init = .throw e m') :
    m' = m ∨ m.loadedProcUnit = none ∧ m.isRunning = false ∧ name ∈ m.procUnits ∧
      (asyncActions m.supportedActions = true ∧ init = .ret () ∧ m' = m.started name ∨
        (asyncActions m.supportedActions = false ∨ ∃ e, init = .throw e ()) ∧
          m' = { m with loadedProcUnit := some name }) := by
  rcases h.load_eq name init with ⟨-, he⟩ | ⟨hn, hr, ⟨-, he⟩ | ⟨hm, ⟨rfl, he⟩ | ⟨e, rfl, he⟩ | ⟨rfl, ha, he⟩ |
    ⟨rfl, ha, he⟩⟩⟩ <;> rcases hl with hl | ⟨e', hl⟩ <;> rw [he] at hl <;> cases hl
  · exact Or.inl rfl
  · exact Or.inl rfl
  · exact Or.inr ⟨hn, hr, hm, Or.inr ⟨Or.inr ⟨e, rfl⟩, rfl⟩⟩
  · exact Or.inr ⟨hn, hr, hm, Or.inl ⟨ha, rfl, rfl⟩⟩
  · exact Or.inr ⟨hn, hr, hm, Or.inr ⟨Or.inl ha, rfl⟩⟩

/-- A load into a module with no unit: an unknown name throws and changes nothing; a registered
    unit's initialisation ends the process, throws with the unit left loaded, or returns with it
    loaded. -/
theorem Inv.load_fresh {m : IModule} (h : Inv m) (hn : m.loadedProcUnit = none) (name : String)
    (init : Outcome Unit) :
    name ∉ m.procUnits ∧ m.loadProcUnit name init = .throw (.invalidArgument ErrMsg.tpntfnd) m ∨
    name ∈ m.procUnits ∧ init = .abort ∧ m.loadProcUnit name init = .abort ∨
    name ∈ m.procUnits ∧ (∃ e, init = .throw e () ∧
      m.loadProcUnit name init = .throw e { m with loadedProcUnit := some name }) ∨
    name ∈ m.procUnits ∧ init = .ret () ∧ ∃ m', m.loadProcUnit name init = .ret m' ∧
      m'.loadedProcUnit = some name ∧ m'.addr = m.addr ∧ m'.supportedActions = m.supportedActions := by
  rcases h.load_eq name init with ⟨hu, -⟩ | ⟨-, -, hl | ⟨hm, ⟨rfl, he⟩ | ⟨e, rfl, he⟩ | ⟨rfl, -, he⟩ |
    ⟨rfl, -, he⟩⟩⟩
  · simp [hn] at hu
  · exact Or.inl hl
  · exact Or.inr (Or.inl ⟨hm, rfl, he⟩)
  · exact Or.inr (Or.inr (Or.inl ⟨hm, e, rfl, he⟩))
  · exact Or.inr (Or.inr (Or.inr ⟨hm, rfl, _, he, rfl, rfl, rfl⟩))
  · exact Or.inr (Or.inr (Or.inr ⟨hm, rfl, _, he, rfl, rfl, rfl⟩))

theorem Inv.load {m m' : IModule} {name : String} {init : Outcome Unit} (h : Inv m)
    (hl : m.loadProcUnit name init = .ret m' ∨ ∃ e, m.loadProcUnit name init = .throw e m') : Inv m' := by
  rcases h.load_cases hl with rfl | ⟨-, hr, -, ⟨ha, -, rfl⟩ | ⟨-, rfl⟩⟩
  · exact h
  · have hl0 : m.live = 0 := by simpa [hr] using h.count
    refine ⟨by simp [started], ?_, fun _ => ⟨rfl, ha⟩, ?_, fun _ => rfl⟩
    · simp [started, live, List.countP_append, show m.threads.countP (· != .joined) = 0 from hl0]
    · have hu : m.unloading = false := by
        cases hu : m.unloading
        · rfl
        · simpa [hr] using h.unloading hu
      simpa [started, hu] using h.doExit
  · exact ⟨h.member, h.count, fun hr' => absurd hr' (by simp [hr]), h.doExit, h.unloading⟩

/-- What an unload does to a module that keeps the invariant: nothing without a unit; with the
    production thread running it sets `doExit` and waits; otherwise it deletes the unit at once. -/
theorem Inv.unload_cases {m : IModule} (h : Inv m) :
    m.loadedProcUnit = none ∧ m.unloadProcUnit = m ∨
    m.isRunning = true ∧ m.unloadProcUnit = { m with doExit := true, unloading := true } ∨
    m.isRunning = false ∧ m.unloadProcUnit = { m with loadedProcUnit := none } := by
  unfold unloadProcUnit
  by_cases h0 : m.loadedProcUnit.isNone
  · exact Or.inl ⟨Option.isNone_iff_eq_none.mp h0, by simp [h0]⟩
  cases hr : m.isRunning
  · exact Or.inr (Or.inr ⟨rfl, by simp [h0, hr]⟩)
  · exact Or.inr (Or.inl ⟨rfl, by simp [h0, hr, (h.unit hr).2]⟩)

theorem Inv.unload {m : IModule} (h : Inv m) : Inv m.unloadProcUnit := by
  rcases h.unload_cases with ⟨-, he⟩ | ⟨hr, he⟩ | ⟨hr, he⟩ <;> rw [he]
  · exact h
  · exact ⟨h.member, h.count, h.unit, rfl, fun _ => hr⟩
  · exact ⟨h.member, h.count, fun hr' => absurd hr' (by simp [hr]), h.doExit, h.unloading⟩

theorem Inv.join {m m' : IModule} (h : Inv m) (hj : m.unloadJoin = some m') : Inv m' := by
  unfold unloadJoin at hj
  split at hj
  · rename_i i hi
    split at hj
    · rename_i hc
      cases hj
      have hr : m.isRunning = true := h.unloading hc.1
      have hl := live_set .joined hc.2
      refine ⟨rfl, ?_, fun hr' => absurd hr' (by simp), rfl, fun hu => absurd hu (by simp)⟩
      simp only [h.count, hr] at hl
      simpa [live] using hl
    · cases hj
  · cases hj

theorem Inv.prodExit {m m' : IModule} {i : Nat} (h : Inv m) (hp : m.prodExit i = some m') : Inv m' := by
  unfold IModule.prodExit at hp
  split at hp
  · rename_i hc
    cases hp
    have hl := live_set .exited hc.2
    have hpos : 0 < m.live := List.countP_pos_iff.mpr ⟨_, List.getElem?_mem hc.2, rfl⟩
    refine ⟨by simpa using h.member, ?_, h.unit, h.doExit, h.unloading⟩
    show (m.threads.set i .exited).countP (· != .joined) = if m.isRunning then 1 else 0
    rw [← h.count]
    simp only [hl, bne_iff_ne, ne_eq, reduceCtorEq, not_false_eq_true, if_true]
    omega
  · cases hp

theorem Inv.step {m m' : IModule} {e : Event} (h : Inv m) (hs : m.step e = some m') : Inv m' := by
  cases e with
  | load name init =>
    simp only [IModule.step] at hs
    split at hs
    · cases hs
    split at hs <;> cases hs
    · exact h.load (Or.inl ‹_›)
    · exact h.load (Or.inr ⟨_, ‹_›⟩)
  | unload =>
    simp only [IModule.step] at hs
    split at hs <;> cases hs
    exact h.unload
  | join => exact h.join hs
  | prodExit i => exact h.prodExit hs

theorem Reachable.inv {m : IModule} (hm : m.Reachable) : Inv m := by
  induction hm with
  | constructed d addr => exact ⟨rfl, rfl, fun h => absurd h (by simp [init]), rfl, fun h => absurd h (by simp [init])⟩
  | step _ hs ih => exact ih.step hs

/-! ### The production thread of a reachable module -/

end IModule

end ArmishFireplace.Module
