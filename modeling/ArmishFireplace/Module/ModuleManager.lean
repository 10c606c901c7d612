import ArmishFireplace.Module.IModule

/-! `module::module_manager` (`module_manager.cpp`): at most one loaded module, and the callback the
server registers to hear of a newly loaded processing unit.

Every member holds `stateMutex` for its whole body, callback call included. `load_proc_unit` is
modelled up to the callback (`loadProcUnitBody`), and then with the callback's own outcome
(`loadProcUnit`): the callback is the server's `notify`, whose steps `Net.Server` models. `notify`
returns, throws (an empty endpoint), or ends the process (`std::terminate` when it moves a thread
into a `workThreads` slot that still holds one, as a reload does). -/

namespace ArmishFireplace.Module

/-- `module::module_manager`. `serverCallback` says both pointers of the registered callback are set;
    `nextAddr` hands out the addresses of new module objects and is not in the code. -/
structure ModuleManager where
  loadedModule : Option IModule
  serverCallback : Bool
  nextAddr : Nat
  deriving DecidableEq, Repr

namespace ModuleManager

/-- The constructor: no module, no callback. -/
def init : ModuleManager := ⟨none, false, 0⟩

/-- `module_factory::_module_map`, as `module_register` fills it in `brazil.cpp` and `trabea.cpp`. -/
def moduleMap : List (String × ModuleDef) := [("brazil", brazil), ("trabea", trabea)]

/-- `load_module`: a no-op while a module is loaded; otherwise `module_factory::instantiate` by name,
    which throws `invalid_argument` for an unknown one. Both modules' `string_initialize_parameters`
    ignore their parameters. -/
def loadModule (s : ModuleManager) (name : String) : Outcome ModuleManager :=
  if s.loadedModule.isSome then .ret s
  else match moduleMap.lookup name with
    | some d => .ret { s with loadedModule := some (IModule.init d s.nextAddr), nextAddr := s.nextAddr + 1 }
    | none => .throw (.invalidArgument ErrMsg.tpntfnd) s

/-- `load_proc_unit` up to its callback: a no-op without a module or with a unit loaded, else the
    module's load and the callback check. The second component is the call the callback gets. -/
def loadProcUnitBody (s : ModuleManager) (name : String) (init : Outcome Unit) :
    Outcome ModuleManager × Option (Nat × ActionsList) :=
  match s.loadedModule with
  | none => (.ret s, none)
  | some m =>
    if m.loadedProcUnit.isSome then (.ret s, none)
    else match m.loadProcUnit name init with
      | .ret m' =>
        if s.serverCallback then (.ret { s with loadedModule := some m' }, some (m'.addr, m'.supportedActions))
        else (.throw (.runtimeError ErrMsg.nllpntr) { s with loadedModule := some m' }, none)
      | .throw e m' => (.throw e { s with loadedModule := some m' }, none)
      | .abort => (.abort, none)

/-- `load_proc_unit` with a callback that returns, throws or ends the process on the call it gets;
    the second component lists the calls the callback got. -/
def loadProcUnit (s : ModuleManager) (name : String) (init : Outcome Unit)
    (callback : Nat → ActionsList → Outcome Unit) : Outcome ModuleManager × List (Nat × ActionsList) :=
  match s.loadProcUnitBody name init with
  | (.ret s', some (b, a)) =>
    match callback b a with
    | .ret _ => (.ret s', [(b, a)])
    | .throw e _ => (.throw e s', [(b, a)])
    | .abort => (.abort, [(b, a)])
  | (o, _) => (o, [])

/-- The unload a caller is in: `unload_proc_unit`, or `unload_module`, which deletes the module
    after it. -/
inductive Unload where
  | procUnit
  | module
  deriving DecidableEq, Repr

/-- The module's `unload_proc_unit` waits in its join. -/
def joining (s : ModuleManager) : Bool := s.loadedModule.any (·.unloading)

/-- The rest of an unload once the module's `unload_proc_unit` has returned: `unload_module` deletes
    the module. -/
def finishUnload (s : ModuleManager) : Unload → ModuleManager
  | .procUnit => s
  | .module => { s with loadedModule := none }

/-- `unload_proc_unit` and `unload_module` up to the module's join: a no-op without a module;
    otherwise the module's `unload_proc_unit`, and the rest of the call unless that waits. -/
def unload (s : ModuleManager) (u : Unload) : ModuleManager :=
  match s.loadedModule with
  | none => s
  | some m =>
    if m.unloadProcUnit.unloading then { s with loadedModule := some m.unloadProcUnit }
    else { s with loadedModule := some m.unloadProcUnit }.finishUnload u

/-- `unload_proc_unit`, up to the module's join. -/
def unloadProcUnit (s : ModuleManager) : ModuleManager := s.unload .procUnit

/-- `unload_module`, up to the module's join. -/
def unloadModule (s : ModuleManager) : ModuleManager := s.unload .module

/-- The module's join returns, and the unload goes on to its end. -/
def unloadJoin (s : ModuleManager) (u : Unload) : Option ModuleManager :=
  match s.loadedModule with
  | some m => m.unloadJoin.map fun m' => { s with loadedModule := some m' }.finishUnload u
  | none => none

/-- A production thread of the loaded module exits. -/
def prodExit (s : ModuleManager) (i : Nat) : Option ModuleManager :=
  match s.loadedModule with
  | some m => (m.prodExit i).map fun m' => { s with loadedModule := some m' }
  | none => none

/-- What every reachable manager satisfies: its module keeps the module invariant. -/
def Inv (s : ModuleManager) : Prop := ∀ m, s.loadedModule = some m → m.Inv

/-! ### Each operation is one step of the loaded module -/

/-- What an operation does to the manager's module: nothing, deletes it, constructs a new one, or
    takes one step of it. -/
def ModuleStep (s t : ModuleManager) : Prop :=
  t.loadedModule = s.loadedModule ∨ t.loadedModule = none ∨
    (∃ d addr, t.loadedModule = some (IModule.init d addr)) ∨
    ∃ m m' e, s.loadedModule = some m ∧ m.step e = some m' ∧ t.loadedModule = some m'

/-- Every module of the manager is a reachable module. -/
def ModulesReachable (s : ModuleManager) : Prop := ∀ m, s.loadedModule = some m → m.Reachable

theorem ModuleStep.reachable {s t : ModuleManager} (h : ModuleStep s t) (hs : s.ModulesReachable) :
    t.ModulesReachable := fun m hm => by
  rcases h with h | h | ⟨d, addr, h⟩ | ⟨m₀, m', e, h₀, hstep, h⟩
  · exact hs m (h ▸ hm)
  · simp [h] at hm
  · cases hm.symm.trans h
    exact .constructed d addr
  · cases hm.symm.trans h
    exact (hs m₀ h₀).step hstep

theorem joining_some {s : ModuleManager} {m : IModule} (hm : s.loadedModule = some m) :
    s.joining = m.unloading := by
  simp [joining, hm]

theorem loadModule_step {s t : ModuleManager} {name : String}
    (h : s.loadModule name = .ret t ∨ ∃ e, s.loadModule name = .throw e t) (hj : s.joining = false) :
    ModuleStep s t ∧ t.joining = false := by
  unfold loadModule at h
  split at h
  · simp only [Outcome.ret.injEq, exists_false, or_false, reduceCtorEq] at h
    exact h ▸ ⟨Or.inl rfl, hj⟩
  split at h <;> simp only [Outcome.ret.injEq, Outcome.throw.injEq, reduceCtorEq, exists_false,
    false_or, or_false, exists_and_left, exists_eq_left', true_and] at h <;> subst h
  · exact ⟨Or.inr (Or.inr (Or.inl ⟨_, _, rfl⟩)), rfl⟩
  · exact ⟨Or.inl rfl, hj⟩

theorem loadProcUnitBody_step {s t : ModuleManager} {name : String} {init : Outcome Unit}
    (h : (s.loadProcUnitBody name init).1 = .ret t ∨ ∃ e, (s.loadProcUnitBody name init).1 = .throw e t)
    (hs : s.ModulesReachable) (hj : s.joining = false) : ModuleStep s t ∧ t.joining = false := by
  unfold loadProcUnitBody at h
  split at h
  · simp only [Outcome.ret.injEq, reduceCtorEq, exists_false, or_false] at h
    exact h ▸ ⟨Or.inl rfl, hj⟩
  rename_i m hm
  have hu : m.unloading = false := (joining_some hm).symm.trans hj
  split at h
  · simp only [Outcome.ret.injEq, reduceCtorEq, exists_false, or_false] at h
    exact h ▸ ⟨Or.inl rfl, hj⟩
  -- The manager keeps whatever the module's load left, returned or thrown.
  have hmod : ∀ m', (m.loadProcUnit name init = .ret m' ∨ ∃ e, m.loadProcUnit name init = .throw e m') →
      t = { s with loadedModule := some m' } → ModuleStep s t ∧ t.joining = false := by
    rintro m' hl rfl
    have hstep : m.step (.load name init) = some m' := by
      rcases hl with hl | ⟨e, hl⟩ <;> simp [IModule.step, hu, hl]
    refine ⟨Or.inr (Or.inr (Or.inr ⟨m, m', _, hm, hstep, rfl⟩)), ?_⟩
    rcases (hs m hm).inv.load_cases hl with rfl | ⟨-, -, -, ⟨-, -, rfl⟩ | ⟨-, rfl⟩⟩ <;>
      simpa [joining, IModule.started] using hu
  split at h <;> rename_i hl
  · split at h <;> simp only [Outcome.ret.injEq, Outcome.throw.injEq, reduceCtorEq, exists_false,
      or_false, false_or, exists_and_left, exists_eq_left', true_and] at h
    · exact hmod _ (Or.inl hl) h.symm
    · exact hmod _ (Or.inl hl) h.symm
  · simp only [Outcome.throw.injEq, reduceCtorEq, false_or, exists_and_left, exists_eq_left', true_and] at h
    exact hmod _ (Or.inr ⟨_, hl⟩) h.symm
  · simp at h

theorem unload_step {s : ModuleManager} (u : Unload) (hj : s.joining = false) : ModuleStep s (s.unload u) := by
  unfold unload
  split
  · exact Or.inl rfl
  rename_i m hm
  have hstep : m.step .unload = some m.unloadProcUnit := by
    simp [IModule.step, (joining_some hm).symm.trans hj]
  split
  · exact Or.inr (Or.inr (Or.inr ⟨m, _, _, hm, hstep, rfl⟩))
  · cases u
    · exact Or.inr (Or.inr (Or.inr ⟨m, _, _, hm, hstep, rfl⟩))
    · exact Or.inr (Or.inl rfl)

theorem unloadJoin_step {s t : ModuleManager} {u : Unload} (h : s.unloadJoin u = some t) :
    ModuleStep s t ∧ t.joining = false := by
  unfold unloadJoin at h
  split at h
  · rename_i m hm
    obtain ⟨m', hj, rfl⟩ := Option.map_eq_some'.mp h
    have hu : m'.unloading = false := by
      unfold IModule.unloadJoin at hj
      split at hj
      · split at hj <;> cases hj
        rfl
      · cases hj
    cases u
    · exact ⟨Or.inr (Or.inr (Or.inr ⟨m, m', .join, hm, hj, rfl⟩)), by simpa [joining] using hu⟩
    · exact ⟨Or.inr (Or.inl rfl), rfl⟩
  · cases h

theorem prodExit_step {s t : ModuleManager} {i : Nat} (h : s.prodExit i = some t) :
    ModuleStep s t ∧ t.joining = s.joining := by
  unfold prodExit at h
  split at h
  · rename_i m hm
    obtain ⟨m', hp, rfl⟩ := Option.map_eq_some'.mp h
    have hu : m'.unloading = m.unloading := by
      unfold IModule.prodExit at hp
      split at hp <;> cases hp
      rfl
    exact ⟨Or.inr (Or.inr (Or.inr ⟨m, m', .prodExit i, hm, hp, rfl⟩)), by simp [joining, hm, hu]⟩
  · cases h

/-! ### Every end of `load_proc_unit` -/

/-- `load_proc_unit` returns with a unit loaded and the callback called once; is a no-op; throws,
    changing nothing only for an unknown name; or ends the process, in the initialisation or the
    callback. -/
theorem load_proc_unit_ends (s : ModuleManager) (name : String) (init : Outcome Unit)
    (callback : Nat → ActionsList → Outcome Unit) (hs : s.Inv) :
    (∃ m m', s.loadedModule = some m ∧ m.loadedProcUnit = none ∧ m.loadProcUnit name init = .ret m' ∧
      m'.loadedProcUnit = some name ∧ s.serverCallback = true ∧
      s.loadProcUnit name init callback = (.ret { s with loadedModule := some m' }, [(m.addr, m.supportedActions)])) ∨
    (s.loadProcUnit name init callback = (.ret s, []) ∧
      (s.loadedModule = none ∨ ∃ m, s.loadedModule = some m ∧ m.loadedProcUnit.isSome)) ∨
    (∃ e s', (s.loadProcUnit name init callback).1 = .throw e s' ∧
      ((s.loadProcUnit name init callback).2 = [] ∧ s' = s ∧ e = .invalidArgument ErrMsg.tpntfnd ∨
       ∃ m, s.loadedModule = some m ∧ m.loadedProcUnit = none ∧ name ∈ m.procUnits ∧
        (init = .throw e () ∧ (s.loadProcUnit name init callback).2 = [] ∧
            s' = { s with loadedModule := some { m with loadedProcUnit := some name } } ∨
         init = .ret () ∧ ∃ m', m.loadProcUnit name (.ret ()) = .ret m' ∧ s' = { s with loadedModule := some m' } ∧
          (s.serverCallback = false ∧ e = .runtimeError ErrMsg.nllpntr ∧ (s.loadProcUnit name init callback).2 = [] ∨
           s.serverCallback = true ∧ callback m.addr m.supportedActions = .throw e () ∧
            (s.loadProcUnit name init callback).2 = [(m.addr, m.supportedActions)])))) ∨
    ((s.loadProcUnit name init callback).1 = .abort ∧ ∃ m, s.loadedModule = some m ∧ m.loadedProcUnit = none ∧
      name ∈ m.procUnits ∧ (init = .abort ∨ init = .ret () ∧ s.serverCallback = true ∧
        callback m.addr m.supportedActions = .abort)) := by
  cases hm : s.loadedModule with
  | none => exact Or.inr (Or.inl ⟨by simp [loadProcUnit, loadProcUnitBody, hm], Or.inl rfl⟩)
  | some m =>
    by_cases hu : m.loadedProcUnit.isSome
    · exact Or.inr (Or.inl ⟨by simp [loadProcUnit, loadProcUnitBody, hm, hu], Or.inr ⟨m, rfl, hu⟩⟩)
    have hn : m.loadedProcUnit = none := by simpa using hu
    rcases (hs m hm).load_fresh hn name init with ⟨-, hl⟩ | ⟨hin, rfl, hl⟩ | ⟨hin, e, rfl, hl⟩ |
      ⟨hin, rfl, m', hl, hu', ha, hact⟩
    · -- An unknown name.
      have hs' : { s with loadedModule := some m } = s := by rw [← hm]
      exact Or.inr (Or.inr (Or.inl ⟨_, s, by simp [loadProcUnit, loadProcUnitBody, hm, hu, hl, hs'],
        Or.inl ⟨by simp [loadProcUnit, loadProcUnitBody, hm, hu, hl], rfl, rfl⟩⟩))
    · -- The unit's initialisation ends the process.
      exact Or.inr (Or.inr (Or.inr ⟨by simp [loadProcUnit, loadProcUnitBody, hm, hu, hl], m, rfl, hn, hin,
        Or.inl rfl⟩))
    · -- The unit's initialisation throws.
      exact Or.inr (Or.inr (Or.inl ⟨_, _, by simp [loadProcUnit, loadProcUnitBody, hm, hu, hl],
        Or.inr ⟨m, rfl, hn, hin, Or.inl ⟨rfl, by simp [loadProcUnit, loadProcUnitBody, hm, hu, hl], rfl⟩⟩⟩))
    · cases hcb : s.serverCallback
      · exact Or.inr (Or.inr (Or.inl ⟨_, _, by simp [loadProcUnit, loadProcUnitBody, hm, hu, hl, hcb],
          Or.inr ⟨m, rfl, hn, hin, Or.inr ⟨rfl, m', hl, rfl,
            Or.inl ⟨rfl, rfl, by simp [loadProcUnit, loadProcUnitBody, hm, hu, hl, hcb]⟩⟩⟩⟩))
      · cases hc : callback m.addr m.supportedActions with
        | ret u =>
          exact Or.inl ⟨m, m', rfl, hn, hl, hu', rfl,
            by simp [loadProcUnit, loadProcUnitBody, hm, hu, hl, hcb, ha, hact, hc]⟩
        | throw e u =>
          cases u
          exact Or.inr (Or.inr (Or.inl ⟨_, _, by simp [loadProcUnit, loadProcUnitBody, hm, hu, hl, hcb, ha, hact, hc],
            Or.inr ⟨m, rfl, hn, hin, Or.inr ⟨rfl, m', hl, rfl,
              Or.inr ⟨rfl, hc, by simp [loadProcUnit, loadProcUnitBody, hm, hu, hl, hcb, ha, hact, hc]⟩⟩⟩⟩))
        | abort =>
          exact Or.inr (Or.inr (Or.inr ⟨by simp [loadProcUnit, loadProcUnitBody, hm, hu, hl, hcb, ha, hact, hc],
            m, rfl, hn, hin, Or.inr ⟨rfl, rfl, hc⟩⟩))

/-- The manager after `load_module("brazil")`, before the server registers its callback. -/
def brazilLoaded : ModuleManager := ⟨some (IModule.init brazil 0), false, 1⟩

theorem brazilLoaded_inv : brazilLoaded.Inv := fun m hm => by
  simp only [brazilLoaded, Option.some.injEq] at hm
  exact hm ▸ (IModule.Reachable.constructed brazil 0).inv

/-- Without a registered callback, `load_proc_unit` throws only after `brazil`'s unit was loaded and
    its production thread started; both stay. -/
theorem load_without_callback_keeps_unit :
    init.loadModule "brazil" = .ret brazilLoaded ∧
    ∃ m, (brazilLoaded.loadProcUnit "bobwire_circuit" (.ret ()) fun _ _ => .ret ()) =
        (.throw (.runtimeError ErrMsg.nllpntr) { brazilLoaded with loadedModule := some m }, []) ∧
      m.loadedProcUnit = some "bobwire_circuit" ∧ m.isRunning = true ∧ 0 < m.live :=
  ⟨rfl, _, rfl, rfl, rfl, by decide⟩

/-- A callback that returns at once. -/
def noCallback (_ : Nat) (_ : ActionsList) : Outcome Unit := .ret ()

theorem load_proc_unit_ends_brazil :
    (∃ m m', brazilLoaded.loadedModule = some m ∧ m.loadedProcUnit = none ∧
      m.loadProcUnit "bobwire_circuit" (.ret ()) = .ret m' ∧
      m'.loadedProcUnit = some "bobwire_circuit" ∧ brazilLoaded.serverCallback = true ∧
      brazilLoaded.loadProcUnit "bobwire_circuit" (.ret ()) noCallback =
        (.ret { brazilLoaded with loadedModule := some m' }, [(m.addr, m.supportedActions)])) ∨
    (brazilLoaded.loadProcUnit "bobwire_circuit" (.ret ()) noCallback = (.ret brazilLoaded, []) ∧
      (brazilLoaded.loadedModule = none ∨ ∃ m, brazilLoaded.loadedModule = some m ∧ m.loadedProcUnit.isSome)) ∨
    (∃ e s', (brazilLoaded.loadProcUnit "bobwire_circuit" (.ret ()) noCallback).1 = .throw e s' ∧
      ((brazilLoaded.loadProcUnit "bobwire_circuit" (.ret ()) noCallback).2 = [] ∧ s' = brazilLoaded ∧
          e = .invalidArgument ErrMsg.tpntfnd ∨
       ∃ m, brazilLoaded.loadedModule = some m ∧ m.loadedProcUnit = none ∧ "bobwire_circuit" ∈ m.procUnits ∧
        ((.ret () : Outcome Unit) = .throw e () ∧
            (brazilLoaded.loadProcUnit "bobwire_circuit" (.ret ()) noCallback).2 = [] ∧
            s' = { brazilLoaded with loadedModule := some { m with loadedProcUnit := some "bobwire_circuit" } } ∨
         (.ret () : Outcome Unit) = .ret () ∧ ∃ m', m.loadProcUnit "bobwire_circuit" (.ret ()) = .ret m' ∧
          s' = { brazilLoaded with loadedModule := some m' } ∧
          (brazilLoaded.serverCallback = false ∧ e = .runtimeError ErrMsg.nllpntr ∧
              (brazilLoaded.loadProcUnit "bobwire_circuit" (.ret ()) noCallback).2 = [] ∨
           brazilLoaded.serverCallback = true ∧ noCallback m.addr m.supportedActions = .throw e () ∧
            (brazilLoaded.loadProcUnit "bobwire_circuit" (.ret ()) noCallback).2 = [(m.addr, m.supportedActions)])))) ∨
    ((brazilLoaded.loadProcUnit "bobwire_circuit" (.ret ()) noCallback).1 = .abort ∧
      ∃ m, brazilLoaded.loadedModule = some m ∧ m.loadedProcUnit = none ∧ "bobwire_circuit" ∈ m.procUnits ∧
        ((.ret () : Outcome Unit) = .abort ∨ (.ret () : Outcome Unit) = .ret () ∧ brazilLoaded.serverCallback = true ∧
          noCallback m.addr m.supportedActions = .abort)) :=
  load_proc_unit_ends brazilLoaded "bobwire_circuit" (.ret ()) noCallback brazilLoaded_inv

end ModuleManager

end ArmishFireplace.Module
