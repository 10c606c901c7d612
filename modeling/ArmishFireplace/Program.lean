import ArmishFireplace.Module.ModuleManager
import ArmishFireplace.Net.Server

/-! The objects of `armish_fireplace.cpp`: one `module_manager` and the server registered with it.

The caller thread makes the manager's calls; `load_proc_unit` calls the server's `notify` through the
registered callback, and the server's steps (`Net.Server.step`) go on until `notify` returns. The
server's work threads and the module's production thread run beside it. The manager's unloads go
to the loaded module only: nothing on their paths reaches the server.

The calls come in any order, as the two objects' members allow. A call that throws ends with the
state it left, the exception passed to its caller; `main` catches every exception out of `setup`,
`load_module` and `load_proc_unit` and ends the process with `exit(EXIT_FAILURE)`. -/

namespace ArmishFireplace

open Module Net

/-- The manager, the server, and the unload the caller is in while it waits on the module's join
    (not in the code). -/
structure Program where
  moduleManager : ModuleManager
  server : Server
  unloading : Option ModuleManager.Unload
  deriving DecidableEq, Repr

namespace Program

/-- `main`'s two objects once constructed: the server's constructor registers `notify`. -/
def init : Program := ⟨{ ModuleManager.init with serverCallback := true }, Server.init, none⟩

/-- The caller thread can make a call: the process runs and the caller is in no call. -/
def Free (p : Program) : Prop :=
  p.server.process = .running ∧ p.server.caller = .idle ∧ p.unloading = none

instance (p : Program) : Decidable p.Free := inferInstanceAs (Decidable (_ ∧ _ ∧ _))

/-- An event: a call of the caller thread, its next step inside the server's members, or a step of a
    server work thread or of the module's production thread. -/
inductive Event where
  | setup (i o : String)
  | loadModule (name : String)
  | loadProcUnit (name : String) (init : Outcome Unit)
  | unloadProcUnit
  | unloadModule
  /-- The module's join returns inside an unload. -/
  | join
  | prodExit (i : Nat)
  | caller
  | bind (w : Nat) (ok : Bool)
  | exit (w : Nat)
  deriving DecidableEq, Repr

/-- Replace the server by the outcome of its step. -/
def withServer (p : Program) (t : Option Server) : Option Program :=
  t.map fun t => { p with server := t }

/-- A manager call that returns or throws keeps the manager it leaves. -/
def withManager (p : Program) : Outcome ModuleManager → Option Program
  | .ret s => some { p with moduleManager := s }
  | .throw _ s => some { p with moduleManager := s }
  | .abort => none

/-- An unload up to the module's join; the caller stays in it while the module waits. -/
def beginUnload (p : Program) (u : ModuleManager.Unload) : Program :=
  { p with
    moduleManager := p.moduleManager.unload u
    unloading := if (p.moduleManager.unload u).joining then some u else none }

/-- `load_proc_unit`: the manager's part, then, when it calls back, the server's `notify`. -/
def loadProcUnit (p : Program) (name : String) (init : Outcome Unit) : Option Program :=
  match p.moduleManager.loadProcUnitBody name init with
  | (.ret s, some (buf, acts)) =>
    ({ p with moduleManager := s }).withServer (p.server.step (.notify buf acts))
  | (o, _) => p.withManager o

/-- One step of the program; `none` if the event cannot happen now or ends the process. -/
def step (p : Program) : Event → Option Program
  | .setup i o => p.withServer (p.server.step (.setup i o))
  | .loadModule name => if p.Free then p.withManager (p.moduleManager.loadModule name) else none
  | .loadProcUnit name init => if p.Free then p.loadProcUnit name init else none
  | .unloadProcUnit => if p.Free then some (p.beginUnload .procUnit) else none
  | .unloadModule => if p.Free then some (p.beginUnload .module) else none
  | .join =>
    match p.server.process, p.unloading with
    | .running, some u =>
      (p.moduleManager.unloadJoin u).map fun s => { p with moduleManager := s, unloading := none }
    | _, _ => none
  | .prodExit i =>
    if p.server.process = .running then
      (p.moduleManager.prodExit i).map fun s => { p with moduleManager := s }
    else none
  | .caller => p.withServer (p.server.step .caller)
  | .bind w ok => p.withServer (p.server.step (.bind w ok))
  | .exit w => p.withServer (p.server.step (.exit w))

/-- Run the events of a list in order. -/
def run : Program → List Event → Option Program
  | p, [] => some p
  | p, e :: es => (step p e).bind (run · es)

/-- The states the program reaches from construction. -/
inductive Reachable : Program → Prop
  | constructed : Reachable init
  | step {p q : Program} {e : Event} : Reachable p → step p e = some q → Reachable q

theorem Reachable.of_run (es : List Event) {p : Program} (h : init.run es = some p) : Reachable p := by
  suffices ∀ es p q, Reachable p → run p es = some q → Reachable q from this es _ _ .constructed h
  intro es
  induction es with
  | nil => intro p q hp h; cases h; exact hp
  | cons e es ih =>
    intro p q hp h
    obtain ⟨r, hr, h⟩ := Option.bind_eq_some.mp h
    exact ih r q (hp.step hr) h

/-! ### The program's parts are the modelled components -/

/-- What every reachable program satisfies: its server is a reachable server, its module a reachable
    module, and the caller waits on a join exactly while the module's unload does. -/
structure Inv (p : Program) : Prop where
  server : p.server.Reachable
  modules : p.moduleManager.ModulesReachable
  joining : p.moduleManager.joining = p.unloading.isSome

/-- A step that moves the server by at most one of its own steps and the manager's module by one of
    its own keeps the invariant. -/
theorem Inv.of_parts {p q : Program} (h : Inv p)
    (hserver : q.server = p.server ∨ ∃ e, p.server.step e = some q.server)
    (hmod : p.moduleManager.ModuleStep q.moduleManager) (hj : q.moduleManager.joining = q.unloading.isSome) :
    Inv q :=
  ⟨by rcases hserver with hs | ⟨e, hs⟩
      · exact hs ▸ h.server
      · exact h.server.step hs,
    hmod.reachable h.modules, hj⟩

theorem Inv.withServer {p q : Program} {e : Server.Event} (h : Inv p)
    (hs : p.withServer (p.server.step e) = some q) : Inv q := by
  obtain ⟨t, ht, rfl⟩ := Option.map_eq_some'.mp hs
  exact ⟨h.server.step ht, h.modules, h.joining⟩

theorem withManager_eq {p q : Program} {o : Outcome ModuleManager} (h : p.withManager o = some q) :
    ∃ s, (o = .ret s ∨ ∃ e, o = .throw e s) ∧ q = { p with moduleManager := s } := by
  cases o with
  | ret s => cases h; exact ⟨s, Or.inl rfl, rfl⟩
  | throw e s => cases h; exact ⟨s, Or.inr ⟨e, rfl⟩, rfl⟩
  | abort => cases h

theorem Free.joining {p : Program} (h : p.Free) (hi : Inv p) : p.moduleManager.joining = false := by
  simpa [h.2.2] using hi.joining

theorem Inv.step {p q : Program} {e : Event} (h : Inv p) (hs : p.step e = some q) : Inv q := by
  cases e with
  | setup i o => exact h.withServer hs
  | caller => exact h.withServer hs
  | bind w ok => exact h.withServer hs
  | exit w => exact h.withServer hs
  | loadModule name =>
    simp only [Program.step] at hs
    split at hs
    · rename_i hf
      obtain ⟨s, ho, rfl⟩ := withManager_eq hs
      obtain ⟨hm, hj⟩ := ModuleManager.loadModule_step ho (hf.joining h)
      exact h.of_parts (Or.inl rfl) hm (by simpa [hf.2.2] using hj)
    · cases hs
  | loadProcUnit name init =>
    simp only [Program.step] at hs
    split at hs
    · rename_i hf
      have hj := hf.joining h
      unfold loadProcUnit at hs
      split at hs
      · rename_i s buf acts hb
        obtain ⟨t, ht, rfl⟩ := Option.map_eq_some'.mp hs
        obtain ⟨hm, hj'⟩ := ModuleManager.loadProcUnitBody_step (by rw [hb]; exact Or.inl rfl) h.modules hj
        exact h.of_parts (Or.inr ⟨_, ht⟩) hm (by simpa [hf.2.2] using hj')
      · rename_i o c _ hb
        obtain ⟨s, ho, rfl⟩ := withManager_eq hs
        obtain ⟨hm, hj'⟩ := ModuleManager.loadProcUnitBody_step (by rw [hb]; exact ho) h.modules hj
        exact h.of_parts (Or.inl rfl) hm (by simpa [hf.2.2] using hj')
    · cases hs
  | unloadProcUnit | unloadModule =>
    simp only [Program.step] at hs
    split at hs
    · cases hs
      refine h.of_parts (Or.inl rfl) (ModuleManager.unload_step _ (Free.joining ‹_› h)) ?_
      simp only [beginUnload]
      split <;> simp_all
    · cases hs
  | join =>
    simp only [Program.step] at hs
    split at hs
    · obtain ⟨s, hj, rfl⟩ := Option.map_eq_some'.mp hs
      obtain ⟨hm, hj'⟩ := ModuleManager.unloadJoin_step hj
      exact h.of_parts (Or.inl rfl) hm hj'
    · cases hs
  | prodExit i =>
    simp only [Program.step] at hs
    split at hs
    · obtain ⟨s, hp, rfl⟩ := Option.map_eq_some'.mp hs
      obtain ⟨hm, hj⟩ := ModuleManager.prodExit_step hp
      exact h.of_parts (Or.inl rfl) hm (hj.trans h.joining)
    · cases hs

theorem Reachable.inv {p : Program} (hp : p.Reachable) : Inv p := by
  induction hp with
  | constructed => exact ⟨.constructed, fun m hm => (by cases hm), rfl⟩
  | step _ hs ih => exact ih.step hs

/-- The server of a reachable program is a reachable server, and its module a reachable module: what
    `Net.Server` and `Module.IModule` prove of their reachable states holds inside the program. -/
theorem Reachable.parts {p : Program} (hp : p.Reachable) :
    p.server.Reachable ∧ ∀ m, p.moduleManager.loadedModule = some m → m.Reachable :=
  ⟨hp.inv.server, hp.inv.modules⟩

/-- The manager's unloads and the module's join never reach the server. -/
theorem unload_keeps_server {p q : Program} {e : Event} (he : e = .unloadProcUnit ∨ e = .unloadModule ∨ e = .join)
    (hs : p.step e = some q) : q.server = p.server := by
  rcases he with rfl | rfl | rfl <;> simp only [Program.step] at hs <;> split at hs <;> try cases hs
  · rfl
  · rfl
  · obtain ⟨s, -, rfl⟩ := Option.map_eq_some'.mp hs
    rfl

/-! ### An unload leaves the server serving a deleted module -/

/-- `setup`, `trabea` with a `circulator_switch` whose options parse and whose dispatcher answers
    (its initialisation returns), then `unload_module`: `notify` launches the sync worker, which binds
    and signals, and the module, which has no production thread, is deleted at once. -/
def unloadTrace : List Event :=
  [.setup "tcp://*:5555" "tcp://*:5556", .loadModule "trabea", .loadProcUnit "circulator_switch" (.ret ()),
    .caller, .bind 0 true, .caller, .unloadModule]

theorem worker_outlives_module :
    ∃ p : Program, p.Reachable ∧ p.Free ∧ p.moduleManager.loadedModule = none ∧ p.server.moduleAsyncBuffer = some 0 ∧
      ∃ w ∈ p.server.workers, w.phase = .serving :=
  ⟨_, .of_run unloadTrace rfl, by decide, rfl, rfl, _, List.mem_singleton_self _, rfl⟩

end Program

end ArmishFireplace
