import Mathlib.Data.List.Basic
import ArmishFireplace.Actions

/-! `module::trabea::proc_unit::circulator_switch` (`circulator_switch.cpp`): a switch whose ports
are connected by a circulant permutation, clockwise or counter-clockwise. `proc_act_request`
(`get_state`) and `proc_act_push` (`configure`) of `iswitch_proc_unit` call `get_switch_state` and
`set_switch_state` under `stateMutex`, so each call is one atomic step on the switch.

Both members decide the rotation a pair of ports needs by the same test, `inPort + 1 == outPort ||
inPort + 1 == portCount` in `size_t`. `set_switch_state` records the new rotation before it asks
the simulation dispatcher to configure it; what `dispatcher->call` does is an input, and neither
its refusal nor its failure undoes the record. -/

namespace ArmishFireplace.Module.Trabea

/-- `circulator_switch::chirality`. -/
inductive Chirality where
  | cw
  | ccw
  deriving DecidableEq, Repr

/-- The fields of a `circulator_switch` its two members read: `portCount` (from the `p` option) and
    the recorded rotation `state`. -/
structure CirculatorSwitch where
  portCount : Nat
  state : Chirality
  deriving DecidableEq, Repr

namespace CirculatorSwitch

/-- The test both members make: `cw` when `inPort + 1`, in `size_t`, is `outPort` or `portCount`,
    otherwise `ccw`. -/
def rotationFor (portCount inPort outPort : Nat) : Chirality :=
  if (inPort + 1) % 2 ^ 64 = outPort ∨ (inPort + 1) % 2 ^ 64 = portCount then .cw else .ccw

/-- `get_switch_state(inPort, outPort)`. -/
def getSwitchState (s : CirculatorSwitch) (inPort outPort : Nat) : Bool :=
  s.state = rotationFor s.portCount inPort outPort

/-- `set_switch_state(inPort, outPort)`, with `call` what `dispatcher->call` does: it returns a
    response, whose `get_error()` is given, or throws (`std::runtime_error(err_msg::_ntwrkdn)` when
    the send or the receive fails). The result is the returned value or the exception, with the
    switch after the call. -/
def setSwitchState (s : CirculatorSwitch) (inPort outPort : Nat) (call : Except Exc Bool) :
    Except Exc Bool × CirculatorSwitch :=
  if inPort ≥ s.portCount ∨ outPort ≥ s.portCount then (.ok false, s)
  else
    let newState := rotationFor s.portCount inPort outPort
    if newState ≠ s.state then
      match call with
      | .ok error => (.ok !error, { s with state := newState })
      | .error e => (.error e, { s with state := newState })
    else (.ok true, s)

/-- The rotation that takes each port to the next: `cw` to `i + 1`, `ccw` to `i - 1`, modulo `n`. -/
def follows (n : Nat) : Chirality → Nat → Nat → Bool
  | .cw, i, o => o = (i + 1) % n
  | .ccw, i, o => (o + 1) % n = i

theorem succ_mod_of_lt {i n : Nat} (hi : i < n) : (i + 1) % n = if i + 1 = n then 0 else i + 1 := by
  split
  · rename_i h; rw [h, Nat.mod_self]
  · exact Nat.mod_eq_of_lt (by omega)

/-- On `n ≥ 3` ports, for a pair that some rotation connects, the test answers correctly except for
    the pair `(n - 1, n - 2)`. -/
theorem getSwitchState_adjacent (s : CirculatorSwitch) {i o : Nat} (h3 : 3 ≤ s.portCount)
    (hn : s.portCount < 2 ^ 64) (hi : i < s.portCount) (ho : o < s.portCount)
    (hadj : follows s.portCount .cw i o ∨ follows s.portCount .ccw i o)
    (hlast : ¬(i = s.portCount - 1 ∧ o = s.portCount - 2)) :
    s.getSwitchState i o = follows s.portCount s.state i o := by
  have h64 : (i + 1) % 2 ^ 64 = i + 1 := Nat.mod_eq_of_lt (by omega)
  simp only [follows, decide_eq_true_eq, succ_mod_of_lt hi, succ_mod_of_lt ho] at hadj
  cases hs : s.state <;>
    simp only [getSwitchState, rotationFor, follows, hs, h64, succ_mod_of_lt hi, succ_mod_of_lt ho] <;>
    split_ifs at hadj ⊢ <;> simp <;> omega

theorem getSwitchState_adjacent_four :
    (3 ≤ 4 ∧ 4 < 2 ^ 64 ∧ 0 < 4 ∧ 1 < 4 ∧ (follows 4 .cw 0 1 ∨ follows 4 .ccw 0 1) ∧ ¬(0 = 4 - 1 ∧ 1 = 4 - 2)) ∧
      getSwitchState ⟨4, .cw⟩ 0 1 = follows 4 .cw 0 1 :=
  ⟨by decide, getSwitchState_adjacent ⟨4, .cw⟩ (by decide) (by decide) (by decide) (by decide) (by decide)
    (by decide)⟩

/-- For every `n ≥ 3` ports: clockwise, the switch reports `n - 1` connected to `n - 2`, which only
    counter-clockwise connects; counter-clockwise, `set_switch_state(0, 0)` returns `true` though no
    rotation takes a port to itself. -/
theorem circulant_test_misclassifies (n : Nat) (h3 : 3 ≤ n) (hn : n < 2 ^ 64) (call : Except Exc Bool) :
    getSwitchState ⟨n, .cw⟩ (n - 1) (n - 2) = true ∧ follows n .cw (n - 1) (n - 2) = false ∧
      follows n .ccw (n - 1) (n - 2) = true ∧
      (setSwitchState ⟨n, .ccw⟩ 0 0 call).1 = .ok true ∧ ∀ c, follows n c 0 0 = false := by
  have h64 : (n - 1 + 1) % 2 ^ 64 = n := by rw [Nat.sub_add_cancel (by omega)]; exact Nat.mod_eq_of_lt hn
  have hcw : (n - 1 + 1) % n = 0 := by rw [Nat.sub_add_cancel (by omega), Nat.mod_self]
  have hccw : (n - 2 + 1) % n = n - 1 := by rw [show n - 2 + 1 = n - 1 by omega]; exact Nat.mod_eq_of_lt (by omega)
  have h01 : (0 + 1) % 2 ^ 64 = 1 := rfl
  have h1 : (0 + 1) % n = 1 := Nat.mod_eq_of_lt (by omega)
  refine ⟨by simp [getSwitchState, rotationFor, h64, -Nat.reducePow], by simp [follows, hcw]; omega, by simp [follows, hccw],
    ?_, fun c => by cases c <;> simp [follows, h1]⟩
  have : rotationFor n 0 0 = .ccw := by simp [rotationFor, h01]; omega
  simp [setSwitchState, this, show n ≠ 0 by omega]

theorem circulant_test_misclassifies_three :
    (3 ≤ 3 ∧ 3 < 2 ^ 64) ∧ getSwitchState ⟨3, .cw⟩ 2 1 = true ∧ follows 3 .cw 2 1 = false ∧
      follows 3 .ccw 2 1 = true ∧ (setSwitchState ⟨3, .ccw⟩ 0 0 (.ok false)).1 = .ok true ∧
      ∀ c, follows 3 c 0 0 = false :=
  ⟨by decide, circulant_test_misclassifies 3 (by decide) (by decide) (.ok false)⟩

/-- `state` is written before the dispatcher call: a call that throws or reports an error leaves the
    switch in the new rotation, which then answers `true` for the pair the dispatcher did not take. -/
theorem failed_set_keeps_new_state (s : CirculatorSwitch) {inPort outPort : Nat} (e : Exc)
    (hi : inPort < s.portCount) (ho : outPort < s.portCount)
    (hc : rotationFor s.portCount inPort outPort ≠ s.state) :
    s.setSwitchState inPort outPort (.error e) =
        (.error e, { s with state := rotationFor s.portCount inPort outPort }) ∧
      s.setSwitchState inPort outPort (.ok true) =
        (.ok false, { s with state := rotationFor s.portCount inPort outPort }) ∧
      s.getSwitchState inPort outPort = false ∧
      ({ s with state := rotationFor s.portCount inPort outPort } : CirculatorSwitch).getSwitchState
        inPort outPort = true := by
  have hb : ¬(inPort ≥ s.portCount ∨ outPort ≥ s.portCount) := by omega
  simp [setSwitchState, getSwitchState, hb, hc, Ne.symm hc]

theorem failed_set_keeps_new_state_network_down :
    (0 < 3 ∧ 1 < 3 ∧ rotationFor 3 0 1 ≠ Chirality.ccw) ∧
      setSwitchState ⟨3, .ccw⟩ 0 1 (.error (.runtimeError ErrMsg.ntwrkdn)) =
        (.error (.runtimeError ErrMsg.ntwrkdn), ⟨3, rotationFor 3 0 1⟩) ∧
      setSwitchState ⟨3, .ccw⟩ 0 1 (.ok true) = (.ok false, ⟨3, rotationFor 3 0 1⟩) ∧
      getSwitchState ⟨3, .ccw⟩ 0 1 = false ∧ getSwitchState ⟨3, rotationFor 3 0 1⟩ 0 1 = true :=
  ⟨by decide, failed_set_keeps_new_state ⟨3, .ccw⟩ (.runtimeError ErrMsg.ntwrkdn) (by decide) (by decide)
    (by decide)⟩

/-! ### The requests of `iswitch_proc_unit` -/

/-- A request as `iswitch_proc_unit` reads it: its method and the `std::size_t` parameters `0` and
    `1`. -/
structure SwitchRequest where
  method : String
  inPort : Nat
  outPort : Nat
  deriving DecidableEq, Repr

/-- `iswitch_proc_unit::proc_act_request`: `get_state` is answered with `get_switch_state`; any other
    method throws `std::runtime_error(err_msg::_malinpt)`. -/
def procActRequest (s : CirculatorSwitch) (r : SwitchRequest) : Except Exc Bool :=
  if r.method = "get_state" then .ok (s.getSwitchState r.inPort r.outPort)
  else .error (.runtimeError ErrMsg.malinpt)

/-- `iswitch_proc_unit::proc_act_push`: `configure` runs `set_switch_state`; any other method throws
    `std::runtime_error(err_msg::_malinpt)` before the switch is touched. -/
def procActPush (s : CirculatorSwitch) (r : SwitchRequest) (call : Except Exc Bool) :
    Except Exc Bool × CirculatorSwitch :=
  if r.method = "configure" then s.setSwitchState r.inPort r.outPort call
  else (.error (.runtimeError ErrMsg.malinpt), s)

/-- A `proc_act_request`, or a `proc_act_push` with what its dispatcher call does. Both run under
    `stateMutex`, so they take effect one at a time. -/
inductive SwitchEvent where
  | request (r : SwitchRequest)
  | push (r : SwitchRequest) (call : Except Exc Bool)
  deriving DecidableEq, Repr

/-- The switch after an event; what it returns goes to the caller. -/
def afterEvent (s : CirculatorSwitch) : SwitchEvent → CirculatorSwitch
  | .request _ => s
  | .push r call => (s.procActPush r call).2

/-- The rotation a push asks for: a `configure` whose ports are both below `n`. -/
def configured (n : Nat) : SwitchEvent → Option Chirality
  | .push r _ =>
    if r.method = "configure" ∧ r.inPort < n ∧ r.outPort < n then some (rotationFor n r.inPort r.outPort)
    else none
  | .request _ => none

/-- The rotation the last such push of a sequence asks for. -/
def lastConfigured (n : Nat) (es : List SwitchEvent) : Option Chirality :=
  es.foldl (fun last e => (configured n e).or last) none

theorem afterEvent_eq (s : CirculatorSwitch) (e : SwitchEvent) :
    s.afterEvent e = { s with state := (configured s.portCount e).getD s.state } := by
  cases e with
  | request r => rfl
  | push r call =>
    simp only [afterEvent, procActPush, configured, setSwitchState]
    by_cases hm : r.method = "configure"
    · by_cases hb : r.inPort < s.portCount ∧ r.outPort < s.portCount
      · have hb' : ¬(r.inPort ≥ s.portCount ∨ r.outPort ≥ s.portCount) := by omega
        by_cases hc : rotationFor s.portCount r.inPort r.outPort = s.state
        · simp [hm, hb, hb', hc]
        · cases call <;> simp [hm, hb, hb', hc]
      · simp [hm, hb, show r.inPort ≥ s.portCount ∨ r.outPort ≥ s.portCount by omega]
    · simp [hm]

theorem foldl_afterEvent (s : CirculatorSwitch) (es : List SwitchEvent) :
    es.foldl afterEvent s = { s with state := (lastConfigured s.portCount es).getD s.state } := by
  suffices h : ∀ (last : Option Chirality) (t : CirculatorSwitch), t.portCount = s.portCount →
      t.state = last.getD s.state →
      es.foldl afterEvent t = { s with state := (es.foldl (fun l e => (configured s.portCount e).or l) last).getD s.state } from
    h none s rfl rfl
  induction es with
  | nil => intro last t hn hs; cases t; simp_all
  | cons e es ih =>
    intro last t hn hs
    apply ih
    · simp [afterEvent_eq, hn]
    · rw [afterEvent_eq, hn]
      cases hc : configured s.portCount e <;> simp [hs, hc]

/-- Whatever requests and pushes reach the switch, in any order and whatever the dispatcher does, the
    switch holds the rotation of the last in-range `configure` (its first if none), and `get_state`
    answers by it. -/
theorem switch_follows_last_configure (s : CirculatorSwitch) (es : List SwitchEvent) (i o : Nat) :
    es.foldl afterEvent s = { s with state := (lastConfigured s.portCount es).getD s.state } ∧
      procActRequest (es.foldl afterEvent s) ⟨"get_state", i, o⟩ =
        .ok (decide ((lastConfigured s.portCount es).getD s.state = rotationFor s.portCount i o)) := by
  rw [foldl_afterEvent]
  exact ⟨rfl, by simp [procActRequest, getSwitchState]⟩

end CirculatorSwitch

end ArmishFireplace.Module.Trabea
