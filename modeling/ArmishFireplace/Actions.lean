import Mathlib.Data.List.Basic
import Mathlib.Algebra.Group.Nat.Basic

/-! The capability model (`actions.hpp`, `actions.cpp`) and what the modelled calls can end in.

An action is one bit of an `actions_list_t`; `pack` xors the bits of a list of actions together and
`check` reads one bit back by masking it and shifting it down. The exceptions and their messages are
those of `common.hpp` that the modelled code throws. -/

namespace ArmishFireplace

/-! ### Exceptions -/

/-! The messages of `err_msg` (`common.hpp`) that the modelled code throws. -/

namespace ErrMsg

/-- `err_msg::_nllpntr`. -/
def nllpntr : String := "null ptr"
/-- `err_msg::_arybnds`. -/
def arybnds : String := "array bounds exceeded"
/-- `err_msg::_tpntfnd`. -/
def tpntfnd : String := "type not found by name"
/-- `err_msg::_undhcse`. -/
def undhcse : String := "unhandled case"
/-- `err_msg::_zrlngth`. -/
def zrlngth : String := "zero length"
/-- `err_msg::_malinpt`. -/
def malinpt : String := "malformed input"
/-- `err_msg::_ntwrkdn`. -/
def ntwrkdn : String := "network down"
/-- `err_msg::_unrchcd`. -/
def unrchcd : String := "unreachable code reached"

end ErrMsg

/-- The exceptions the modelled code throws: `std::runtime_error`, `std::invalid_argument` and
    `std::out_of_range`, with their `what()`. -/
inductive Exc where
  | runtimeError (what : String)
  | invalidArgument (what : String)
  | outOfRange (what : String)
  deriving DecidableEq, Repr

/-- A call that may throw ends in `Except Exc α`; equality on it lets such results be compared. -/
instance instDecidableEqExcept {ε α : Type} [DecidableEq ε] [DecidableEq α] :
    DecidableEq (Except ε α)
  | .error a, .error b => decidable_of_iff (a = b) (by simp)
  | .ok a, .ok b => decidable_of_iff (a = b) (by simp)
  | .error _, .ok _ => isFalse (by simp)
  | .ok _, .error _ => isFalse (by simp)

/-- `what()` of an exception. -/
def Exc.what : Exc → String
  | .runtimeError what => what
  | .invalidArgument what => what
  | .outOfRange what => what

/-- How a call ends: it returns with a state, an exception leaves it with the state the code had
    reached, or the process ends (`std::terminate`, `exit(EXIT_FAILURE)`, `exit(-1)`). -/
inductive Outcome (σ : Type) where
  | ret (s : σ)
  | throw (e : Exc) (s : σ)
  | abort
  deriving DecidableEq, Repr

/-! ### Actions -/

/-- `actions::actions_t`, the four actions a client may make. -/
inductive Action where
  | push
  | wait
  | request
  | reply
  deriving DecidableEq, Repr

/-- The enumerator's value: each action is its own bit. -/
def Action.value : Action → Nat
  | .push => 1
  | .wait => 2
  | .request => 4
  | .reply => 8

/-- `(std::size_t)(log(Query)/log(2))`, the shift in `check`. The quotient is computed in double
    precision; for the four powers of two it is exact. -/
def Action.shift : Action → Nat
  | .push => 0
  | .wait => 1
  | .request => 2
  | .reply => 3

/-- `actions::actions_list_t` (`uint64_t`). `check` reads only the low four bits, and a packed list
    stays below `16`, so nothing here depends on the width. -/
abbrev ActionsList := Nat

/-- `actions::pack<First, Second, Rest...>()`: the xor of the actions' values. The template takes at
    least one action. -/
def pack : Action → List Action → ActionsList
  | last, [] => last.value
  | first, second :: rest => first.value ^^^ pack second rest

/-- `actions::check<Query>(List)`: mask the query's bit and shift it down to bit `0`. -/
def check (query : Action) (list : ActionsList) : Bool :=
  (list &&& query.value) >>> query.shift != 0

/-- The test that `imodule` and `server::notify` make before running async work: the list holds
    `REPLY` or `WAIT`. -/
def asyncActions (list : ActionsList) : Bool :=
  check .reply list || check .wait list

/-- The test `server::notify` makes before running sync work: the list holds `REQUEST` or `PUSH`. -/
def syncActions (list : ActionsList) : Bool :=
  check .request list || check .push list

/-- `actions::str_map`: the action a request names. -/
def strMap (str : String) : Except Exc Action :=
  if str = "request" then .ok .request
  else if str = "reply" then .ok .reply
  else if str = "wait" then .ok .wait
  else if str = "push" then .ok .push
  else .error (.runtimeError ErrMsg.undhcse)

end ArmishFireplace
