import Mathlib.Data.List.Basic
import ArmishFireplace.Actions

/-! The numbers of a proc unit's parameter string: the dotted-quad address that
`circulator_switch::string_initialize_parameters` (`circulator_switch.cpp`, option `e`) and
`lcc_and_fpga::string_initialize_parameters` (`lcc_and_fpga.cpp`, option `handshakeIp`) store into
`nIP`, and the request endpoint of `trx_circuit` and `bobwire_circuit` (`trx_circuit.cpp`,
`bobwire_circuit.cpp`, option `e`) with `itrx_proc_unit::set_request_endpoint` (`itrx_proc_unit.hpp`).

Both read numbers with the C library's `strtoul` (glibc, "C" locale, base 10). It is modelled on the
memory from its start pointer on: the characters of the string, its terminating `NUL`, and nothing
after it, so that a scan that would read further gives `none`. The dotted-quad parse stores each
value through `char* pnIP` into one byte of `nIP`, a `uint_fast32_t` that is zero before, with
`pnIP[3]` the most significant byte on the little-endian host. -/

namespace ArmishFireplace.Module.Parameters

/-! ### `strtoul` -/

/-- `isspace` in the "C" locale. -/
def isSpace (c : Char) : Bool :=
  c = ' ' || c = '\t' || c = '\n' || c = '\x0B' || c = '\x0C' || c = '\r'

/-- What a call `strtoul(nptr, &end, 10)` gives: the value, how far `end` is past `nptr`, and whether
    it set `errno` to `ERANGE`. -/
structure Strtoul where
  value : Nat
  endOffset : Nat
  range : Bool
  deriving DecidableEq, Repr

/-- How many `isspace` characters lead the memory; `none` if the scan reads past it. -/
def skipSpaces : List Char → Option Nat
  | [] => none
  | c :: cs => if isSpace c then (skipSpaces cs).map (· + 1) else some 0

/-- The sign after the spaces: whether it is `-`, and how many characters it takes. -/
def readSign : List Char → Bool × Nat
  | '-' :: _ => (true, 1)
  | '+' :: _ => (false, 1)
  | _ => (false, 0)

/-- The value of a decimal digit. -/
def digitValue (c : Char) : Nat := c.toNat - '0'.toNat

/-- Decimal digits read onto the value `v`: the value and how many digits there are; `none` if the
    scan reads past the memory. -/
def scanDigits : List Char → Nat → Option (Nat × Nat)
  | [], _ => none
  | c :: cs, v =>
    if c.isDigit then (scanDigits cs (10 * v + digitValue c)).map fun r => (r.1, r.2 + 1)
    else some (v, 0)

/-- `strtoul(nptr, &end, 10)` on the memory `cs` from `nptr` on: spaces, a sign, digits. No digit
    gives `0` with `end` at `nptr`; overflow gives `ULONG_MAX` and `ERANGE`; `-` negates modulo
    `2^64`. -/
def strtoul (cs : List Char) : Option Strtoul :=
  (skipSpaces cs).bind fun ws =>
    let sign := readSign (cs.drop ws)
    (scanDigits ((cs.drop ws).drop sign.2) 0).map fun r =>
      if r.2 = 0 then ⟨0, 0, false⟩
      else if r.1 < 2 ^ 64 then ⟨if sign.1 then (2 ^ 64 - r.1) % 2 ^ 64 else r.1, ws + sign.2 + r.2, false⟩
      else ⟨2 ^ 64 - 1, ws + sign.2 + r.2, true⟩

theorem isSpace_of_isDigit {c : Char} (h : c.isDigit = true) : isSpace c = false := by
  cases hs : isSpace c
  · rfl
  · simp only [isSpace, Bool.or_eq_true, decide_eq_true_eq] at hs
    rcases hs with ((((rfl | rfl) | rfl) | rfl) | rfl) | rfl <;> exact absurd h (by decide)

theorem readSign_of_isDigit {c : Char} (cs : List Char) (h : c.isDigit = true) :
    readSign (c :: cs) = (false, 0) := by
  unfold readSign
  split
  · rename_i heq; cases heq; exact absurd h (by decide)
  · rename_i heq; cases heq; exact absurd h (by decide)
  · rfl

/-! Each scan stops at a `NUL` at the latest, so a single call never reads past memory that holds
one. -/

theorem skipSpaces_nul {cs : List Char} (h : '\x00' ∈ cs) :
    ∃ ws, skipSpaces cs = some ws ∧ '\x00' ∈ cs.drop ws := by
  induction cs with
  | nil => cases h
  | cons c cs ih =>
    by_cases hc : isSpace c
    · have hc0 : '\x00' ≠ c := by rintro rfl; exact absurd hc (by decide)
      obtain ⟨ws, hs, hm⟩ := ih ((List.mem_cons.mp h).resolve_left hc0)
      exact ⟨ws + 1, by simp [skipSpaces, hc, hs], hm⟩
    · exact ⟨0, by simp [skipSpaces, hc], h⟩

theorem readSign_nul {cs : List Char} (h : '\x00' ∈ cs) : '\x00' ∈ cs.drop (readSign cs).2 := by
  unfold readSign
  split <;> simp_all

theorem scanDigits_nul {cs : List Char} (h : '\x00' ∈ cs) (v : Nat) : (scanDigits cs v).isSome := by
  induction cs generalizing v with
  | nil => cases h
  | cons c cs ih =>
    by_cases hc : c.isDigit
    · have hc0 : '\x00' ≠ c := by rintro rfl; exact absurd hc (by decide)
      simp [scanDigits, hc, ih ((List.mem_cons.mp h).resolve_left hc0)]
    · simp [scanDigits, hc]

/-- `strtoul` on memory holding a `NUL` reads nothing past it. -/
theorem strtoul_nul {cs : List Char} (h : '\x00' ∈ cs) : (strtoul cs).isSome := by
  obtain ⟨ws, hs, hm⟩ := skipSpaces_nul h
  simp only [strtoul, hs, Option.some_bind, Option.isSome_map']
  exact scanDigits_nul (readSign_nul hm) 0

/-- The value of decimal digits. -/
def digitsValue (ds : List Char) : Nat := ds.foldl (fun v c => 10 * v + digitValue c) 0

/-- A decimal field: digits, at least one, whose value fits an `unsigned long`. -/
structure Decimal (ds : List Char) : Prop where
  ne_nil : ds ≠ []
  digits : ∀ c ∈ ds, c.isDigit = true
  lt : digitsValue ds < 2 ^ 64

theorem scanDigits_append {ds : List Char} {c : Char} (rest : List Char) (hd : ∀ d ∈ ds, d.isDigit = true)
    (hc : c.isDigit = false) (v : Nat) :
    scanDigits (ds ++ c :: rest) v = some (ds.foldl (fun v c => 10 * v + digitValue c) v, ds.length) := by
  induction ds generalizing v with
  | nil => simp [scanDigits, hc]
  | cons d ds ih => simp [scanDigits, hd d (by simp), ih (fun x hx => hd x (by simp [hx]))]

theorem strtoul_decimal {ds : List Char} {c : Char} (rest : List Char) (hd : Decimal ds)
    (hc : c.isDigit = false) : strtoul (ds ++ c :: rest) = some ⟨digitsValue ds, ds.length, false⟩ := by
  obtain ⟨d, ds', rfl⟩ := List.exists_cons_of_ne_nil hd.ne_nil
  have hd0 := hd.digits d (by simp)
  have hs : skipSpaces (d :: ds' ++ c :: rest) = some 0 := by simp [skipSpaces, isSpace_of_isDigit hd0]
  have hr : readSign (d :: ds' ++ c :: rest) = (false, 0) := readSign_of_isDigit _ hd0
  have hv : scanDigits (d :: ds' ++ c :: rest) 0 = some (digitsValue (d :: ds'), (d :: ds').length) :=
    scanDigits_append rest hd.digits hc 0
  simp only [strtoul, hs, Option.some_bind, List.drop_zero, hr, hv]
  simp [hd.lt, -Nat.reducePow]

/-! ### The dotted-quad address -/

/-- `strtoul(p, &end, 10)` and then `end++`: the value, and the memory from the new `end` on. -/
def strtoulAndStep (cs : List Char) : Option (Nat × List Char) :=
  (strtoul cs).map fun r => (r.value, cs.drop (r.endOffset + 1))

/-- The dotted-quad parse of `circulator_switch` and `lcc_and_fpga`: four `strtoul` calls, each from
    one past where the last stopped, each value stored into one byte of `nIP` through `char* pnIP`.
    `none` if a call reads past the `NUL`. -/
def parseDottedQuad (address : List Char) : Option Nat :=
  (strtoulAndStep (address ++ ['\x00'])).bind fun (b3, end1) =>
    (strtoulAndStep end1).bind fun (b2, end2) =>
      (strtoulAndStep end2).bind fun (b1, end3) =>
        (strtoul end3).map fun r0 =>
          b3 % 256 * 2 ^ 24 + b2 % 256 * 2 ^ 16 + b1 % 256 * 2 ^ 8 + r0.value % 256

theorem strtoulAndStep_decimal {ds : List Char} {c : Char} (rest : List Char) (hd : Decimal ds)
    (hc : c.isDigit = false) : strtoulAndStep (ds ++ c :: rest) = some (digitsValue ds, rest) := by
  simp [strtoulAndStep, strtoul_decimal rest hd hc, List.drop_append]

/-- Four decimal fields joined by dots give each field modulo `256` in its byte of `nIP`. -/
theorem parseDottedQuad_decimal {a b c d : List Char} (ha : Decimal a) (hb : Decimal b) (hc : Decimal c)
    (hd : Decimal d) :
    parseDottedQuad (a ++ '.' :: b ++ '.' :: c ++ '.' :: d) = some (digitsValue a % 256 * 2 ^ 24 +
      digitsValue b % 256 * 2 ^ 16 + digitsValue c % 256 * 2 ^ 8 + digitsValue d % 256) := by
  have hdot : Char.isDigit '.' = false := by decide
  simp only [parseDottedQuad, List.append_assoc, List.cons_append, strtoulAndStep_decimal _ ha hdot,
    Option.some_bind, strtoulAndStep_decimal _ hb hdot, strtoulAndStep_decimal _ hc hdot,
    strtoul_decimal [] hd (by decide : Char.isDigit '\x00' = false), Option.map_some']

theorem parseDottedQuad_decimal_192_168_0_1 :
    (Decimal ['1', '9', '2'] ∧ Decimal ['1', '6', '8'] ∧ Decimal ['0'] ∧ Decimal ['1']) ∧
      parseDottedQuad (['1', '9', '2'] ++ '.' :: ['1', '6', '8'] ++ '.' :: ['0'] ++ '.' :: ['1']) =
        some (digitsValue ['1', '9', '2'] % 256 * 2 ^ 24 + digitsValue ['1', '6', '8'] % 256 * 2 ^ 16 +
          digitsValue ['0'] % 256 * 2 ^ 8 + digitsValue ['1'] % 256) :=
  have h192 : Decimal ['1', '9', '2'] := ⟨by decide, by decide, by decide⟩
  have h168 : Decimal ['1', '6', '8'] := ⟨by decide, by decide, by decide⟩
  have h0 : Decimal ['0'] := ⟨by decide, by decide, by decide⟩
  have h1 : Decimal ['1'] := ⟨by decide, by decide, by decide⟩
  ⟨⟨h192, h168, h0, h1⟩, parseDottedQuad_decimal h192 h168 h0 h1⟩

/-- `10` and the empty string make the later calls start past the terminating `NUL`, and a field
    above 255 is kept modulo 256: the parse rejects nothing. -/
theorem dotted_quad_overreads_and_wraps :
    parseDottedQuad "10".toList = none ∧ parseDottedQuad "".toList = none ∧
      parseDottedQuad "256.0.0.1".toList = some 1 := by
  decide

/-! ### The request endpoint -/

/-- `std::stoul(str, nullptr, 10)` (libstdc++): `strtoul`, throwing `invalid_argument` if nothing is
    converted and `out_of_range` on `ERANGE`, both with `what()` "stoul". `strtoul` stops at the
    string's `NUL` (`strtoul_nul`). -/
def stoul (str : List Char) : Except Exc Nat :=
  match strtoul (str ++ ['\x00']) with
  | some r =>
    if r.endOffset = 0 then .error (.invalidArgument "stoul")
    else if r.range then .error (.outOfRange "stoul")
    else .ok r.value
  | none => .error (.invalidArgument "stoul")

/-- `HTN_BYTE_ORD` of an `unsigned short` on the little-endian host: its two bytes swapped. -/
def swap16 (port : Nat) : Nat := port % 256 * 256 + port / 256

/-- `itrx_proc_unit::set_request_endpoint(address, port)`: `inet_aton` (an input here: the address it
    parses, or its failure) fills `sin_addr`, or the call throws; `sin_port` is `port` in network
    byte order. The result is `(sin_addr, sin_port)`, what `get_request_address` and
    `get_request_port` then return. -/
def setRequestEndpoint (inetAton : List Char → Option Nat) (address : List Char) (port : Nat) :
    Except Exc (Nat × Nat) :=
  match inetAton address with
  | none => .error (.invalidArgument ErrMsg.malinpt)
  | some addr => .ok (addr, swap16 port)

/-- The request endpoint of `trx_circuit::string_initialize_parameters` and of
    `bobwire_circuit::string_initialize_parameters` (the same lines): the `e` option split at its
    first `:`, then `set_request_endpoint(address, std::stoul(port, nullptr, 10))`, whose
    `unsigned short` parameter keeps the value modulo `2^16`. -/
def parseRequestEndpoint (inetAton : List Char → Option Nat) (requestEndpoint : List Char) :
    Except Exc (Nat × Nat) :=
  match requestEndpoint.indexOf? ':' with
  | none => .error (.invalidArgument ErrMsg.malinpt)
  | some i =>
    let requestAddress := requestEndpoint.take i
    let requestPort := requestEndpoint.drop (i + 1)
    if requestAddress.length = 0 then .error (.invalidArgument ErrMsg.malinpt)
    else if requestPort.length = 0 then .error (.invalidArgument ErrMsg.malinpt)
    else (stoul requestPort).bind fun port => setRequestEndpoint inetAton requestAddress (port % 2 ^ 16)

theorem stoul_decimal {ds : List Char} (hd : Decimal ds) : stoul ds = .ok (digitsValue ds) := by
  have hl : ds.length ≠ 0 := fun h => hd.ne_nil (List.length_eq_zero.mp h)
  simp [stoul, strtoul_decimal [] hd (by decide : Char.isDigit '\x00' = false), hl]

theorem indexOf?_append_cons {l : List Char} (h : ':' ∉ l) (r : List Char) :
    (l ++ ':' :: r).indexOf? ':' = some l.length := by
  induction l with
  | nil => simp [List.indexOf?]
  | cons c l ih =>
    simp only [List.mem_cons, not_or] at h
    have hc : (c == ':') = false := beq_eq_false_iff_ne.mpr fun e => h.1 e.symm
    simp only [List.indexOf?, List.cons_append, List.findIdx?_cons, hc] at ih ⊢
    simp [ih h.2]

/-- For every address with no `:` and every decimal port below `2^64`, the endpoint is what
    `set_request_endpoint` makes of the address and the port modulo `2^16`: a port above 65535 is not
    rejected but binds another port. -/
theorem endpoint_port_taken_mod_2_16 (inetAton : List Char → Option Nat) {address port : List Char}
    (ha : address ≠ []) (hc : ':' ∉ address) (hp : Decimal port) :
    parseRequestEndpoint inetAton (address ++ ':' :: port) =
      setRequestEndpoint inetAton address (digitsValue port % 2 ^ 16) := by
  have ha' : address.length ≠ 0 := fun h => ha (List.length_eq_zero.mp h)
  have hp' : port.length ≠ 0 := fun h => hp.ne_nil (List.length_eq_zero.mp h)
  simp [parseRequestEndpoint, indexOf?_append_cons hc, List.drop_append, ha', hp', stoul_decimal hp]
  rfl

/-- `1.2.3.4:70000` binds port 4464. -/
theorem endpoint_70000_binds_4464 :
    parseRequestEndpoint (fun _ => some 67305985) ("1.2.3.4".toList ++ ':' :: "70000".toList) =
      .ok (67305985, swap16 4464) :=
  (endpoint_port_taken_mod_2_16 _ (by decide) (by decide) ⟨by decide, by decide, by decide⟩).trans rfl

end ArmishFireplace.Module.Parameters
