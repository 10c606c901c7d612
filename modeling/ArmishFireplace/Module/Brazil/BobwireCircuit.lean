import Mathlib.Data.List.Basic
import ArmishFireplace.Actions

/-! `module::brazil::proc_unit::bobwire_circuit::get_next_basis` (`bobwire_circuit.hpp`): the
measurement bases, one bit per call, taken from the bytes of the bases file.

The file is a `std::ifstream` opened by `string_initialize_parameters`; `get(char&)` and
`seekg(0, beg)` are modelled with the stream's `eofbit` and `failbit` as C++11 has them: both are
unformatted input functions whose sentry fails, setting `failbit`, unless the stream is good, and
`seekg` first clears `eofbit` but not `failbit`. -/

namespace ArmishFireplace.Module.Brazil

/-- The `std::ifstream basesFile`: the file's bytes, the read position, `eofbit` and `failbit`. -/
structure BasesFile where
  bytes : List (BitVec 8)
  pos : Nat
  eof : Bool
  fail : Bool
  deriving DecidableEq, Repr

namespace BasesFile

/-- `get(char&)`: nothing unless the stream is good (`failbit` set); at the end of the file, `eofbit`
    and `failbit`. -/
def get (f : BasesFile) : Option (BitVec 8) × BasesFile :=
  if f.eof || f.fail then (none, { f with fail := true })
  else
    match f.bytes[f.pos]? with
    | some b => (some b, { f with pos := f.pos + 1 })
    | none => (none, { f with eof := true, fail := true })

/-- `seekg(0, beg)`: clear `eofbit`, then move to the start unless `failbit` makes the sentry fail. -/
def seekg (f : BasesFile) : BasesFile :=
  if f.fail then { f with eof := false } else { f with eof := false, pos := 0 }

theorem get_fail {f : BasesFile} (h : f.get.1 = none) : f.get.2.fail = true := by
  unfold get at *
  split
  · rfl
  · split <;> simp_all

theorem get_of_not_good {f : BasesFile} (h : (f.eof || f.fail) = true) :
    f.get = (none, { f with fail := true }) := by
  simp [get, h]

@[simp] theorem seekg_eof (f : BasesFile) : f.seekg.eof = false := by
  unfold seekg; split <;> rfl

@[simp] theorem seekg_fail (f : BasesFile) : f.seekg.fail = f.fail := by
  unfold seekg; split <;> rfl

end BasesFile

open BasesFile

/-- The `bfread:` loop of `get_next_basis`: read a byte; at the end of the file seek to its start and
    `goto bfread`; on any other failure throw `std::runtime_error("IO ERROR")`. `fuel` bounds the
    passes; two always suffice (`bfread_add_two`). -/
def bfread : Nat → BasesFile → Option (Except Exc (BitVec 8 × BasesFile))
  | 0, _ => none
  | fuel + 1, f =>
    match f.get with
    | (some b, f') => some (.ok (b, f'))
    | (none, f') => if f'.eof then bfread fuel f'.seekg else some (.error (.runtimeError "IO ERROR"))

/-- A failed read leaves `failbit` set, which `seekg` keeps: the second pass throws. -/
theorem bfread_add_two (n : Nat) (f : BasesFile) : bfread (n + 2) f = bfread 2 f := by
  rcases hg : f.get with ⟨_ | b, f'⟩
  · have hf : f'.fail = true := by
      have := get_fail (show f.get.1 = none by rw [hg])
      rwa [hg] at this
    simp [bfread, hg, get_of_not_good (show (f'.seekg.eof || f'.seekg.fail) = true by simp [hf])]
  · simp [bfread, hg]

/-- The members of a `bobwire_circuit` that `get_next_basis` uses. -/
structure BobwireCircuit where
  basesFile : BasesFile
  basisByte : BitVec 8
  basisBytePos : Nat
  deriving DecidableEq, Repr

namespace BobwireCircuit

/-- After the constructor (`basisByte(0)`, `basisBytePos(0)`) and `string_initialize_parameters`,
    which opens the bases file. -/
def opened (bytes : List (BitVec 8)) : BobwireCircuit := ⟨⟨bytes, 0, false, false⟩, 0, 0⟩

/-- The end of a call: `basisBytePos++` (a `size_t`), `basisByte >>= 1` (a `char`: an arithmetic
    shift), and `basisByte & 1` returned. -/
def shiftOut (w : BobwireCircuit) (f : BasesFile) (b : BitVec 8) : BitVec 8 × BobwireCircuit :=
  (b.sshiftRight 1 &&& 1, ⟨f, b.sshiftRight 1, (w.basisBytePos + 1) % 2 ^ 64⟩)

/-- `get_next_basis()`: at `basisBytePos == 7`, first read the next byte into `basisByte`. -/
def getNextBasis (w : BobwireCircuit) : Option (Except Exc (BitVec 8 × BobwireCircuit)) :=
  if w.basisBytePos = 7 then (bfread 2 w.basesFile).map fun r => r.map fun p => w.shiftOut p.2 p.1
  else some (.ok (w.shiftOut w.basesFile w.basisByte))

/-- `n` successive calls, to the state after them or the exception one throws; the bits they return
    are left out. -/
def getNextBases : Nat → BobwireCircuit → Option (Except Exc BobwireCircuit)
  | 0, w => some (.ok w)
  | n + 1, w =>
    match getNextBasis w with
    | some (.ok (_, w')) => getNextBases n w'
    | some (.error e) => some (.error e)
    | none => none

theorem getNextBases_add {m : Nat} {w w' : BobwireCircuit} (h : getNextBases m w = some (.ok w'))
    (k : Nat) : getNextBases (m + k) w = getNextBases k w' := by
  induction m generalizing w with
  | zero => cases h; rw [Nat.zero_add]
  | succ m ih =>
    rw [Nat.succ_add]
    simp only [getNextBases] at h ⊢
    split at h <;> try cases h
    exact ih h

/-- Calls at positions other than `7` read nothing: the file stays as it is. -/
theorem getNextBases_no_read (k : Nat) (w : BobwireCircuit) (hp : w.basisBytePos < 2 ^ 64)
    (h : ∀ i < k, (w.basisBytePos + i) % 2 ^ 64 ≠ 7) :
    ∃ b, getNextBases k w = some (.ok ⟨w.basesFile, b, (w.basisBytePos + k) % 2 ^ 64⟩) := by
  induction k generalizing w with
  | zero => exact ⟨w.basisByte, by rw [Nat.add_zero, Nat.mod_eq_of_lt hp]; rfl⟩
  | succ k ih =>
    have h7 : w.basisBytePos ≠ 7 := by
      have := h 0 (by omega)
      rwa [Nat.add_zero, Nat.mod_eq_of_lt hp] at this
    obtain ⟨b, hb⟩ := ih (w.shiftOut w.basesFile w.basisByte).2 (Nat.mod_lt _ (by decide))
      fun i hi => by
        simp only [shiftOut]
        rw [Nat.mod_add_mod, Nat.add_assoc, Nat.add_comm 1 i]
        exact h (i + 1) (by omega)
    refine ⟨b, ?_⟩
    simp only [getNextBases, getNextBasis, h7, if_false]
    rw [hb]
    simp only [shiftOut, Nat.mod_add_mod, Nat.add_assoc, Nat.add_comm 1 k]

/-- The call at position `7` reads the byte at the file's position. -/
theorem getNextBasis_read {w : BobwireCircuit} {x : BitVec 8} (h7 : w.basisBytePos = 7)
    (hf : w.basesFile.eof = false ∧ w.basesFile.fail = false)
    (hx : w.basesFile.bytes[w.basesFile.pos]? = some x) :
    getNextBasis w = some (.ok (w.shiftOut { w.basesFile with pos := w.basesFile.pos + 1 } x)) := by
  simp [getNextBasis, h7, bfread, BasesFile.get, hf, hx, Except.map]

/-- For every non-empty bases file, the first `2^64 + 7` calls read one byte, at the eighth call,
    since `basisBytePos` is never reset; and at the end of the file the read throws instead of
    wrapping around. -/
theorem bases_file_read_once (bytes : List (BitVec 8)) (hb : bytes ≠ []) :
    (∀ n, 8 ≤ n → n < 2 ^ 64 + 8 → ∃ w, getNextBases n (opened bytes) = some (.ok w) ∧
      w.basesFile = ⟨bytes, 1, false, false⟩) ∧
    ∀ b, getNextBasis ⟨⟨bytes, bytes.length, false, false⟩, b, 7⟩ =
      some (.error (.runtimeError "IO ERROR")) := by
  refine ⟨fun n h8 hn => ?_, fun b => ?_⟩
  · obtain ⟨x, rest, rfl⟩ := List.exists_cons_of_ne_nil hb
    -- Seven calls read nothing, the eighth reads the first byte, the others read nothing again.
    obtain ⟨b₁, h₁⟩ := getNextBases_no_read 7 (opened (x :: rest)) (by simp [opened]) fun i hi => by
      simp only [opened]; omega
    simp only [opened] at h₁
    have h₈ : getNextBasis ⟨⟨x :: rest, 0, false, false⟩, b₁, 7⟩ = some (.ok (shiftOut
        ⟨⟨x :: rest, 0, false, false⟩, b₁, 7⟩ ⟨x :: rest, 1, false, false⟩ x)) :=
      getNextBasis_read rfl ⟨rfl, rfl⟩ (by simp)
    have h₂ : getNextBases 1 ⟨⟨x :: rest, 0, false, false⟩, b₁, 7⟩ =
        some (.ok ⟨⟨x :: rest, 1, false, false⟩, x.sshiftRight 1, 8⟩) := by
      simp only [getNextBases, h₈]
      rfl
    obtain ⟨b₂, h₃⟩ := getNextBases_no_read (n - 8) ⟨⟨x :: rest, 1, false, false⟩, x.sshiftRight 1, 8⟩
      (by simp) fun i hi => by dsimp only; omega
    have h := getNextBases_add ((getNextBases_add h₁ 1).trans h₂) (n - 8)
    rw [show 7 + 1 + (n - 8) = n by omega] at h
    exact ⟨_, h.trans h₃, rfl⟩
  · simp [getNextBasis, bfread, BasesFile.get, seekg, Except.map]

theorem bases_file_read_once_one_byte :
    [(90 : BitVec 8)] ≠ [] ∧ (∃ w, getNextBases 16 (opened [90]) = some (.ok w) ∧
      w.basesFile = ⟨[90], 1, false, false⟩) :=
  ⟨by decide, (bases_file_read_once [90] (by decide)).1 16 (by decide) (by decide)⟩

end BobwireCircuit

end ArmishFireplace.Module.Brazil
