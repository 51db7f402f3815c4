import AiEngine.Lib.Outcome
import AiEngine.Lib.Bytes

/-!
# The platform the engine runs on

What the C and C++ sources take from the platform without saying so: the
width of `size_t`, the limits of `int`, the bounds-checked copy, and the
error codes of `aie_retcode_inner.h` that several components share.
-/

namespace AiEngine.Ref

open AiEngine.Lib

/-- The data models the engine is built for: small systems have a 32-bit
`size_t`, Linux hosts a 64-bit one. -/
inductive Abi where
  | ilp32
  | lp64
  deriving DecidableEq, Repr

/-- `sizeof(size_t)`. -/
def Abi.wordSize : Abi → Nat
  | .ilp32 => 4
  | .lp64 => 8

/-- One past the largest `size_t`. -/
def Abi.sizeMod (a : Abi) : Nat := 256 ^ a.wordSize

/-- Unsigned arithmetic on `size_t`: the exact result, reduced. -/
def Abi.sizeT (a : Abi) (n : Nat) : Nat := n % a.sizeMod

/-- `--n` of an atomic `size_t`. -/
def Abi.pred (a : Abi) (n : Nat) : Nat := a.sizeT (n + (a.sizeMod - 1))

/-- `m - n` on `size_t`. -/
def Abi.sub (a : Abi) (m n : Nat) : Nat := a.sizeT (m + (a.sizeMod - n))

/-- `INT_MAX`. -/
def intMax : Nat := 2147483647

theorem Abi.wordSize_pos (a : Abi) : 0 < a.wordSize := by cases a <;> decide

theorem Abi.wordSize_le (a : Abi) : a.wordSize ≤ 8 := by cases a <;> decide

theorem Abi.sizeMod_ge (a : Abi) : 4294967296 ≤ a.sizeMod := by
  cases a <;> decide

theorem Abi.sizeT_of_lt {a : Abi} {n : Nat} (h : n < a.sizeMod) :
    a.sizeT n = n := Nat.mod_eq_of_lt h

theorem Abi.pred_of_pos {a : Abi} {n : Nat} (hpos : 0 < n)
    (h : n < a.sizeMod) : a.pred n = n - 1 := by
  have heq : n + (a.sizeMod - 1) = (n - 1) + a.sizeMod := by omega
  rw [Abi.pred, Abi.sizeT, heq, Nat.add_mod_right]
  exact Nat.mod_eq_of_lt (by omega)

theorem Abi.sub_of_le {a : Abi} {m n : Nat} (hle : n ≤ m)
    (h : m < a.sizeMod) : a.sub m n = m - n := by
  have heq : m + (a.sizeMod - n) = (m - n) + a.sizeMod := by omega
  rw [Abi.sub, Abi.sizeT, heq, Nat.add_mod_right]
  exact Nat.mod_eq_of_lt (by omega)

/-- A number below the 32-bit range survives the reduction on every
platform. -/
theorem Abi.sizeT_small {a : Abi} {n : Nat} (h : n < 4294967296) :
    a.sizeT n = n := by
  have := a.sizeMod_ge
  exact Abi.sizeT_of_lt (by omega)

namespace Retcode

def success : Int := 0
def failure : Int := -1
def outOfMemory : Int := 1001
def nullParam : Int := 1002
def algorithmIdInvalid : Int := 1003
def memoryCopyFailure : Int := 1004
def saServiceException : Int := 1100
def saAsyncHandlerNotFound : Int := 1102
def soLackSymbol : Int := 1200
def openSoFailed : Int := 1202
def engineNotExist : Int := 1204
def noClientFound : Int := 1206
def wrongInferMode : Int := 1207
def asyncCbStarted : Int := 1208
def startThreadFailed : Int := 1400
def queueFull : Int := 1500
def queueEmpty : Int := 1501
def queueNodeInvalid : Int := 1502
def algorithmProcessError : Int := 1700

end Retcode

/-! ## `memcpy_s`

The bounds-checking library copies where the sizes it is told allow it, and
answers with an error code where they do not. What there really is behind a
pointer it does not know, so an access outside a block is a fault here. -/

/-- `SECUREC_MEM_MAX_LEN`, the largest destination the bounds-checking
library accepts. -/
def memcpyMax : Nat := 2147483647

/-- The arguments on which `memcpy_s` returns `EOK`, for a source and a
destination that do not overlap. -/
def memcpyOk (destMax count : Nat) : Bool :=
  0 < destMax && destMax ≤ memcpyMax && count ≤ destMax

/-- `ERANGE`, what `memcpy_s` answers to a size it refuses. -/
def eRange : Int := 34

/-- `memcpy_s(dest + dpos, destMax, src + spos, count)`. The library checks
the sizes it is told; a source or a destination that is shorter than that is
accessed out of bounds. -/
def memcpyS (dest : List UInt8) (dpos destMax : Nat) (src : List UInt8)
    (spos count : Nat) : Outcome Int (List UInt8) :=
  if memcpyOk destMax count then
    match load src spos count with
    | none => .fault
    | some bs =>
        match store dest dpos bs.toList with
        | none => .fault
        | some dest => .ok dest
  else .fail eRange

theorem memcpyS_ok (dest src : List UInt8) {dpos spos destMax count : Nat}
    (hmax : memcpyOk destMax count = true) (hsrc : spos + count ≤ src.length)
    (hdest : dpos + count ≤ dest.length) :
    ∃ dest', memcpyS dest dpos destMax src spos count = .ok dest' ∧
      dest'.length = dest.length ∧
      dest'.take (dpos + count) =
        dest.take dpos ++ (src.drop spos).take count := by
  obtain ⟨v, hv⟩ := load_isSome hsrc
  have hlen : v.toList.length = count := Vector.length_toList
  have hroom : dpos + v.toList.length ≤ dest.length := by omega
  obtain ⟨dest', hst⟩ := store_isSome v.toList hroom
  have hspec := store_spec hst
  rw [hlen, (load_spec hv).2] at hspec
  refine ⟨dest', ?_, hspec⟩
  simp only [memcpyS, hmax, hv, hst, if_true]

/-- A copy within both blocks is made or refused. -/
theorem memcpyS_inside (dest src : List UInt8) (destMax : Nat)
    {dpos spos count : Nat} (hsrc : spos + count ≤ src.length)
    (hdest : dpos + count ≤ dest.length) :
    memcpyS dest dpos destMax src spos count = .fail eRange ∨
      ∃ dest', memcpyS dest dpos destMax src spos count = .ok dest' ∧
        dest'.length = dest.length := by
  cases hmax : memcpyOk destMax count with
  | false => exact .inl (by rw [memcpyS, hmax]; rfl)
  | true =>
      obtain ⟨dest', hcopy, hlen, -⟩ := memcpyS_ok dest src hmax hsrc hdest
      exact .inr ⟨dest', hcopy, hlen⟩

theorem memcpyS_fault {dest src : List UInt8} {dpos destMax spos count : Nat}
    (hmax : memcpyOk destMax count = true) (hsrc : spos + count ≤ src.length)
    (hdest : dest.length < dpos + count) :
    memcpyS dest dpos destMax src spos count = .fault := by
  obtain ⟨v, hv⟩ := load_isSome hsrc
  have hlen : v.toList.length = count := Vector.length_toList
  have hst : store dest dpos v.toList = none := by
    rw [store_eq_none]
    omega
  simp only [memcpyS, hmax, hv, hst, if_true]

/-- A copy within both blocks leaves the rest of the destination alone. -/
theorem memcpyS_eq (dest src : List UInt8) {dpos spos destMax count : Nat}
    (hmax : memcpyOk destMax count = true) (hsrc : spos + count ≤ src.length)
    (hdest : dpos + count ≤ dest.length) :
    memcpyS dest dpos destMax src spos count =
      .ok (dest.take dpos ++ (src.drop spos).take count ++
        dest.drop (dpos + count)) := by
  obtain ⟨v, hv, hst⟩ := load_store dest src hsrc hdest
  simp only [memcpyS, hmax, hv, if_true, hst]

/-- `memmove_s(mem + dpos, destMax, mem + spos, count)`: the range that is
read may overlap the range that is written. -/
def memmoveS (mem : List UInt8) (dpos destMax spos count : Nat) :
    Outcome Int (List UInt8) :=
  memcpyS mem dpos destMax mem spos count

theorem memcpyOk_self {n : Nat} (hpos : 0 < n) (hmax : n ≤ intMax) :
    memcpyOk n n = true := by
  have hlim : n ≤ memcpyMax := hmax
  simp only [memcpyOk, Bool.and_eq_true, decide_eq_true_eq]
  omega

/-- A pointer to bytes of the heap: null, to a live block (its bytes), or to
a block that was freed. -/
inductive CPtr where
  | null
  | block (bytes : List UInt8)
  | dangling
  deriving DecidableEq, Repr

/-- `DataInfo`. -/
structure DataInfo where
  data : CPtr
  length : Int
  deriving DecidableEq, Repr

end AiEngine.Ref
