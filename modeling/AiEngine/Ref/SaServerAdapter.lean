import AiEngine.Ref.AieIpc
import AiEngine.Ref.DataChannel

/-!
# The adapter of a client

`sa_server_adapter.cpp`: the transaction ids, which join the id of the client
and that of one of its sessions, and the request made of what a client sent.
-/

namespace AiEngine.Ref

/-- `SaServerAdapter::GetTransactionId`. The id of the adapter is cast to an
unsigned number before the shift. -/
def getTransactionId (adapterId sessionId : Int32) : Int64 :=
  (adapterId.toInt64.toUInt64 <<< 32).toInt64 + sessionId.toInt64

/-- `SaServerAdapter::GetSessionId`. -/
def getSessionId (transactionId : Int64) : Int32 :=
  (transactionId.toUInt64 &&& 0x00000000FFFFFFFF).toUInt32.toInt32

/-- `SaServerAdapter::ConvertToRequest`, when the request can be
allocated. -/
def convertToRequest (adapterId : Int32) (clientInfo : ClientInfo)
    (algoInfo : AlgorithmInfo) (inputInfo : DataInfo) : Request where
  innerSequenceId := 0
  requestId := algoInfo.requestId
  operationId := algoInfo.operateId
  clientUid := clientInfo.clientUid
  transactionId := getTransactionId adapterId clientInfo.sessionId
  algoPluginType := algoInfo.algorithmType
  msg := inputInfo

theorem setWidth_signExtend (x : BitVec 32) :
    (x.signExtend 64).setWidth 32 = x := by
  ext i hi
  rw [BitVec.getElem_setWidth, BitVec.getLsbD_signExtend]
  simp only [hi, if_true, BitVec.getLsbD_eq_getElem, Bool.and_eq_right_iff_imp,
    decide_eq_true_eq]
  omega

theorem setWidth_shift_signExtend (x : BitVec 32) :
    (x.signExtend 64 <<< 32 >>> 32).setWidth 32 = x := by
  ext i hi
  have hlow : i < 64 := by omega
  have hhigh : 32 + i < 64 := by omega
  rw [BitVec.getElem_setWidth, BitVec.getLsbD_ushiftRight,
    BitVec.getLsbD_shiftLeft, BitVec.getLsbD_signExtend]
  simp [hi, hlow, hhigh]

/-- The session id is read back out of the transaction id. -/
theorem getSessionId_getTransactionId (adapterId sessionId : Int32) :
    getSessionId (getTransactionId adapterId sessionId) = sessionId := by
  have hmask : 4294967295#32 = BitVec.allOnes 32 := rfl
  unfold getSessionId getTransactionId
  apply Int32.toBitVec_inj.mp
  simp [setWidth_signExtend]
  rw [hmask, BitVec.and_allOnes]

/-- A transaction id belongs to one session of one client. -/
theorem getTransactionId_inj {a b s t : Int32}
    (h : getTransactionId a s = getTransactionId b t) : a = b ∧ s = t := by
  have hs : s = t := by
    rw [← getSessionId_getTransactionId a s, h, getSessionId_getTransactionId]
  refine ⟨?_, hs⟩
  subst hs
  have hshift := congrArg Int64.toBitVec h
  simp only [getTransactionId, Int64.toBitVec_add, BitVec.add_left_inj] at hshift
  apply Int32.toBitVec_inj.mp
  have hhigh := congrArg (fun x : BitVec 64 => (x >>> 32).setWidth 32) hshift
  simpa [setWidth_shift_signExtend] using hhigh

/-! ## In exact arithmetic

The id of the adapter is shifted as an unsigned number of 64 bits, where
nothing of it is lost, so that the two ids end up in the two halves of the
result. -/

theorem toNat_adapterId {a : Int32} (ha : 1 ≤ a.toInt) :
    a.toInt64.toUInt64.toNat = a.toInt.toNat := by
  rw [Int64.toNat_toUInt64_of_le, Int64.toNatClampNeg, Int32.toInt_toInt64]
  rw [Int64.le_iff_toInt_le, Int32.toInt_toInt64]
  exact Int.le_of_lt ha

/-- The shift of a transaction id loses nothing. -/
theorem toNat_shifted {a : Int32} (ha : 1 ≤ a.toInt) :
    (a.toInt64.toUInt64 <<< 32).toNat = a.toInt.toNat * 2 ^ 32 := by
  have hmax := a.toInt_lt
  rw [UInt64.toNat_shiftLeft, toNat_adapterId ha, Nat.shiftLeft_eq]
  exact Nat.mod_eq_of_lt (by
    show a.toInt.toNat * 2 ^ 32 < 2 ^ 64
    omega)

theorem toInt_shifted {a : Int32} (ha : 1 ≤ a.toInt) :
    (a.toInt64.toUInt64 <<< 32).toInt64.toInt = a.toInt * 2 ^ 32 := by
  have hmax := a.toInt_lt
  have hnat := toNat_shifted ha
  rw [← Int64.toInt_toBitVec, BitVec.toInt_eq_toNat_of_lt]
  · show ((a.toInt64.toUInt64 <<< 32).toNat : Int) = _
    omega
  · show 2 * (a.toInt64.toUInt64 <<< 32).toNat < 2 ^ 64
    omega

/-- Neither the shift, nor the cast back, nor the addition of the session
changes the number. -/
theorem toInt_getTransactionId {a : Int32} (ha : 1 ≤ a.toInt) (s : Int32) :
    (getTransactionId a s).toInt = a.toInt * 2 ^ 32 + s.toInt := by
  have hmax := a.toInt_lt
  have hs := s.toInt_lt
  have hs' := s.le_toInt
  rw [getTransactionId, Int64.toInt_add, toInt_shifted ha,
    Int32.toInt_toInt64, Int.bmod_eq_of_le_mul_two] <;> omega

/-- For the id of an adapter, which is positive, no step of the computation
leaves the range, and the result tells both the adapter and the session. -/
theorem transactionId_identifies {a : Int32} (ha : 1 ≤ a.toInt) (s : Int32) :
    (a.toInt64.toUInt64 <<< 32).toNat = a.toInt.toNat * 2 ^ 32 ∧
      (a.toInt64.toUInt64 <<< 32).toInt64.toInt = a.toInt * 2 ^ 32 ∧
      (getTransactionId a s).toInt = a.toInt * 2 ^ 32 + s.toInt ∧
      (∀ b t, getTransactionId a s = getTransactionId b t → a = b ∧ s = t) ∧
      getSessionId (getTransactionId a s) = s :=
  ⟨toNat_shifted ha, toInt_shifted ha, toInt_getTransactionId ha s,
    fun _ _ h => getTransactionId_inj h, getSessionId_getTransactionId a s⟩

/-- The first adapter and a session of a negative id. -/
theorem transactionId_identifies_negative :
    ((1 : Int32).toInt64.toUInt64 <<< 32).toNat =
        (1 : Int32).toInt.toNat * 2 ^ 32 ∧
      ((1 : Int32).toInt64.toUInt64 <<< 32).toInt64.toInt =
        (1 : Int32).toInt * 2 ^ 32 ∧
      (getTransactionId 1 (-1)).toInt =
        (1 : Int32).toInt * 2 ^ 32 + (-1 : Int32).toInt ∧
      (∀ b t, getTransactionId 1 (-1) = getTransactionId b t →
        1 = b ∧ -1 = t) ∧
      getSessionId (getTransactionId 1 (-1)) = -1 :=
  transactionId_identifies (by decide) (-1)

end AiEngine.Ref
