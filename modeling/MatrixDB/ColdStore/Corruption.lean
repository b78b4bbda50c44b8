import MatrixDB.ColdStore.TornLog
import MatrixDB.Lib.BitwiseCrc

/-!
# A corrupt record

`matrix_crc32` is a checksum of 32 bits over the bits of the payload, the lowest
of each byte first.  Whatever burst of at most 32 bits changes a payload, the
checksum in front of it no longer fits, and `replay` stops there.
-/

namespace MatrixDB

open Lib

/-! ## The checksum -/

def crcPolynomial : BitVec 32 := 0xEDB88320#32

/-- The bits of a byte in the order the checksum takes them. -/
def byteBits (byte : UInt8) : List Bool :=
  (List.range 8).map byte.toBitVec.getLsbD

def messageBits (data : Bytes) : List Bool := data.flatMap byteBits

theorem length_byteBits (byte : UInt8) : (byteBits byte).length = 8 := by
  rw [byteBits, List.length_map, List.length_range]

theorem length_messageBits (data : Bytes) :
    (messageBits data).length = 8 * data.length := by
  induction data with
  | nil => rfl
  | cons byte data induction =>
      unfold messageBits at induction ⊢
      rw [List.flatMap_cons, List.length_append, length_byteBits, induction,
        List.length_cons]
      omega

theorem byteBits_inj {left right : UInt8}
    (same : byteBits left = byteBits right) : left = right := by
  apply UInt8.toBitVec_inj.mp
  apply BitVec.eq_of_getLsbD_eq
  intro i small
  exact List.map_inj_left.mp same i (List.mem_range.mpr small)

/-- A payload is known by its bits. -/
theorem messageBits_inj {left right : Bytes}
    (same : messageBits left = messageBits right) : left = right := by
  induction left generalizing right with
  | nil =>
      have sizes := congrArg List.length same
      rw [length_messageBits, length_messageBits, List.length_nil] at sizes
      exact (List.length_eq_zero_iff.mp (by omega)).symm
  | cons byte left induction =>
      cases right with
      | nil =>
          have sizes := congrArg List.length same
          rw [length_messageBits, length_messageBits, List.length_cons,
            List.length_nil] at sizes
          omega
      | cons other right =>
          have bytes : (byteBits byte).length = (byteBits other).length := by
            rw [length_byteBits, length_byteBits]
          obtain ⟨first, rest⟩ := List.append_inj same bytes
          rw [byteBits_inj first, induction rest]

theorem crcBit_toBitVec (crc : UInt32) :
    (crcBit crc).toBitVec = crcShift crcPolynomial crc.toBitVec := by
  have low : crc &&& 1 = 1 ↔ crc.toBitVec.getLsbD 0 = true := by
    rw [← UInt32.toBitVec_inj, UInt32.toBitVec_and]
    change crc.toBitVec &&& 1#32 = 1#32 ↔ _
    rw [BitVec.and_one_eq_setWidth_ofBool_getLsbD]
    cases crc.toBitVec.getLsbD 0 <;> decide
  unfold crcBit crcShift
  by_cases set : crc.toBitVec.getLsbD 0 = true
  · rw [if_pos (low.mpr set), if_pos set]
    rfl
  · rw [if_neg (mt low.mp set), if_neg set]
    rfl

theorem crcBits_toBitVec (rounds : Nat) (crc : UInt32) :
    (crcBits rounds crc).toBitVec =
      crcShifts crcPolynomial rounds crc.toBitVec := by
  induction rounds generalizing crc with
  | zero => rfl
  | succ rounds induction =>
      rw [crcBits, induction, crcBit_toBitVec]
      rfl

theorem crcByte_toBitVec (crc : UInt32) (byte : UInt8) :
    (crcByte crc byte).toBitVec =
      crcRun crcPolynomial crc.toBitVec (byteBits byte) := by
  have word : byte.toUInt32.toBitVec = byte.toBitVec.setWidth 32 := rfl
  have short : ∀ i, 8 ≤ i → byte.toUInt32.toBitVec.getLsbD i = false := by
    intro i large
    rw [word, BitVec.getLsbD_setWidth, BitVec.getLsbD_of_ge _ _ large,
      Bool.and_false]
  have bits : wordBits 8 byte.toUInt32.toBitVec = byteBits byte := by
    apply List.map_congr_left
    intro i member
    have small : i < 32 := by
      have inside := List.mem_range.mp member
      omega
    rw [word, BitVec.getLsbD_setWidth]
    simp [small]
  rw [crcByte, crcBits_toBitVec, UInt32.toBitVec_xor, crcShifts_word _ short,
    bits]

theorem matrixCrc32_toBitVec (data : Bytes) :
    (matrixCrc32 data).toBitVec =
      crcRun crcPolynomial 0xFFFFFFFF#32 (messageBits data) ^^^
        0xFFFFFFFF#32 := by
  have folded : ∀ crc : UInt32, (data.foldl crcByte crc).toBitVec =
      crcRun crcPolynomial crc.toBitVec (messageBits data) := by
    induction data with
    | nil =>
        intro crc
        rfl
    | cons byte data induction =>
        intro crc
        unfold messageBits at induction ⊢
        rw [List.foldl_cons, induction, crcByte_toBitVec, List.flatMap_cons,
          crcRun, crcRun, crcRun, List.foldl_append]
  rw [matrixCrc32, UInt32.toBitVec_xor, folded]
  rfl

/-- A burst of at most 32 bits changes the checksum. -/
theorem matrixCrc32_ne {before after : Bytes}
    (burst : Burst 32 (messageBits before) (messageBits after))
    (changed : after ≠ before) : matrixCrc32 after ≠ matrixCrc32 before := by
  intro same
  have top : crcPolynomial.msb = true := by decide
  have bits : messageBits before ≠ messageBits after :=
    fun equal => changed (messageBits_inj equal).symm
  have registers := congrArg UInt32.toBitVec same
  rw [matrixCrc32_toBitVec, matrixCrc32_toBitVec,
    BitVec.xor_left_inj] at registers
  exact crcRun_ne_of_burst top burst bits _ registers.symm

/-! ## Replay -/

/-- A record's place in a file, with other bytes for its checksum and its
payload. -/
def replaced (earlier : List WalRecord) (record : WalRecord)
    (crc payload : Bytes) (later : List WalRecord) : Bytes :=
  appendCalls [] earlier ++ (record.lengthField ++ crc ++ payload) ++
    encodeAll later

/-- With its own bytes in place this is the log. -/
theorem replaced_self (earlier : List WalRecord) (record : WalRecord)
    (later : List WalRecord) :
    replaced earlier record record.crcField record.payload later =
      appendCalls [] (earlier ++ record :: later) := by
  rw [replaced, appendCalls_eq, appendCalls_eq, encodeAll_append,
    encodeAll_cons, List.nil_append, List.nil_append, List.append_assoc]
  rfl

theorem toNat_lengthField (record : WalRecord) :
    (UInt32.ofNat record.payload.length).toNat = record.payload.length := by
  rcases record.length_payload with long | short
  · rw [long]
    rfl
  · rw [short]
    rfl

/-- The loop stops in front of a record whose checksum does not fit. -/
theorem replay_replaced {record : WalRecord} {crc payload : Bytes}
    (crcSize : crc.length = 4)
    (size : payload.length = record.payload.length)
    (misfit : matrixCrc32 payload ≠ u32OfBytes crc)
    (earlier later : List WalRecord) :
    replay (replaced earlier record crc payload later) =
      replay (appendCalls [] earlier) := by
  have inRange : ¬(UInt32.ofNat record.payload.length = 0 ∨
      MATRIX_WAL_MAX_RECORD < UInt32.ofNat record.payload.length) := by
    rcases record.length_payload with long | short
    · rw [long]
      decide
    · rw [short]
      decide
  have stop : readRecord ((record.lengthField ++ crc ++ payload) ++
      encodeAll later) = none := by
    rw [← u32Bytes_u32OfBytes crcSize]
    simp only [readRecord, WalRecord.lengthField, List.append_assoc,
      readU32_u32Bytes, Option.bind_eq_bind, Option.bind_some, if_neg inRange,
      toNat_lengthField, takeBytes_of_length _ size, if_neg misfit]
  have whole := scan_encodeAll_append earlier [] .start
  rw [List.append_nil] at whole
  have before : replay (appendCalls [] earlier) =
      (ReplayState.start.steps earlier).applied := by
    rw [appendCalls_eq, List.nil_append, replay, whole,
      scan_of_stop (show readRecord [] = none from rfl)]
  rw [before, replaced, appendCalls_eq, List.nil_append, List.append_assoc,
    replay, scan_encodeAll_append, scan_of_stop stop]

/-- A burst of at most 32 bits in a payload, and any change of a stored checksum,
cut the replay off in front of the record. -/
theorem corruption_detected (earlier : List WalRecord) (record : WalRecord)
    (later : List WalRecord) :
    replaced earlier record record.crcField record.payload later =
        appendCalls [] (earlier ++ record :: later) ∧
      (∀ payload, Burst 32 (messageBits record.payload) (messageBits payload) →
        payload ≠ record.payload →
        replay (replaced earlier record record.crcField payload later) =
          replay (appendCalls [] earlier)) ∧
      ∀ crc : Bytes, crc.length = 4 → crc ≠ record.crcField →
        replay (replaced earlier record crc record.payload later) =
          replay (appendCalls [] earlier) := by
  refine ⟨replaced_self earlier record later, ?_, ?_⟩
  · intro payload burst changed
    have sizes := burst.size
    rw [length_messageBits, length_messageBits] at sizes
    have stored : u32OfBytes record.crcField = matrixCrc32 record.payload :=
      u32OfBytes_u32Bytes _
    apply replay_replaced record.length_crcField (by omega)
    rw [stored]
    exact matrixCrc32_ne burst changed
  · intro crc size changed
    apply replay_replaced size rfl
    intro fits
    apply changed
    rw [WalRecord.crcField, fits]
    exact (u32Bytes_u32OfBytes size).symm

/-- The lowest bit of a put's key is flipped. -/
theorem corruption_detected_one_bit :
    replay (replaced [.put 1 10] (.put 2 20)
        (WalRecord.put 2 20).crcField
        (u64Bytes 3 ++ u64Bytes 20 ++ u32Bytes OP_WRITE) [.put 4 40]) =
      replay (appendCalls [] [.put 1 10]) := by
  apply (corruption_detected [.put 1 10] (.put 2 20) [.put 4 40]).2.1
  · refine ⟨by rw [length_messageBits, length_messageBits]; rfl, 0, ?_⟩
    intro i far
    have large : 32 ≤ i := by omega
    clear far
    by_cases small : i < 160
    · revert i
      decide +kernel
    · rw [List.getElem?_eq_none, List.getElem?_eq_none] <;>
        rw [length_messageBits] <;> exact Nat.not_lt.mp small
  · decide

end MatrixDB
