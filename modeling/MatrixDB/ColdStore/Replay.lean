import MatrixDB.Lib.Bytes

/-!
# The write-ahead log (`cold_store.hpp`)

A record is `[u32 length][u32 crc32(payload)][payload]`.  The log writes three
kinds of payload, and `replay` reads records front to back until the first
short, oversized or corrupt one, applying auto-commit puts at once and
transactional puts when their commit marker is met.
-/

namespace MatrixDB

open Lib

/-- Opcodes of `types.hpp` that a log payload carries. -/
def OP_WRITE : UInt32 := 2
def OP_TXN_WRITE : UInt32 := 4

def MATRIX_WAL_PAYLOAD_BYTES : Nat := 20
def MATRIX_WAL_MAX_RECORD : UInt32 := 4096
def MATRIX_WAL_COMMIT_BYTES : Nat := 4
def MATRIX_WAL_COMMIT : UInt32 := 0x434F4D4D

/-- One round of the inner checksum loop. -/
def crcBit (crc : UInt32) : UInt32 :=
  if crc &&& 1 = 1 then (crc >>> 1) ^^^ 0xEDB88320 else crc >>> 1

def crcBits : Nat → UInt32 → UInt32
  | 0, crc => crc
  | rounds + 1, crc => crcBits rounds (crcBit crc)

def crcByte (crc : UInt32) (byte : UInt8) : UInt32 :=
  crcBits 8 (crc ^^^ byte.toUInt32)

def matrixCrc32 (data : Bytes) : UInt32 :=
  data.foldl crcByte 0xFFFFFFFF ^^^ 0xFFFFFFFF

/-- What the log is asked to append. -/
inductive WalRecord where
  | put (key value : UInt64)
  | txnPut (key value : UInt64)
  | commit
  deriving DecidableEq, Repr

namespace WalRecord

def payload : WalRecord → Bytes
  | .put key value => u64Bytes key ++ u64Bytes value ++ u32Bytes OP_WRITE
  | .txnPut key value =>
      u64Bytes key ++ u64Bytes value ++ u32Bytes OP_TXN_WRITE
  | .commit => u32Bytes MATRIX_WAL_COMMIT

/-- The length field that precedes a payload. -/
def lengthField (record : WalRecord) : Bytes :=
  u32Bytes (UInt32.ofNat record.payload.length)

/-- The checksum field that precedes a payload. -/
def crcField (record : WalRecord) : Bytes :=
  u32Bytes (matrixCrc32 record.payload)

/-- The bytes `append_record` and `append_commit` write for a record. -/
def encode (record : WalRecord) : Bytes :=
  record.lengthField ++ record.crcField ++ record.payload

end WalRecord

/-- One iteration of the loop of `replay` up to the checksum test: the
payload read and the rest of the file, or `none` where the loop breaks. -/
def readRecord (file : Bytes) : Option (Bytes × Bytes) := do
  let (length, file) ← readU32 file
  if length = 0 ∨ MATRIX_WAL_MAX_RECORD < length then none
  else
    let (crc, file) ← readU32 file
    let (payload, file) ← takeBytes length.toNat file
    if matrixCrc32 payload = crc then some (payload, file) else none

/-- The record a payload stands for; other payloads are skipped. -/
def decodePayload (payload : Bytes) : Option WalRecord :=
  if payload.length = MATRIX_WAL_PAYLOAD_BYTES then
    let opcode := u32OfBytes (payload.drop 16)
    let key := u64OfBytes (payload.take 8)
    let value := u64OfBytes ((payload.drop 8).take 8)
    if opcode = OP_WRITE then some (.put key value)
    else if opcode = OP_TXN_WRITE then some (.txnPut key value)
    else none
  else if payload.length = MATRIX_WAL_COMMIT_BYTES then
    if u32OfBytes payload = MATRIX_WAL_COMMIT then some .commit else none
  else none

/-- The calls of `apply` so far, and the transactional puts buffered since the
last commit marker. -/
structure ReplayState where
  applied : List (UInt64 × UInt64)
  txn : List (UInt64 × UInt64)
  deriving DecidableEq, Repr

namespace ReplayState

def start : ReplayState := { applied := [], txn := [] }

def step (state : ReplayState) : WalRecord → ReplayState
  | .put key value =>
      { state with applied := state.applied ++ [(key, value)] }
  | .txnPut key value => { state with txn := state.txn ++ [(key, value)] }
  | .commit => { applied := state.applied ++ state.txn, txn := [] }

def stepPayload (state : ReplayState) (payload : Bytes) : ReplayState :=
  match decodePayload payload with
  | some record => state.step record
  | none => state

def steps (state : ReplayState) (records : List WalRecord) : ReplayState :=
  records.foldl step state

end ReplayState

/-- The loop of `replay`: the state it ends in and the bytes it stopped in
front of (none at a clean end of file).  Every record takes at least nine
bytes, so the file length bounds the iterations. -/
def scanLoop : Nat → Bytes → ReplayState → ReplayState × Bytes
  | 0, file, state => (state, file)
  | fuel + 1, file, state =>
      match readRecord file with
      | some (payload, rest) => scanLoop fuel rest (state.stepPayload payload)
      | none => (state, file)

def scan (file : Bytes) (state : ReplayState) : ReplayState × Bytes :=
  scanLoop file.length file state

/-- `ColdStore::replay`: the pairs handed to `apply`, in order. -/
def replay (file : Bytes) : List (UInt64 × UInt64) :=
  (scan file .start).1.applied

/-- The transactional puts that `replay` still buffers at its end. -/
def leftoverTxn (file : Bytes) : List (UInt64 × UInt64) :=
  (scan file .start).1.txn

/-- The bytes that `replay` does not get past. -/
def tornTail (file : Bytes) : Bytes := (scan file .start).2

/-! ## One record -/

theorem readRecord_eq_some {file payload rest : Bytes}
    (read : readRecord file = some (payload, rest)) :
    ∃ lengthBytes crcBytes,
      file = lengthBytes ++ crcBytes ++ payload ++ rest ∧
        lengthBytes.length = 4 ∧ crcBytes.length = 4 ∧
        (u32OfBytes lengthBytes).toNat = payload.length ∧
        0 < payload.length ∧
        u32OfBytes crcBytes = matrixCrc32 payload := by
  simp only [readRecord, readU32, Option.bind_eq_bind,
    Option.bind_eq_some_iff, Option.map_eq_some_iff, Prod.exists] at read
  obtain ⟨length, afterLength, ⟨lengthBytes, lengthRest, lengthTaken,
    lengthEq⟩, read⟩ := read
  simp only [Prod.mk.injEq] at lengthEq
  obtain ⟨rfl, rfl⟩ := lengthEq
  split at read
  · cases read
  · rename_i inRange
    simp only [Option.bind_eq_some_iff, Option.map_eq_some_iff,
      Prod.exists] at read
    obtain ⟨crc, afterCrc, ⟨crcBytes, crcRest, crcTaken, crcEq⟩,
      payload', afterPayload, payloadTaken, read⟩ := read
    simp only [Prod.mk.injEq] at crcEq
    obtain ⟨rfl, rfl⟩ := crcEq
    split at read
    · rename_i intact
      simp only [Option.some.injEq, Prod.mk.injEq] at read
      obtain ⟨rfl, rfl⟩ := read
      obtain ⟨rfl, lengthSize⟩ := takeBytes_eq_some lengthTaken
      obtain ⟨rfl, crcSize⟩ := takeBytes_eq_some crcTaken
      obtain ⟨rfl, payloadSize⟩ := takeBytes_eq_some payloadTaken
      refine ⟨lengthBytes, crcBytes, by simp, lengthSize, crcSize,
        payloadSize.symm, ?_, intact.symm⟩
      rw [payloadSize]
      apply Nat.pos_of_ne_zero
      intro zero
      exact inRange (Or.inl (UInt32.toNat_inj.mp zero))
    · cases read

theorem readRecord_length_lt {file payload rest : Bytes}
    (read : readRecord file = some (payload, rest)) :
    rest.length + 8 + payload.length = file.length ∧ 0 < payload.length := by
  obtain ⟨lengthBytes, crcBytes, rfl, lengthSize, crcSize, _, positive, _⟩ :=
    readRecord_eq_some read
  simp only [List.length_append]
  omega

namespace WalRecord

theorem length_payload (record : WalRecord) :
    record.payload.length = 20 ∨ record.payload.length = 4 := by
  cases record <;> simp [payload]

@[simp] theorem length_lengthField (record : WalRecord) :
    record.lengthField.length = 4 := by
  simp [lengthField]

@[simp] theorem length_crcField (record : WalRecord) :
    record.crcField.length = 4 := by
  simp [crcField]

theorem length_encode (record : WalRecord) :
    record.encode.length = 8 + record.payload.length := by
  simp only [encode, List.length_append, length_lengthField,
    length_crcField]

/-- Reading back a record that lies wholly in the file. -/
theorem readRecord_encode (record : WalRecord) (rest : Bytes) :
    readRecord (record.encode ++ rest) = some (record.payload, rest) := by
  have size : (UInt32.ofNat record.payload.length).toNat =
      record.payload.length := by
    rcases record.length_payload with long | short
    · simp [long]
    · simp [short]
  have inRange : ¬(UInt32.ofNat record.payload.length = 0 ∨
      MATRIX_WAL_MAX_RECORD < UInt32.ofNat record.payload.length) := by
    rcases record.length_payload with long | short
    · rw [long]
      decide
    · rw [short]
      decide
  simp only [readRecord, encode, lengthField, crcField, List.append_assoc,
    readU32_u32Bytes, Option.bind_eq_bind, Option.bind_some, if_neg inRange,
    size, takeBytes_append, if_true]

/-- Where the three fields of a 20-byte payload lie. -/
private theorem putPayload_fields (key value : UInt64) (opcode : UInt32) :
    let bytes := u64Bytes key ++ u64Bytes value ++ u32Bytes opcode
    bytes.length = 20 ∧ bytes.take 8 = u64Bytes key ∧
      (bytes.drop 8).take 8 = u64Bytes value ∧
      bytes.drop 16 = u32Bytes opcode := by
  refine ⟨by simp, by simp, by simp, ?_⟩
  exact List.drop_left' (by simp)

theorem decodePayload_payload (record : WalRecord) :
    decodePayload record.payload = some record := by
  cases record with
  | put key value =>
      obtain ⟨size, keyField, valueField, opcodeField⟩ :=
        putPayload_fields key value OP_WRITE
      simp only [decodePayload, payload, size, keyField, valueField,
        opcodeField, MATRIX_WAL_PAYLOAD_BYTES, if_true,
        u32OfBytes_u32Bytes, u64OfBytes_u64Bytes]
  | txnPut key value =>
      have different : ¬OP_TXN_WRITE = OP_WRITE := by decide
      obtain ⟨size, keyField, valueField, opcodeField⟩ :=
        putPayload_fields key value OP_TXN_WRITE
      simp only [decodePayload, payload, size, keyField, valueField,
        opcodeField, MATRIX_WAL_PAYLOAD_BYTES, if_true, different, if_false,
        u32OfBytes_u32Bytes, u64OfBytes_u64Bytes]
  | commit =>
      simp [decodePayload, payload, MATRIX_WAL_PAYLOAD_BYTES,
        MATRIX_WAL_COMMIT_BYTES]

/-- A record that is cut short is not read: its length field still announces
the whole payload. -/
theorem readRecord_cut {record : WalRecord} {cut : Bytes}
    (isPrefix : cut <+: record.encode)
    (short : cut.length < record.encode.length) :
    readRecord cut = none := by
  cases read : readRecord cut with
  | none => rfl
  | some result =>
      obtain ⟨payload, rest⟩ := result
      obtain ⟨lengthBytes, crcBytes, cutEq, lengthSize, crcSize, announced,
        _, _⟩ := readRecord_eq_some read
      obtain ⟨missing, complete⟩ := isPrefix
      have sameField : lengthBytes = record.lengthField := by
        have heads := congrArg (List.take 4) complete
        rw [cutEq] at heads
        simpa [encode, lengthSize, List.take_append] using heads
      have size : (u32OfBytes lengthBytes).toNat = record.payload.length := by
        rw [sameField, lengthField, u32OfBytes_u32Bytes]
        rcases record.length_payload with long | short
        · simp [long]
        · simp [short]
      have whole : cut.length =
          rest.length + 8 + record.payload.length := by
        rw [cutEq, ← size, announced]
        simp only [List.length_append]
        omega
      rw [record.length_encode, whole] at short
      omega

end WalRecord

/-! ## The loop -/

theorem scanLoop_eq_of_le {fuel more : Nat} {file : Bytes}
    (enough : file.length ≤ fuel) (larger : fuel ≤ more)
    (state : ReplayState) :
    scanLoop more file state = scanLoop fuel file state := by
  induction fuel generalizing more file state with
  | zero =>
      have empty : file = [] := List.length_eq_zero_iff.mp (by omega)
      subst empty
      cases more <;> rfl
  | succ fuel induction =>
      cases more with
      | zero => omega
      | succ more =>
          simp only [scanLoop]
          cases read : readRecord file with
          | none => rfl
          | some result =>
              have shorter := readRecord_length_lt read
              exact induction (by omega) (by omega) _

theorem scan_of_read {file payload rest : Bytes}
    (read : readRecord file = some (payload, rest)) (state : ReplayState) :
    scan file state = scan rest (state.stepPayload payload) := by
  have shorter := readRecord_length_lt read
  unfold scan
  cases size : file.length with
  | zero => omega
  | succ fuel =>
      simp only [scanLoop, read]
      exact scanLoop_eq_of_le (Nat.le_refl _) (by omega) _

theorem scan_of_stop {file : Bytes} (stop : readRecord file = none)
    (state : ReplayState) : scan file state = (state, file) := by
  unfold scan
  cases file.length with
  | zero => rfl
  | succ fuel => simp [scanLoop, stop]

/-- The bytes of a list of records. -/
def encodeAll (records : List WalRecord) : Bytes :=
  records.flatMap WalRecord.encode

@[simp] theorem encodeAll_nil : encodeAll [] = [] := rfl

@[simp] theorem encodeAll_cons (record : WalRecord)
    (records : List WalRecord) :
    encodeAll (record :: records) = record.encode ++ encodeAll records := rfl

theorem encodeAll_append (earlier later : List WalRecord) :
    encodeAll (earlier ++ later) = encodeAll earlier ++ encodeAll later := by
  simp [encodeAll]

/-- Whole records at the front of a file are read one by one. -/
theorem scan_encodeAll_append (records : List WalRecord) (rest : Bytes)
    (state : ReplayState) :
    scan (encodeAll records ++ rest) state =
      scan rest (state.steps records) := by
  induction records generalizing state with
  | nil => rfl
  | cons record records induction =>
      rw [encodeAll_cons, List.append_assoc,
        scan_of_read (record.readRecord_encode _), induction,
        ReplayState.stepPayload, record.decodePayload_payload]
      rfl

/-- The bytes a crash may leave behind the whole records: nothing, or a strict
prefix of the record being appended. -/
def TornPrefix (bytes : Bytes) : Prop :=
  bytes = [] ∨ ∃ record : WalRecord,
    bytes <+: record.encode ∧ bytes.length < record.encode.length

theorem TornPrefix.stop {bytes : Bytes} (torn : TornPrefix bytes) :
    readRecord bytes = none := by
  rcases torn with rfl | ⟨record, isPrefix, short⟩
  · rfl
  · exact WalRecord.readRecord_cut isPrefix short

/-- A log of whole records behind which a crash left a torn prefix is read up
to the torn prefix. -/
theorem scan_torn (records : List WalRecord) {bytes : Bytes}
    (torn : TornPrefix bytes) (state : ReplayState) :
    scan (encodeAll records ++ bytes) state =
      (state.steps records, bytes) := by
  rw [scan_encodeAll_append, scan_of_stop torn.stop]

/-- A prefix of one record either is the record or is torn. -/
theorem tornPrefix_take (record : WalRecord) {count : Nat}
    (short : count < record.encode.length) :
    TornPrefix (record.encode.take count) := by
  right
  refine ⟨record, List.take_prefix _ _, ?_⟩
  rw [List.length_take]
  omega

end MatrixDB
