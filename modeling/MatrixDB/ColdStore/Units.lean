import MatrixDB.ColdStore.Replay

/-!
# What a replay applies, unit by unit

`replay` hands its pairs to `apply` one auto-commit write at a time, or one
whole group when a marker is met.  Seen this way a replay also tells how many
bytes it must have read, which bounds what a shortened log can apply.
-/

namespace MatrixDB

open Lib

/-- The records the loop of `replay` gets to and knows. -/
def decodeLoop : Nat → Bytes → List WalRecord
  | 0, _ => []
  | fuel + 1, file =>
      match readRecord file with
      | some (payload, rest) =>
          (decodePayload payload).toList ++ decodeLoop fuel rest
      | none => []

def decodedRecords (file : Bytes) : List WalRecord :=
  decodeLoop file.length file

theorem scanLoop_eq_steps (fuel : Nat) (file : Bytes) (state : ReplayState) :
    (scanLoop fuel file state).1 = state.steps (decodeLoop fuel file) := by
  induction fuel generalizing file state with
  | zero => rfl
  | succ fuel induction =>
      simp only [scanLoop, decodeLoop]
      cases read : readRecord file with
      | none => rfl
      | some result =>
          simp only
          rw [induction, ReplayState.stepPayload]
          cases decodePayload result.1 <;> rfl

theorem scan_eq_steps (file : Bytes) (state : ReplayState) :
    (scan file state).1 = state.steps (decodedRecords file) :=
  scanLoop_eq_steps file.length file state

theorem decodeLoop_eq_of_le {fuel more : Nat} {file : Bytes}
    (enough : file.length ≤ fuel) (larger : fuel ≤ more) :
    decodeLoop more file = decodeLoop fuel file := by
  induction fuel generalizing more file with
  | zero =>
      have empty : file = [] := List.length_eq_zero_iff.mp (by omega)
      subst empty
      cases more <;> rfl
  | succ fuel induction =>
      cases more with
      | zero => omega
      | succ more =>
          simp only [decodeLoop]
          cases read : readRecord file with
          | none => rfl
          | some result =>
              have shorter := readRecord_length_lt read
              have same : decodeLoop more result.2 = decodeLoop fuel result.2 :=
                induction (by omega) (by omega)
              simp only [same]

theorem decodedRecords_of_read {file payload rest : Bytes}
    (read : readRecord file = some (payload, rest)) :
    decodedRecords file =
      (decodePayload payload).toList ++ decodedRecords rest := by
  have shorter := readRecord_length_lt read
  unfold decodedRecords
  cases size : file.length with
  | zero => omega
  | succ fuel =>
      simp only [decodeLoop, read]
      rw [decodeLoop_eq_of_le (Nat.le_refl rest.length) (by omega)]

theorem decodedRecords_of_stop {file : Bytes}
    (stop : readRecord file = none) : decodedRecords file = [] := by
  unfold decodedRecords
  cases file.length with
  | zero => rfl
  | succ fuel => simp [decodeLoop, stop]

theorem readRecord_append {file payload rest : Bytes}
    (read : readRecord file = some (payload, rest)) (later : Bytes) :
    readRecord (file ++ later) = some (payload, rest ++ later) := by
  simp only [readRecord, Option.bind_eq_bind, Option.bind_eq_some_iff,
    Prod.exists] at read
  obtain ⟨length, afterLength, lengthRead, read⟩ := read
  split at read
  · cases read
  · rename_i inRange
    simp only [Option.bind_eq_some_iff, Prod.exists] at read
    obtain ⟨crc, afterCrc, crcRead, payload', afterPayload, taken, read⟩ :=
      read
    split at read
    · rename_i intact
      cases read
      simp only [readRecord, readU32_more lengthRead later, if_neg inRange,
        readU32_more crcRead later, takeBytes_more taken later,
        Option.bind_eq_bind, Option.bind_some, if_pos intact]
    · cases read

/-- Where the loop stops does not depend on what it has gathered. -/
theorem scanLoop_tail_eq (fuel : Nat) (file : Bytes)
    (state other : ReplayState) :
    (scanLoop fuel file state).2 = (scanLoop fuel file other).2 := by
  induction fuel generalizing file state other with
  | zero => rfl
  | succ fuel induction =>
      simp only [scanLoop]
      cases readRecord file with
      | none => rfl
      | some result => exact induction result.2 _ _

theorem tornTail_of_read {file payload rest : Bytes}
    (read : readRecord file = some (payload, rest)) :
    tornTail file = tornTail rest := by
  rw [tornTail, scan_of_read read]
  exact scanLoop_tail_eq rest.length rest _ _

/-- Bytes behind a log without a torn tail are read from a fresh start. -/
theorem decodedRecords_append {file : Bytes} (clean : tornTail file = [])
    (later : Bytes) :
    decodedRecords (file ++ later) =
      decodedRecords file ++ decodedRecords later := by
  induction size : file.length using Nat.strongRecOn generalizing file with
  | ind count induction =>
      cases read : readRecord file with
      | none =>
          have empty : file = [] := by
            rw [tornTail, scan_of_stop read] at clean
            exact clean
          simp [empty, decodedRecords, decodeLoop]
      | some result =>
          obtain ⟨payload, rest⟩ := result
          have shorter := readRecord_length_lt read
          rw [tornTail_of_read read] at clean
          rw [decodedRecords_of_read read,
            decodedRecords_of_read (readRecord_append read later),
            induction rest.length (by omega) clean rfl, List.append_assoc]

/-- The bytes a list of records takes. -/
def recordBytes (records : List WalRecord) : Nat :=
  (encodeAll records).length

theorem recordBytes_append (earlier later : List WalRecord) :
    recordBytes (earlier ++ later) =
      recordBytes earlier + recordBytes later := by
  simp [recordBytes, encodeAll_append]

theorem length_of_decodePayload {payload : Bytes} {record : WalRecord}
    (decoded : decodePayload payload = some record) :
    record.encode.length = 8 + payload.length := by
  unfold decodePayload at decoded
  split at decoded
  · rename_i size
    simp only at decoded
    split at decoded
    · cases decoded
      simp [WalRecord.encode, WalRecord.payload, size,
        MATRIX_WAL_PAYLOAD_BYTES]
    · split at decoded
      · cases decoded
        simp [WalRecord.encode, WalRecord.payload, size,
          MATRIX_WAL_PAYLOAD_BYTES]
      · cases decoded
  · split at decoded
    · rename_i size
      split at decoded
      · cases decoded
        simp [WalRecord.encode, WalRecord.payload, size,
          MATRIX_WAL_COMMIT_BYTES]
      · cases decoded
    · cases decoded

/-- Every record read takes its bytes from the file. -/
theorem recordBytes_decoded_le (file : Bytes) :
    recordBytes (decodedRecords file) ≤ file.length := by
  induction size : file.length using Nat.strongRecOn generalizing file with
  | ind count induction =>
      cases read : readRecord file with
      | none =>
          rw [decodedRecords_of_stop read]
          exact Nat.zero_le _
      | some result =>
          obtain ⟨payload, rest⟩ := result
          have shorter := readRecord_length_lt read
          have later := induction rest.length (by omega) rest rfl
          have first : recordBytes (decodePayload payload).toList ≤
              8 + payload.length := by
            cases decoded : decodePayload payload with
            | none => exact Nat.zero_le _
            | some record =>
                have length := length_of_decodePayload decoded
                simpa [recordBytes] using Nat.le_of_eq length
          rw [decodedRecords_of_read read, recordBytes_append]
          omega

theorem decodedRecords_encodeAll (records : List WalRecord) :
    decodedRecords (encodeAll records) = records := by
  induction records with
  | nil => rfl
  | cons record records induction =>
      rw [encodeAll_cons,
        decodedRecords_of_read (record.readRecord_encode _),
        record.decodePayload_payload, induction]
      rfl

/-! ## Units -/

/-- What one record makes `replay` hand to `apply`. -/
inductive AppliedUnit where
  | autoCommit (key value : UInt64)
  | group (writes : List (UInt64 × UInt64))
  deriving DecidableEq, Repr

def AppliedUnit.writes : AppliedUnit → List (UInt64 × UInt64)
  | .autoCommit key value => [(key, value)]
  | .group writes => writes

/-- The units of a list of records, with `txn` already buffered. -/
def unitsFrom : List (UInt64 × UInt64) → List WalRecord → List AppliedUnit
  | _, [] => []
  | txn, .put key value :: later =>
      .autoCommit key value :: unitsFrom txn later
  | txn, .txnPut key value :: later => unitsFrom (txn ++ [(key, value)]) later
  | txn, .commit :: later => .group txn :: unitsFrom [] later

def replayUnits (file : Bytes) : List AppliedUnit :=
  unitsFrom [] (decodedRecords file)

theorem steps_applied (state : ReplayState) (records : List WalRecord) :
    (state.steps records).applied =
      state.applied ++
        (unitsFrom state.txn records).flatMap AppliedUnit.writes := by
  induction records generalizing state with
  | nil => simp [ReplayState.steps, unitsFrom]
  | cons record records induction =>
      rw [ReplayState.steps, List.foldl_cons]
      rw [show records.foldl ReplayState.step (state.step record) =
        (state.step record).steps records from rfl, induction]
      cases record <;>
        simp [ReplayState.step, unitsFrom, AppliedUnit.writes]

/-- `replay` applies its units one after another. -/
theorem replay_eq_units (file : Bytes) :
    replay file = (replayUnits file).flatMap AppliedUnit.writes := by
  rw [replay, scan_eq_steps, steps_applied]
  rfl

theorem unitsFrom_append (state : ReplayState)
    (earlier later : List WalRecord) :
    unitsFrom state.txn (earlier ++ later) =
      unitsFrom state.txn earlier ++
        unitsFrom (state.steps earlier).txn later := by
  induction earlier generalizing state with
  | nil => rfl
  | cons record earlier induction =>
      have rest := induction (state.step record)
      cases record with
      | put key value =>
          simp only [List.cons_append, unitsFrom, List.cons.injEq, true_and]
          exact rest
      | txnPut key value =>
          simp only [List.cons_append, unitsFrom]
          exact rest
      | commit =>
          simp only [List.cons_append, unitsFrom, List.cons.injEq, true_and]
          exact rest

/-- What bytes appended to a log without a torn tail add to its replay. -/
theorem replayUnits_append {file : Bytes} (clean : tornTail file = [])
    (later : Bytes) :
    replayUnits (file ++ later) =
      replayUnits file ++
        unitsFrom (leftoverTxn file) (decodedRecords later) := by
  rw [replayUnits, decodedRecords_append clean, replayUnits, leftoverTxn,
    scan_eq_steps]
  exact unitsFrom_append .start _ _

/-- A group of one marker needs its puts and the marker to be read. -/
theorem bytes_of_group {txn total : List (UInt64 × UInt64)}
    {records : List WalRecord}
    (applied : unitsFrom txn records = [.group total]) :
    28 * (total.length - txn.length) + 12 ≤ recordBytes records := by
  induction records generalizing txn with
  | nil => cases applied
  | cons record records induction =>
      rw [← List.singleton_append, recordBytes_append]
      cases record with
      | put key value => simp [unitsFrom] at applied
      | txnPut key value =>
          have rest := induction applied
          have size : recordBytes [WalRecord.txnPut key value] = 28 := by
            simp [recordBytes, WalRecord.encode, WalRecord.payload]
          rw [List.length_append, List.length_singleton] at rest
          omega
      | commit =>
          have size : recordBytes [WalRecord.commit] = 12 := by
            simp [recordBytes, WalRecord.encode, WalRecord.payload]
          simp only [unitsFrom, List.cons.injEq,
            AppliedUnit.group.injEq] at applied
          rw [applied.1, size]
          omega

theorem bytes_of_autoCommit {txn : List (UInt64 × UInt64)}
    {key value : UInt64} {records : List WalRecord}
    (applied : unitsFrom txn records = [.autoCommit key value]) :
    28 ≤ recordBytes records := by
  induction records generalizing txn with
  | nil => cases applied
  | cons record records induction =>
      rw [← List.singleton_append, recordBytes_append]
      cases record with
      | put key value =>
          have size : recordBytes [WalRecord.put key value] = 28 := by
            simp [recordBytes, WalRecord.encode, WalRecord.payload]
          omega
      | txnPut key value =>
          have rest := induction applied
          omega
      | commit => simp [unitsFrom] at applied

end MatrixDB
