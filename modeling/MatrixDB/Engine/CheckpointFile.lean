import MatrixDB.Engine.PointOps

/-!
# The checkpoint file

`load_checkpoint` reads back what `save_checkpoint` writes, up to the order of
the slots, and aborts on every shorter file.
-/

namespace MatrixDB

open Lib

/-- The bytes of one entry. -/
def entryBytes (entry : UInt64 × UInt64) : Bytes :=
  u64Bytes entry.1 ++ u64Bytes entry.2

theorem encodeCheckpoint_eq (kv : KVStore MATRIX_STORE_SLOTS) :
    encodeCheckpoint kv =
      u32Bytes MATRIX_CKPT_MAGIC ++ u64Bytes (UInt64.ofNat kv.size) ++
        kv.forEach.flatMap entryBytes := rfl

theorem length_entries_bytes (pairs : List (UInt64 × UInt64)) :
    (pairs.flatMap entryBytes).length = 16 * pairs.length := by
  induction pairs with
  | nil => rfl
  | cons pair pairs induction =>
      simp only [List.flatMap_cons, List.length_append, induction,
        List.length_cons, entryBytes, length_u64Bytes]
      omega

theorem length_encodeCheckpoint (kv : KVStore MATRIX_STORE_SLOTS) :
    (encodeCheckpoint kv).length = 12 + 16 * kv.size := by
  rw [encodeCheckpoint_eq]
  simp only [List.length_append, length_u32Bytes, length_u64Bytes,
    length_entries_bytes, kv.length_forEach]

theorem size_toNat (kv : KVStore MATRIX_STORE_SLOTS) :
    (UInt64.ofNat kv.size).toNat = kv.size := by
  have bounded := kv.size_le
  apply UInt64.toNat_ofNat_of_lt'
  exact Nat.lt_of_le_of_lt bounded (by decide)

/-! ## The pairs of a file -/

/-- The pairs `load_checkpoint` reads, if none is short. -/
def readPairs : Nat → Bytes → Option (List (UInt64 × UInt64))
  | 0, _ => some []
  | count + 1, file => do
      let (key, file) ← readU64 file
      let (value, file) ← readU64 file
      let pairs ← readPairs count file
      some ((key, value) :: pairs)

/-- The pairs of a checkpoint; a missing file has none. -/
def checkpointPairs : Option Bytes → Option (List (UInt64 × UInt64))
  | none => some []
  | some file => do
      let (magic, file) ← readU32 file
      if magic = MATRIX_CKPT_MAGIC then
        let (count, file) ← readU64 file
        readPairs count.toNat file
      else none

theorem loadPairs_eq (count : Nat) (file : Bytes)
    (kv : KVStore MATRIX_STORE_SLOTS) :
    loadPairs count file kv =
      (readPairs count file).map
        ((KVStore.refusing MATRIX_STORE_SLOTS).replay kv) := by
  induction count generalizing file kv with
  | zero => rfl
  | succ count induction =>
      simp only [loadPairs, readPairs, Option.bind_eq_bind]
      cases readU64 file with
      | none => rfl
      | some key =>
          simp only [Option.bind_some]
          cases readU64 key.2 with
          | none => rfl
          | some value =>
              simp only [Option.bind_some, induction]
              cases readPairs count value.2 <;> rfl

/-- Loading a checkpoint puts its pairs one after another. -/
theorem loadCheckpoint_eq (kv : KVStore MATRIX_STORE_SLOTS)
    (file : Option Bytes) :
    loadCheckpoint kv file =
      (checkpointPairs file).map
        ((KVStore.refusing MATRIX_STORE_SLOTS).replay kv) := by
  cases file with
  | none => rfl
  | some file =>
      simp only [loadCheckpoint, checkpointPairs, Option.bind_eq_bind]
      cases readU32 file with
      | none => rfl
      | some magic =>
          simp only [Option.bind_some]
          split
          · cases readU64 magic.2 with
            | none => rfl
            | some count => exact loadPairs_eq _ _ kv
          · rfl

theorem readPairs_entries (pairs : List (UInt64 × UInt64)) (rest : Bytes) :
    readPairs pairs.length (pairs.flatMap entryBytes ++ rest) = some pairs := by
  induction pairs with
  | nil => rfl
  | cons pair pairs induction =>
      simp only [List.length_cons, readPairs, List.flatMap_cons, entryBytes,
        List.append_assoc, readU64_u64Bytes, Option.bind_eq_bind,
        Option.bind_some]
      rw [induction]
      rfl

/-- A checkpoint holds the pairs of its store. -/
theorem checkpointPairs_encode (kv : KVStore MATRIX_STORE_SLOTS) :
    checkpointPairs (some (encodeCheckpoint kv)) = some kv.forEach := by
  simp only [checkpointPairs, encodeCheckpoint_eq, List.append_assoc,
    readU32_u32Bytes, readU64_u64Bytes, Option.bind_eq_bind,
    Option.bind_some, if_true, size_toNat]
  have pairs := readPairs_entries kv.forEach []
  rw [kv.length_forEach, List.append_nil] at pairs
  exact pairs

/-! ## What the loader accepts -/

theorem loadPairs_short {count : Nat} {file : Bytes}
    (short : file.length < 16 * count) (kv : KVStore MATRIX_STORE_SLOTS) :
    loadPairs count file kv = none := by
  induction count generalizing file kv with
  | zero => omega
  | succ count induction =>
      simp only [loadPairs, Option.bind_eq_bind, readU64]
      cases first : takeBytes 8 file with
      | none => rfl
      | some split =>
          obtain ⟨rfl, firstSize⟩ := takeBytes_eq_some first
          cases second : takeBytes 8 split.2 with
          | none => simp [second]
          | some split' =>
              obtain ⟨rest, secondSize⟩ := takeBytes_eq_some second
              have remaining : split'.2.length < 16 * count := by
                rw [rest] at short
                simp only [List.length_append] at short
                omega
              simp only [second, Option.map_some, Option.bind_some]
              exact induction remaining _

/-- Replaying the entries of a store into an empty one rebuilds it. -/
theorem KVStore.replay_forEach (kv : KVStore MATRIX_STORE_SLOTS) :
    (KVStore.refusing MATRIX_STORE_SLOTS).SameMap
      ((KVStore.refusing MATRIX_STORE_SLOTS).replay KVStore.fresh kv.forEach)
      kv := by
  intro key
  apply Option.ext
  intro value
  have room : KVStore.fresh.size + kv.forEach.length ≤ MATRIX_STORE_SLOTS := by
    rw [kv.length_forEach, show KVStore.fresh.size = 0 from rfl, Nat.zero_add]
    exact kv.size_le
  have rebuilt := KVStore.get_replay_of_room kv.nodup_forEach_keys
    (fun pair _ => KVStore.get_fresh pair.1) room key value
  rw [KVStore.get_fresh, kv.mem_forEach_iff] at rebuilt
  simpa using rebuilt

theorem loadCheckpoint_encode (kv : KVStore MATRIX_STORE_SLOTS) :
    loadCheckpoint KVStore.fresh (some (encodeCheckpoint kv)) =
      some ((KVStore.refusing MATRIX_STORE_SLOTS).replay KVStore.fresh
        kv.forEach) := by
  rw [loadCheckpoint_eq, checkpointPairs_encode, Option.map_some]

/-- Every strict prefix of a checkpoint is rejected. -/
theorem loadCheckpoint_cut (kv : KVStore MATRIX_STORE_SLOTS) {count : Nat}
    (short : count < (encodeCheckpoint kv).length) :
    loadCheckpoint KVStore.fresh (some ((encodeCheckpoint kv).take count)) =
      none := by
  have size := length_encodeCheckpoint kv
  by_cases noMagic : count < 4
  · have tooShort : ((encodeCheckpoint kv).take count).length < 4 := by
      rw [List.length_take]
      omega
    simp [loadCheckpoint, readU32_short tooShort]
  -- The magic number is whole, so the file is it and a cut of the rest.
  rw [encodeCheckpoint_eq, List.append_assoc,
    List.take_append, List.take_of_length_le (by simp; omega),
    length_u32Bytes]
  by_cases noCount : count < 12
  · have tooShort : ((u64Bytes (UInt64.ofNat kv.size) ++
        kv.forEach.flatMap entryBytes).take (count - 4)).length < 8 := by
      rw [List.length_take]
      omega
    simp [loadCheckpoint, readU64_short tooShort]
  · rw [List.take_append, List.take_of_length_le (by simp; omega), length_u64Bytes]
    have tooShort : ((kv.forEach.flatMap entryBytes).take
        (count - 4 - 8)).length < 16 * kv.size := by
      rw [List.length_take]
      omega
    simp only [loadCheckpoint, readU32_u32Bytes, readU64_u64Bytes,
      Option.bind_eq_bind, Option.bind_some, if_true, size_toNat]
    exact loadPairs_short tooShort _

end MatrixDB
