import MatrixDB.Engine.CheckpointFile

/-!
# What a path recovers to

A history is judged by its notes: which writes were issued, became durable
and were acknowledged, in which order.  `DiskImage` describes the files at any
moment, `Explained` relates the store they recover to with the notes, and
`Settled` adds, between calls, that the live store holds the same contents.
-/

namespace MatrixDB

open Lib

/-- The engine's store as a refusing store. -/
abbrev kvOps : RefusingStore (KVStore MATRIX_STORE_SLOTS) UInt64 UInt64 :=
  KVStore.refusing MATRIX_STORE_SLOTS

/-! ## Specification -/

/-- By the notes (newest first), `value` is the last acknowledged write to
`key` or a write to it issued later, and `none` where there is neither. -/
def Recoverable (key : UInt64) (value : Option UInt64) : List Note → Prop
  | [] => value = none
  | .acked writes :: older =>
      match lastWrite key writes with
      | some newest => value = some newest
      | none => Recoverable key value older
  | .issued writes :: older =>
      (∃ write ∈ writes, write.1 = key ∧ value = some write.2) ∨
        Recoverable key value older
  | .durable _ :: older => Recoverable key value older

/-- The auto-commit writes whose record lies in the log and the groups whose
own marker does, in the order in which they got there. -/
def durableWrites : List Note → List (UInt64 × UInt64)
  | [] => []
  | .durable writes :: older => durableWrites older ++ writes
  | .issued _ :: older => durableWrites older
  | .acked _ :: older => durableWrites older

/-- A store is explained by the notes: it holds exactly the durable writes,
and while it is not full every key has a recoverable value. -/
structure Explained (notes : List Note) (kv : KVStore MATRIX_STORE_SLOTS) :
    Prop where
  durable : kvOps.SameMap (kvOps.replay KVStore.fresh (durableWrites notes)) kv
  recoverable : ¬kv.Full → ∀ key, Recoverable key (kv.get key) notes

namespace Explained

variable {notes : List Note} {kv other : KVStore MATRIX_STORE_SLOTS}
  {writes : List (UInt64 × UInt64)}

theorem initial : Explained [] KVStore.fresh := by
  constructor
  · exact RefusingStore.SameMap.refl kvOps _
  · intro _ key
    exact KVStore.get_fresh key

theorem congr (explained : Explained notes kv)
    (same : kvOps.SameMap kv other) : Explained notes other := by
  constructor
  · exact explained.durable.trans kvOps same
  · intro room key
    have sameRoom : ¬kv.Full := by
      intro full
      exact room ((kvOps.full_congr same).mp full)
    have recoverable := explained.recoverable sameRoom key
    rw [show kv.get key = other.get key from same key] at recoverable
    exact recoverable

theorem issue (explained : Explained notes kv)
    (writes : List (UInt64 × UInt64)) :
    Explained (.issued writes :: notes) kv := by
  constructor
  · exact explained.durable
  · intro room key
    right
    exact explained.recoverable room key

/-- Issued writes may become durable. -/
theorem persist (explained : Explained (.issued writes :: notes) kv) :
    Explained (.durable writes :: .issued writes :: notes)
      (kvOps.replay kv writes) := by
  constructor
  · rw [durableWrites, kvOps.replay_append]
    exact kvOps.replay_sameMap explained.durable writes
  · intro room key
    have roomBefore : ¬kv.Full := by
      intro full
      exact room (kvOps.full_replay full writes)
    have before := explained.recoverable roomBefore key
    have stored := kvOps.get_replay_of_not_full room key
    simp only [KVStore.refusing_get] at stored
    rw [stored]
    cases last : lastWrite key writes with
    | none => exact before
    | some value =>
        left
        exact ⟨(key, value), mem_of_lastWrite last, rfl, rfl⟩

/-- Durable writes may be acknowledged. -/
theorem ack (explained : Explained (.issued writes :: notes) kv) :
    Explained (.acked writes :: .durable writes :: .issued writes :: notes)
      (kvOps.replay kv writes) := by
  constructor
  · exact explained.persist.durable
  · intro room key
    have stored := kvOps.get_replay_of_not_full room key
    simp only [KVStore.refusing_get] at stored
    have before := explained.persist.recoverable room key
    rw [Recoverable]
    cases last : lastWrite key writes with
    | none => exact before
    | some value => simp [stored, last]

end Explained

/-! ## The files -/

/-- The log is whole records followed by `torn`; the constructor recovers
`kv` from the files, and the log ends with the transactional puts `leftover`
that no marker follows. -/
structure DiskImage (disk : Disk) (kv : KVStore MATRIX_STORE_SLOTS)
    (leftover : List (UInt64 × UInt64)) (torn : Bytes) : Prop where
  log : ∃ records base applied,
    disk.wal = encodeAll records ++ torn ∧
      loadCheckpoint KVStore.fresh disk.ckpt = some base ∧
      ReplayState.start.steps records =
        { applied := applied, txn := leftover } ∧
      kv = kvOps.replay base applied
  torn : TornPrefix torn

namespace DiskImage

variable {disk : Disk} {kv live : KVStore MATRIX_STORE_SLOTS}
  {leftover : List (UInt64 × UInt64)} {torn : Bytes}

theorem scan_eq (image : DiskImage disk kv leftover torn) :
    ∃ base applied,
      loadCheckpoint KVStore.fresh disk.ckpt = some base ∧
        scan disk.wal .start =
          ({ applied := applied, txn := leftover }, torn) ∧
        kv = kvOps.replay base applied := by
  obtain ⟨records, base, applied, wal, loaded, steps, recovered⟩ := image.log
  refine ⟨base, applied, loaded, ?_, recovered⟩
  rw [wal, scan_torn records image.torn, steps]

theorem recoverKv_eq (image : DiskImage disk kv leftover torn) :
    recoverKv disk = some kv := by
  obtain ⟨base, applied, loaded, scanned, recovered⟩ := image.scan_eq
  simp [recoverKv, loaded, replay, scanned, recovered]

theorem leftoverTxn_eq (image : DiskImage disk kv leftover torn) :
    leftoverTxn disk.wal = leftover := by
  obtain ⟨_, _, _, scanned, _⟩ := image.scan_eq
  simp [leftoverTxn, scanned]

theorem tornTail_eq (image : DiskImage disk kv leftover torn) :
    tornTail disk.wal = torn := by
  obtain ⟨_, _, _, scanned, _⟩ := image.scan_eq
  simp [tornTail, scanned]

theorem empty : DiskImage Disk.empty KVStore.fresh [] [] :=
  { log := ⟨[], KVStore.fresh, [], rfl, rfl, rfl, rfl⟩
    torn := .inl rfl }

/-- Part of a record behind whole records. -/
theorem append_torn (image : DiskImage disk kv leftover [])
    {record : WalRecord} {extent : Nat}
    (short : extent < record.encode.length) :
    DiskImage { disk with wal := disk.wal ++ record.encode.take extent }
      kv leftover (record.encode.take extent) := by
  obtain ⟨records, base, applied, wal, loaded, steps, recovered⟩ := image.log
  constructor
  · refine ⟨records, base, applied, ?_, loaded, steps, recovered⟩
    rw [wal, List.append_nil]
  · exact tornPrefix_take record short

private theorem append_record {record : WalRecord}
    {after : KVStore MATRIX_STORE_SLOTS}
    {leftoverAfter : List (UInt64 × UInt64)}
    (image : DiskImage disk kv leftover [])
    (effect : ∀ base applied, kv = kvOps.replay base applied →
      ∃ appliedAfter,
        ReplayState.step { applied := applied, txn := leftover } record =
          { applied := appliedAfter, txn := leftoverAfter } ∧
        after = kvOps.replay base appliedAfter) :
    DiskImage { disk with wal := disk.wal ++ record.encode }
      after leftoverAfter [] := by
  obtain ⟨records, base, applied, wal, loaded, steps, recovered⟩ := image.log
  obtain ⟨appliedAfter, stepped, recoveredAfter⟩ :=
    effect base applied recovered
  constructor
  · refine ⟨records ++ [record], base, appliedAfter, ?_, loaded, ?_,
      recoveredAfter⟩
    · simp [wal, encodeAll_append]
    · rw [ReplayState.steps, List.foldl_append]
      rw [ReplayState.steps] at steps
      rw [steps]
      exact stepped
  · exact .inl rfl

theorem append_put (image : DiskImage disk kv leftover [])
    (key value : UInt64) :
    DiskImage
      { disk with wal := disk.wal ++ (WalRecord.put key value).encode }
      (kvOps.replay kv [(key, value)]) leftover [] := by
  apply image.append_record
  intro base applied recovered
  refine ⟨applied ++ [(key, value)], rfl, ?_⟩
  rw [kvOps.replay_append, recovered]

theorem append_txnPut (image : DiskImage disk kv leftover [])
    (key value : UInt64) :
    DiskImage
      { disk with wal := disk.wal ++ (WalRecord.txnPut key value).encode }
      kv (leftover ++ [(key, value)]) [] := by
  apply image.append_record
  intro base applied recovered
  exact ⟨applied, rfl, recovered⟩

theorem append_commit (image : DiskImage disk kv leftover []) :
    DiskImage { disk with wal := disk.wal ++ WalRecord.commit.encode }
      (kvOps.replay kv leftover) [] [] := by
  apply image.append_record
  intro base applied recovered
  refine ⟨applied ++ leftover, rfl, ?_⟩
  rw [kvOps.replay_append, recovered]

theorem set_tmp (image : DiskImage disk kv leftover torn)
    (tmp : Option Bytes) :
    DiskImage { disk with tmp := tmp } kv leftover torn :=
  { log := image.log, torn := image.torn }

/-- A checkpoint of the live store under the log it already contains. -/
theorem replace_checkpoint (image : DiskImage disk kv leftover torn)
    (same : kvOps.SameMap kv live) :
    ∃ kv', DiskImage
        { disk with ckpt := some (encodeCheckpoint live), tmp := none }
        kv' leftover torn ∧
      kvOps.SameMap kv' live := by
  obtain ⟨records, base, applied, wal, _, steps, recovered⟩ := image.log
  refine ⟨kvOps.replay (kvOps.replay KVStore.fresh live.forEach) applied,
    ⟨⟨records, _, applied, wal, loadCheckpoint_encode live, steps, rfl⟩,
      image.torn⟩, ?_⟩
  have onLive := kvOps.replay_sameMap live.replay_forEach applied
  have onRecovered := kvOps.replay_sameMap (same.symm kvOps) applied
  rw [recovered] at onRecovered same
  exact ((onLive.trans kvOps onRecovered).trans kvOps
    (kvOps.replay_replay_sameMap base applied)).trans kvOps same

theorem truncated (live : KVStore MATRIX_STORE_SLOTS)
    (loaded : disk.ckpt = some (encodeCheckpoint live)) :
    ∃ kv', DiskImage { disk with wal := [] } kv' [] [] ∧
      kvOps.SameMap kv' live := by
  refine ⟨kvOps.replay KVStore.fresh live.forEach, ⟨⟨[], _, [], rfl, ?_, rfl,
    rfl⟩, .inl rfl⟩, live.replay_forEach⟩
  rw [loaded]
  exact loadCheckpoint_encode live

end DiskImage

end MatrixDB
