import MatrixDB.Engine.PointOps
import MatrixDB.Lib.SortedEntries

/-!
# The ordered index of the point-op store

`apply_committed_write` assigns to the index whatever it has put into the
table, and the constructor builds the index from the recovered table.  No
other action of a call touches either.
-/

namespace MatrixDB

open Lib

namespace PointOps

/-- `kv_range`: the pairs in the order of the slots. -/
def kvRange (engine : PointOps) (lo hi : UInt64) : List (UInt64 × UInt64) :=
  engine.kv.forEach.filter fun entry => lo ≤ entry.1 && entry.1 ≤ hi

def kvRangeSorted (engine : PointOps) (lo hi : UInt64) :
    List (UInt64 × UInt64) :=
  walkRange lo hi engine.keyIndex

/-- The index holds what the table holds. -/
structure Mirrors (engine : PointOps) : Prop where
  ascending : Ascending engine.keyIndex
  same : ∀ entry, entry ∈ engine.kv.forEach ↔ entry ∈ engine.keyIndex

/-- Both range scans agree, up to the order. -/
theorem Mirrors.kvRangeSorted_eq {engine : PointOps}
    (mirrors : engine.Mirrors) (lo hi : UInt64) :
    engine.kvRangeSorted lo hi = sortByKey (engine.kvRange lo hi) := by
  rw [kvRangeSorted, walkRange_eq_filter mirrors.ascending]
  symm
  apply sortByKey_eq
  · exact mirrors.ascending.filter _
  · exact engine.kv.nodup_forEach_keys.sublist
      (List.filter_sublist.map Prod.fst)
  · intro entry
    rw [kvRange, List.mem_filter, List.mem_filter, mirrors.same]

/-- Scans of the whole range compare everything. -/
theorem mirrors_of_kvRangeSorted {engine : PointOps}
    (ascending : Ascending engine.keyIndex)
    (agree : ∀ lo hi,
      engine.kvRangeSorted lo hi = sortByKey (engine.kvRange lo hi)) :
    engine.Mirrors := by
  refine ⟨ascending, ?_⟩
  intro entry
  have everything := agree 0 (-1)
  rw [kvRangeSorted, walkRange_eq_filter ascending] at everything
  have within : (0 : UInt64) ≤ entry.1 ∧ entry.1 ≤ -1 :=
    ⟨UInt64.zero_le, UInt64.le_iff_toNat_le.mpr
      (Nat.le_of_lt_succ entry.1.toNat_lt)⟩
  have sorted : entry ∈ sortByKey (engine.kvRange 0 (-1)) ↔
      entry ∈ engine.kvRange 0 (-1) :=
    (List.mergeSort_perm _ _).mem_iff
  rw [← everything, kvRange, List.mem_filter, List.mem_filter] at sorted
  simp only [within, decide_true, Bool.and_true, and_true] at sorted
  exact sorted.symm

theorem indexInsert_eq (key value : UInt64)
    (index : List (UInt64 × UInt64)) :
    indexInsert key value index = insertEntry key value index := by
  induction index with
  | nil => rfl
  | cons entry later induction =>
      rw [indexInsert, insertEntry, induction]

/-- The pairs of the table after an accepted `put`. -/
theorem mem_forEach_put {store : KVStore MATRIX_STORE_SLOTS}
    {key other value stored : UInt64}
    (accepted : (store.put key value).1 = true) :
    (other, stored) ∈ (store.put key value).2.forEach ↔
      if other = key then stored = value
      else (other, stored) ∈ store.forEach := by
  rw [KVStore.mem_forEach_iff, KVStore.mem_forEach_iff]
  split
  · rename_i same
    subst same
    have room : ¬(store.Full ∧ store.get other = none) := by
      rw [← store.put_fst_eq_false_iff other value, accepted]
      exact Bool.noConfusion
    rw [store.get_put_self other value room, Option.some.injEq]
    exact eq_comm
  · rename_i different
    rw [store.get_put_ne value different]

theorem Mirrors.applyCommittedWrite {asserts : Bool} {engine after : PointOps}
    {key value : UInt64} (mirrors : engine.Mirrors)
    (ran : engine.applyCommittedWrite asserts key value = some after) :
    after.Mirrors := by
  unfold PointOps.applyCommittedWrite at ran
  simp only at ran
  split at ran
  · rename_i accepted
    cases ran
    constructor
    · simp only [indexInsert_eq]
      exact mirrors.ascending.insertEntry key value
    · rintro ⟨other, stored⟩
      simp only [indexInsert_eq]
      rw [mem_forEach_put accepted, mem_insertEntry_iff mirrors.ascending,
        mirrors.same]
  · split at ran
    · cases ran
    · cases ran
      exact ⟨mirrors.ascending, mirrors.same⟩

/-- The constructor's loop rebuilds the index. -/
theorem mirrors_onStore (sync : SyncPolicy)
    (kv : KVStore MATRIX_STORE_SLOTS) : (onStore sync kv).Mirrors := by
  have built : (onStore sync kv).keyIndex = kv.forEach.foldl
      (fun index entry => insertEntry entry.1 entry.2 index) [] := by
    simp only [onStore, indexInsert_eq]
  have empty : Ascending ([] : List (UInt64 × UInt64)) := .nil
  constructor
  · rw [built]
    exact empty.insertAll kv.forEach
  · rintro ⟨key, value⟩
    rw [built, mem_insertAll_iff empty kv.nodup_forEach_keys]
    simp [onStore]

theorem mirrors_openEngine {sync : SyncPolicy} {disk : Disk}
    {engine : PointOps} (opened : openEngine sync disk = some engine) :
    engine.Mirrors := by
  obtain ⟨kv, _, rfl⟩ := Option.map_eq_some_iff.mp opened
  exact mirrors_onStore sync kv

theorem Mirrors.withColdStore {engine : PointOps} (mirrors : engine.Mirrors)
    (coldStore : Option ColdStore) :
    { engine with coldStore := coldStore }.Mirrors :=
  ⟨mirrors.ascending, mirrors.same⟩

end PointOps

namespace World

/-- Every action keeps the index in step with the table. -/
theorem mirrors_run (asserts : Bool) (action : Action) (world next : World)
    (mirrors : world.engine.Mirrors)
    (ran : run asserts action world = some next) : next.engine.Mirrors := by
  cases action with
  | applyCommittedWrite key value =>
      obtain ⟨engine, applied, rfl⟩ := Option.map_eq_some_iff.mp ran
      exact mirrors.applyCommittedWrite applied
  | require holds =>
      simp only [run] at ran
      split at ran
      · cases ran
      · cases ran
        exact mirrors
  | _ =>
      cases ran
      exact ⟨mirrors.ascending, mirrors.same⟩

theorem mirrors_runEvent {asserts : Bool} {event : Event}
    {world next : World} (mirrors : world.engine.Mirrors)
    (ran : world.runEvent asserts event = some next) :
    next.engine.Mirrors := by
  cases event with
  | call op =>
      exact (machine asserts).runAll_preserves (mirrors_run asserts) mirrors
        ran
  | restart sync =>
      obtain ⟨engine, opened, rfl⟩ := Option.map_eq_some_iff.mp ran
      exact PointOps.mirrors_openEngine opened
  | crash op count extent sync =>
      obtain ⟨engine, opened, rfl⟩ := Option.map_eq_some_iff.mp ran
      exact PointOps.mirrors_openEngine opened

end World

end MatrixDB
