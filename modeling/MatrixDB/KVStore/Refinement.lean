import Mathlib.Algebra.BigOperators.Group.List.Basic
import Mathlib.Algebra.GroupWithZero.Nat
import MatrixDB.KVStore
import MatrixDB.Lib.BoundedMap

/-!
# The point-op store is a bounded finite map

A table stands for a map when a lookup finds what the map holds.  The fresh
table of any capacity stands for the empty map, and every call keeps the table
in step with the map built by the puts that returned true.
-/

namespace MatrixDB

open Lib

/-- The calls of a client. -/
inductive StoreCall where
  | put (key value : UInt64)
  | get (key : UInt64)
  deriving DecidableEq

namespace KVTable

/-! ## The constructor -/

theorem roundUpPow2Loop_eq {wanted : Nat} (small : wanted ≤ 2 ^ 63)
    {fuel power : Nat} (enough : fuel + power = 64) (started : 0 < fuel) :
    ∃ exponent, roundUpPow2Loop wanted fuel (2 ^ power) =
      some (2 ^ (exponent + 1)) ∧ wanted ≤ 2 ^ (exponent + 1) := by
  induction fuel generalizing power with
  | zero => omega
  | succ fuel induction =>
      unfold roundUpPow2Loop
      by_cases less : 2 ^ power < wanted
      · have below : power < 63 := by
          have within := Nat.lt_of_lt_of_le less small
          exact (Nat.pow_lt_pow_iff_right (by decide)).mp within
        have doubled : (2 ^ power <<< 1) % 2 ^ 64 = 2 ^ (power + 1) := by
          rw [Nat.shiftLeft_eq, ← Nat.pow_add]
          apply Nat.mod_eq_of_lt
          exact Nat.pow_lt_pow_right (by decide) (by omega)
        rw [if_pos less, doubled]
        exact induction (by omega) (by omega)
      · rw [if_neg less]
        cases power with
        | zero => exact ⟨0, rfl, by omega⟩
        | succ power =>
            have two : ¬ 2 ^ (power + 1) < 2 := by
              have least := Nat.pow_le_pow_right (by decide : 0 < 2)
                (Nat.succ_le_succ (Nat.zero_le power))
              omega
            rw [if_neg two]
            exact ⟨power, rfl, Nat.not_lt.mp less⟩

/-- A capacity of at most `2 ^ 63` is rounded up to a power of two. -/
theorem ofCapacity_eq {capacity : Nat} (small : capacity ≤ 2 ^ 63) :
    ∃ slotCount, ofCapacity capacity = some (blank slotCount) ∧
      capacity ≤ slotCount ∧ WellFormed slotCount (blank slotCount) := by
  obtain ⟨exponent, rounded, room⟩ :=
    roundUpPow2Loop_eq small (by decide : 64 + 0 = 64) (by decide)
  refine ⟨2 ^ (exponent + 1), ?_, room, wellFormed_blank exponent rfl⟩
  rw [ofCapacity, roundUpPow2, ← Nat.pow_zero 2, rounded]
  rfl

/-! ## Calls -/

/-- The table after some calls. -/
def afterCalls (table : KVTable) : List StoreCall → KVTable
  | [] => table
  | .put key value :: later => (table.put key value).2.afterCalls later
  | .get _ :: later => table.afterCalls later

/-- The puts among them that return true. -/
def acceptedPuts (table : KVTable) : List StoreCall → List (UInt64 × UInt64)
  | [] => []
  | .put key value :: later =>
      if (table.put key value).1 then
        (key, value) :: (table.put key value).2.acceptedPuts later
      else (table.put key value).2.acceptedPuts later
  | .get _ :: later => table.acceptedPuts later

/-- The map that a list of pairs builds. -/
def builtMap (pairs : List (UInt64 × UInt64)) : AList fun _ : UInt64 => UInt64 :=
  pairs.foldl (fun map pair => map.insert pair.1 pair.2) ∅

/-- What the calls of a table show of the map it stands for. -/
structure Shows (table : KVTable) (map : AList fun _ : UInt64 => UInt64) :
    Prop where
  get : ∀ key, table.get key = map.lookup key
  refused : ∀ key value, (table.put key value).1 = false ↔
    map.lookup key = none ∧ table.size = table.capacity
  unchanged : ∀ key value, (table.put key value).1 = false →
    (table.put key value).2 = table
  written : ∀ key value, (table.put key value).1 = true →
    (table.put key value).2.get key = some value
  others : ∀ key value other, other ≠ key →
    (table.put key value).2.get other = table.get other
  size : table.size = map.keys.length
  forEach : table.forEach.Perm
    (map.entries.map fun entry => (entry.1, entry.2))
  checksum : table.checksum.toNat =
    (map.entries.map fun entry => entry.2.toNat).sum % 2 ^ 64

end KVTable

namespace KVStore

variable {slotCount : Nat} {store : KVStore slotCount}
  {map : BoundedMap UInt64 UInt64 slotCount}

/-- A lookup finds what the map holds. -/
def Represents (store : KVStore slotCount)
    (map : BoundedMap UInt64 UInt64 slotCount) : Prop :=
  ∀ key, store.get key = map.get key

theorem represents_blank
    (wellFormed : KVTable.WellFormed slotCount (.blank slotCount)) :
    Represents ⟨.blank slotCount, wellFormed⟩ (.empty slotCount) := by
  intro key
  have missing : KVTable.get (.blank slotCount) key = none := by
    rw [wellFormed.get_eq, probeGet_eq_none_iff wellFormed.sound]
    intro entry member
    simp [KVTable.blank, entries] at member
  exact missing

theorem Represents.forEach_perm (represents : Represents store map) :
    store.forEach.Perm map.contents := by
  have distinct : store.forEach.Nodup :=
    .of_map Prod.fst store.nodup_forEach_keys
  rw [List.perm_ext_iff_of_nodup distinct map.nodup_contents]
  rintro ⟨key, value⟩
  rw [store.mem_forEach_iff, map.mem_contents_iff, represents key]

theorem Represents.size_eq (represents : Represents store map) :
    store.size = map.size := by
  rw [← store.length_forEach, ← map.length_contents]
  exact represents.forEach_perm.length_eq

theorem Represents.refuses_iff (represents : Represents store map)
    (key : UInt64) :
    map.Refuses key ↔ store.Full ∧ store.get key = none := by
  rw [BoundedMap.Refuses, Full, represents key, represents.size_eq]
  exact and_comm

/-- A put does the same to the table and to the map. -/
theorem Represents.put (represents : Represents store map)
    (key value : UInt64) :
    (store.put key value).1 = (map.put key value).1 ∧
      Represents (store.put key value).2 (map.put key value).2 := by
  by_cases refuses : map.Refuses key
  · have full := (represents.refuses_iff key).mp refuses
    rw [map.put_refused value refuses,
      store.put_refused key value full.1 full.2]
    exact ⟨(store.put_fst_eq_false_iff key value).mpr full, represents⟩
  · have accepted := mt (represents.refuses_iff key).mpr refuses
    constructor
    · rw [(map.put_accepted value refuses).1]
      apply (Bool.not_eq_false _).mp
      exact mt (store.put_fst_eq_false_iff key value).mp accepted
    · intro other
      by_cases own : other = key
      · subst own
        rw [store.get_put_self other value accepted,
          map.get_put_self value refuses]
      · rw [store.get_put_ne value own, map.get_put_ne value own]
        exact represents other

/-- The table and the map built by the accepted puts stay in step. -/
theorem Represents.afterCalls (represents : Represents store map)
    (calls : List StoreCall) :
    ∃ (after : KVStore slotCount) (built : BoundedMap UInt64 UInt64 slotCount),
      after.val = store.val.afterCalls calls ∧
      built.pairs = (store.val.acceptedPuts calls).foldl
        (fun map pair => map.insert pair.1 pair.2) map.pairs ∧
      Represents after built := by
  induction calls generalizing store map with
  | nil => exact ⟨store, map, rfl, rfl, represents⟩
  | cons call later induction =>
      cases call with
      | get key => exact induction represents
      | put key value =>
          obtain ⟨flag, next⟩ := represents.put key value
          obtain ⟨after, built, same, pairs, stays⟩ := induction next
          refine ⟨after, built, same, ?_, stays⟩
          rw [pairs, KVTable.acceptedPuts]
          have returned : (store.val.put key value).1 =
              (map.put key value).1 := flag
          by_cases refuses : map.Refuses key
          · rw [returned, map.put_refused value refuses]
            rfl
          · obtain ⟨accepted, inserted⟩ := map.put_accepted value refuses
            rw [returned, accepted, inserted]
            rfl

theorem toNat_foldl_add (pairs : List (UInt64 × UInt64)) (start : UInt64) :
    (pairs.foldl (fun sum pair => sum + pair.2) start).toNat =
      (start.toNat + (pairs.map fun pair => pair.2.toNat).sum) % 2 ^ 64 := by
  induction pairs generalizing start with
  | nil =>
      rw [List.foldl_nil, List.map_nil, List.sum_nil, Nat.add_zero]
      exact (Nat.mod_eq_of_lt start.toNat_lt).symm
  | cons pair pairs induction =>
      rw [List.foldl_cons, induction, UInt64.toNat_add, List.map_cons,
        List.sum_cons, Nat.mod_add_mod, Nat.add_assoc]

theorem capacity_eq (store : KVStore slotCount) :
    store.val.capacity = slotCount := by
  have positive := store.property.positive
  rw [store.property.length_eq] at positive
  rw [KVTable.capacity, store.property.mask_eq]
  omega

theorem Represents.shows (represents : Represents store map) :
    store.val.Shows map.pairs := by
  refine ⟨represents, ?_, ?_, ?_, ?_, ?_, represents.forEach_perm, ?_⟩
  · intro key value
    rw [store.capacity_eq]
    exact (store.put_fst_eq_false_iff key value).trans
      ((represents.refuses_iff key).symm.trans
        (by rw [BoundedMap.Refuses, ← represents.size_eq]; rfl))
  · intro key value flag
    obtain ⟨full, absent⟩ := (store.put_fst_eq_false_iff key value).mp flag
    exact congrArg Subtype.val (store.put_refused key value full absent)
  · intro key value flag
    apply store.get_put_self key value
    intro refused
    have wrong := (store.put_fst_eq_false_iff key value).mpr refused
    exact Bool.false_ne_true (wrong.symm.trans flag)
  · intro key value other different
    exact store.get_put_ne value different
  · exact represents.size_eq
  · have sums := toNat_foldl_add store.forEach 0
    rw [(represents.forEach_perm.map _).sum_eq, BoundedMap.contents,
      List.map_map, UInt64.toNat_zero, Nat.zero_add] at sums
    exact sums

/-- A table of any capacity up to `2 ^ 63` is the bounded map built by the puts
that returned true, after any calls. -/
theorem refines_bounded_map {capacity : Nat} (small : capacity ≤ 2 ^ 63) :
    ∃ table, KVTable.ofCapacity capacity = some table ∧
      capacity ≤ table.capacity ∧
      ∀ calls, (table.afterCalls calls).capacity = table.capacity ∧
        (table.afterCalls calls).Shows
          (KVTable.builtMap (table.acceptedPuts calls)) := by
  obtain ⟨slotCount, built, room, wellFormed⟩ := KVTable.ofCapacity_eq small
  have slots := capacity_eq ⟨.blank slotCount, wellFormed⟩
  refine ⟨_, built, Nat.le_trans room (Nat.le_of_eq slots.symm), ?_⟩
  intro calls
  obtain ⟨after, map, same, pairs, represents⟩ :=
    (represents_blank wellFormed).afterCalls calls
  have shown := represents.shows
  rw [same, pairs] at shown
  have kept := after.capacity_eq
  rw [same] at kept
  exact ⟨kept.trans slots.symm, shown⟩

/-- Three keys fill a table of two slots: the third put is refused. -/
theorem refines_bounded_map_full :
    ∃ table, KVTable.ofCapacity 2 = some table ∧
      table.acceptedPuts [.put 3 30, .put 5 50, .put 7 70] =
        [(3, 30), (5, 50)] ∧
      (table.afterCalls [.put 3 30, .put 5 50, .put 7 70]).Shows
        (KVTable.builtMap [(3, 30), (5, 50)]) := by
  obtain ⟨table, built, _, shows⟩ :=
    refines_bounded_map (by decide : 2 ≤ 2 ^ 63)
  have accepted : table.acceptedPuts [.put 3 30, .put 5 50, .put 7 70] =
      [(3, 30), (5, 50)] := by
    cases built
    decide
  refine ⟨table, built, accepted, ?_⟩
  rw [← accepted]
  exact (shows _).2

end KVStore

end MatrixDB
