import Mathlib.Algebra.Group.Nat.Defs
import Mathlib.Data.List.Perm.Subperm
import MatrixDB.Lib.LinearProbe

/-!
# The point-op store (`kv_store.hpp`)

`KVTable` is the open-addressing table as the code keeps it: a mask, an entry
count and an array of slots, a `none` standing for a slot that is not
occupied.  `KVStore` is a table together with the facts every constructor and
every `put` maintain, so that the engine can only hold a well-formed one.
-/

namespace MatrixDB

open Lib

/-- Slots of the engine's table (`MATRIX_STORE_SLOTS` in `types.hpp`). -/
def MATRIX_STORE_SLOTS : Nat := 65536

structure KVTable where
  mask : Nat
  size : Nat
  slots : Slots UInt64 UInt64

namespace KVTable

/-- The doubling loop of `round_up_pow2`, with the 64-bit shift.  Sixty-four
doublings decide it: past `2 ^ 63` the shifted value is zero and the source
loop does not end. -/
def roundUpPow2Loop (wanted : Nat) : Nat → Nat → Option Nat
  | 0, _ => none
  | fuel + 1, power =>
      if power < wanted then
        roundUpPow2Loop wanted fuel ((power <<< 1) % 2 ^ 64)
      else some (if power < 2 then 2 else power)

def roundUpPow2 (wanted : Nat) : Option Nat := roundUpPow2Loop wanted 64 1

/-- A table of unoccupied slots. -/
def blank (slotCount : Nat) : KVTable :=
  { mask := slotCount - 1
    size := 0
    slots := List.replicate slotCount none }

/-- The constructor: the capacity is rounded up to a power of two. -/
def ofCapacity (capacity : Nat) : Option KVTable :=
  (roundUpPow2 capacity).map blank

/-- The probe loop of `put` and `get`: from slot `index` on, at most `fuel`
slots, up to the first one that is unoccupied or holds `key`. -/
def probe (table : KVTable) (key : UInt64) : Nat → Nat → Option Nat
  | 0, _ => none
  | fuel + 1, index =>
      match table.slots[index]? with
      | some (some entry) =>
          if entry.1 = key then some index
          else probe table key fuel ((index + 1) &&& table.mask)
      | _ => some index

/-- The slot both `put` and `get` stop at, if any. -/
def findSlot (table : KVTable) (key : UInt64) : Option Nat :=
  table.probe key (table.mask + 1) (key.toNat &&& table.mask)

/-- Insert or update; `false` only when the table is full and the key new. -/
def put (table : KVTable) (key value : UInt64) : Bool × KVTable :=
  match table.findSlot key with
  | some index =>
      (true,
        { table with
          slots := table.slots.set index (some (key, value))
          size :=
            match table.slots[index]? with
            | some (some _) => table.size
            | _ => table.size + 1 })
  | none => (false, table)

def get (table : KVTable) (key : UInt64) : Option UInt64 :=
  match table.findSlot key with
  | some index =>
      match table.slots[index]? with
      | some (some entry) => some entry.2
      | _ => none
  | none => none

def capacity (table : KVTable) : Nat := table.mask + 1

/-- The pairs `for_each` visits, in slot order. -/
def forEach (table : KVTable) : List (UInt64 × UInt64) :=
  entries table.slots

def checksum (table : KVTable) : UInt64 :=
  table.forEach.foldl (fun sum entry => sum + entry.2) 0

/-- The slot a key is hashed to. -/
def home (slotCount : Nat) (key : UInt64) : Nat :=
  key.toNat &&& (slotCount - 1)

/-- What the constructor establishes and `put` maintains. -/
structure WellFormed (slotCount : Nat) (table : KVTable) : Prop where
  pow2 : ∃ exponent, slotCount = 2 ^ (exponent + 1)
  mask_eq : table.mask = slotCount - 1
  length_eq : table.slots.length = slotCount
  size_eq : table.size = (entries table.slots).length
  sound : ProbeSound (home slotCount) table.slots

namespace WellFormed

variable {slotCount : Nat} {table : KVTable}

theorem positive (wf : WellFormed slotCount table) :
    0 < table.slots.length := by
  obtain ⟨exponent, equal⟩ := wf.pow2
  rw [wf.length_eq, equal]
  exact Nat.pow_pos (by decide)

theorem and_mask (wf : WellFormed slotCount table) (value : Nat) :
    value &&& table.mask = value % table.slots.length := by
  obtain ⟨exponent, equal⟩ := wf.pow2
  rw [wf.mask_eq, wf.length_eq, equal]
  exact Nat.and_two_pow_sub_one_eq_mod value (exponent + 1)

/-- The masked probe loop is modular probing. -/
theorem probe_eq (wf : WellFormed slotCount table) (key : UInt64)
    (fuel index : Nat) :
    table.probe key fuel index = probeFrom table.slots key fuel index := by
  induction fuel generalizing index with
  | zero => rfl
  | succ fuel induction =>
      simp only [probe, probeFrom, wf.and_mask, induction]
      cases table.slots[index]? with
      | none => rfl
      | some slot => cases slot <;> rfl

theorem findSlot_eq (wf : WellFormed slotCount table) (key : UInt64) :
    table.findSlot key =
      probeFrom table.slots key table.slots.length
        (probeAt table.slots.length (home slotCount key) 0) := by
  have steps : table.mask + 1 = table.slots.length := by
    have positive := wf.positive
    rw [wf.mask_eq, ← wf.length_eq]
    omega
  have start : key.toNat &&& table.mask =
      probeAt table.slots.length (home slotCount key) 0 := by
    rw [home, ← wf.mask_eq, probeAt, Nat.add_zero, wf.and_mask,
      Nat.mod_mod]
  rw [findSlot, wf.probe_eq, steps, start]

theorem get_eq (wf : WellFormed slotCount table) (key : UInt64) :
    table.get key = probeGet (home slotCount) table.slots key := by
  simp only [get, probeGet, wf.findSlot_eq]
  cases probeFrom table.slots key table.slots.length
      (probeAt table.slots.length (home slotCount key) 0) with
  | none => rfl
  | some index =>
      simp only
      cases table.slots[index]? with
      | none => rfl
      | some slot => cases slot <;> rfl

theorem put_eq (wf : WellFormed slotCount table) (key value : UInt64) :
    (∃ updated,
      probePut (home slotCount) table.slots key value = some updated ∧
        table.put key value =
          (true,
            { table with
              slots := updated
              size := table.size +
                (if table.get key = none then 1 else 0) })) ∨
      (probePut (home slotCount) table.slots key value = none ∧
        table.put key value = (false, table)) := by
  cases stop : table.findSlot key with
  | none =>
      right
      constructor
      · rw [wf.findSlot_eq] at stop
        simp [probePut, stop]
      · simp [put, stop]
  | some index =>
      left
      refine ⟨table.slots.set index (some (key, value)), ?_, ?_⟩
      · rw [wf.findSlot_eq] at stop
        simp [probePut, stop]
      · simp only [put, stop, get, Prod.mk.injEq, KVTable.mk.injEq, true_and]
        split <;> simp_all

end WellFormed

theorem wellFormed_blank {slotCount : Nat} (exponent : Nat)
    (pow2 : slotCount = 2 ^ (exponent + 1)) :
    WellFormed slotCount (blank slotCount) := by
  refine ⟨⟨exponent, pow2⟩, rfl, by simp [blank], ?_, ?_⟩
  · simp [blank, entries]
  · intro index key value stored
    simp [blank, List.getElem?_replicate] at stored

theorem wellFormed_put {slotCount : Nat} {table : KVTable}
    (wf : WellFormed slotCount table) (key value : UInt64) :
    WellFormed slotCount (table.put key value).2 := by
  rcases wf.put_eq key value with
    ⟨updated, written, result⟩ | ⟨_, result⟩
  · rw [result]
    refine ⟨wf.pow2, wf.mask_eq, ?_, ?_, ?_⟩
    · rw [← wf.length_eq]
      exact probePut_length written
    · simp only [length_entries_put wf.sound wf.positive written,
        wf.size_eq, wf.get_eq]
    · exact probePut_sound wf.sound wf.positive written
  · rw [result]
    exact wf

end KVTable

/-- A well-formed table of `slotCount` slots. -/
abbrev KVStore (slotCount : Nat) :=
  { table : KVTable // table.WellFormed slotCount }

namespace KVStore

variable {slotCount : Nat}

/-- The engine's store as the constructor leaves it. -/
def fresh : KVStore MATRIX_STORE_SLOTS :=
  ⟨KVTable.blank MATRIX_STORE_SLOTS,
    KVTable.wellFormed_blank 15 rfl⟩

/-- `kv_{MATRIX_STORE_SLOTS}` needs no rounding. -/
theorem fresh_eq_ofCapacity :
    KVTable.ofCapacity MATRIX_STORE_SLOTS = some fresh.val := by
  have rounded : KVTable.roundUpPow2 MATRIX_STORE_SLOTS =
      some MATRIX_STORE_SLOTS := by decide
  rw [KVTable.ofCapacity, rounded]
  rfl

def get (store : KVStore slotCount) (key : UInt64) : Option UInt64 :=
  store.val.get key

/-- `put` with its success flag. -/
def put (store : KVStore slotCount) (key value : UInt64) :
    Bool × KVStore slotCount :=
  ((store.val.put key value).1,
    ⟨(store.val.put key value).2,
      KVTable.wellFormed_put store.property key value⟩)

def size (store : KVStore slotCount) : Nat := store.val.size

def forEach (store : KVStore slotCount) : List (UInt64 × UInt64) :=
  store.val.forEach

def checksum (store : KVStore slotCount) : UInt64 := store.val.checksum

/-- The table has no unoccupied slot left. -/
def Full (store : KVStore slotCount) : Prop := store.size = slotCount

instance (store : KVStore slotCount) : Decidable store.Full :=
  inferInstanceAs (Decidable (store.size = slotCount))

theorem full_iff_probeFull (store : KVStore slotCount) :
    store.Full ↔ ProbeFull store.val.slots := by
  rw [probeFull_iff, Full, size, store.property.size_eq,
    store.property.length_eq]

theorem get_fresh (key : UInt64) : fresh.get key = none := by
  rw [get, fresh.property.get_eq,
    probeGet_eq_none_iff fresh.property.sound]
  intro entry member
  have empty : entries fresh.val.slots = [] := by
    simp [fresh, KVTable.blank, entries]
  simp [empty] at member

/-- `put` reports failure exactly for a new key in a full table. -/
theorem put_fst_eq_false_iff (store : KVStore slotCount)
    (key value : UInt64) :
    (store.put key value).1 = false ↔
      store.Full ∧ store.get key = none := by
  have wf := store.property
  rw [full_iff_probeFull, get, wf.get_eq,
    ← probePut_eq_none_iff wf.sound wf.positive key value]
  rcases wf.put_eq key value with ⟨updated, written, result⟩ | ⟨none, result⟩
  · simp [put, result, written]
  · simp [put, result, none]

theorem put_refused (store : KVStore slotCount) (key value : UInt64)
    (full : store.Full) (absent : store.get key = none) :
    (store.put key value).2 = store := by
  have wf := store.property
  have refused := (store.put_fst_eq_false_iff key value).mpr ⟨full, absent⟩
  rcases wf.put_eq key value with ⟨_, _, result⟩ | ⟨_, result⟩
  · simp [put, result] at refused
  · apply Subtype.ext
    simp [put, result]

theorem get_put_self (store : KVStore slotCount) (key value : UInt64)
    (accepted : ¬(store.Full ∧ store.get key = none)) :
    ((store.put key value).2).get key = some value := by
  have wf := store.property
  rcases wf.put_eq key value with ⟨updated, written, result⟩ | ⟨_, result⟩
  · have updatedWf := KVTable.wellFormed_put wf key value
    rw [get, put, updatedWf.get_eq]
    simp only [result]
    exact probeGet_put_self wf.sound wf.positive written
  · have refused : (store.put key value).1 = false := by simp [put, result]
    exact (accepted ((store.put_fst_eq_false_iff key value).mp refused)).elim

theorem get_put_fresh (key value : UInt64) :
    (fresh.put key value).2.get key = some value := by
  apply get_put_self
  rintro ⟨full, _⟩
  cases full

theorem get_put_ne (store : KVStore slotCount) {key other : UInt64}
    (value : UInt64) (different : other ≠ key) :
    ((store.put key value).2).get other = store.get other := by
  have wf := store.property
  rcases wf.put_eq key value with ⟨updated, written, result⟩ | ⟨_, result⟩
  · have updatedWf := KVTable.wellFormed_put wf key value
    rw [get, put, updatedWf.get_eq, get, wf.get_eq]
    simp only [result]
    exact probeGet_put_ne wf.sound wf.positive written different
  · simp [put, get, result]

theorem size_put (store : KVStore slotCount) (key value : UInt64) :
    ((store.put key value).2).size = store.size +
      (if store.get key = none ∧ ¬store.Full then 1 else 0) := by
  have wf := store.property
  have flag := store.put_fst_eq_false_iff key value
  rcases wf.put_eq key value with ⟨updated, written, result⟩ | ⟨_, result⟩
  · have accepted : ¬(store.Full ∧ store.get key = none) := by
      rw [← flag]
      simp [put, result]
    have sizes : ((store.put key value).2).size =
        store.size + (if store.get key = none then 1 else 0) := by
      by_cases absent : store.val.get key = none <;>
        simp [put, size, get, result, absent]
    rw [sizes]
    by_cases absent : store.get key = none
    · have free : ¬store.Full := fun full => accepted ⟨full, absent⟩
      simp [absent, free]
    · simp [absent]
  · have refused := flag.mp (by simp [put, result])
    simp [put, size, result, refused.1]

theorem size_le (store : KVStore slotCount) : store.size ≤ slotCount := by
  have wf := store.property
  have bounded : (entries store.val.slots).length ≤ store.val.slots.length :=
    List.length_filterMap_le id store.val.slots
  rw [size, wf.size_eq]
  exact Nat.le_trans bounded (Nat.le_of_eq wf.length_eq)

/-- `for_each` visits exactly the stored pairs. -/
theorem mem_forEach_iff (store : KVStore slotCount) {key value : UInt64} :
    (key, value) ∈ store.forEach ↔ store.get key = some value := by
  have wf := store.property
  rw [get, wf.get_eq, probeGet_eq_some_iff wf.sound]
  rfl

theorem nodup_forEach_keys (store : KVStore slotCount) :
    (store.forEach.map Prod.fst).Nodup :=
  nodup_entries_keys store.property.sound

theorem length_forEach (store : KVStore slotCount) :
    store.forEach.length = store.size :=
  store.property.size_eq.symm

/-- Fullness is a matter of the contents. -/
theorem full_congr {left right : KVStore slotCount}
    (same : ∀ key, left.get key = right.get key) :
    left.Full ↔ right.Full := by
  have leftWf := left.property
  have rightWf := right.property
  have sizes : left.size = right.size := by
    rw [size, size, leftWf.size_eq, rightWf.size_eq]
    apply length_entries_congr leftWf.sound rightWf.sound
    intro key
    rw [← leftWf.get_eq, ← rightWf.get_eq]
    exact same key
  rw [Full, Full, sizes]

/-- A store that holds fewer keys accepts what a larger one accepts. -/
theorem accepts_of_submap {small large : KVStore slotCount} {key : UInt64}
    (submap : ∀ other, small.get other ≠ none → large.get other ≠ none)
    (accepted : ¬(large.Full ∧ large.get key = none)) :
    ¬(small.Full ∧ small.get key = none) := by
  rintro ⟨full, absent⟩
  have held : ∀ {store : KVStore slotCount} {other : UInt64},
      other ∈ store.forEach.map Prod.fst ↔ store.get other ≠ none := by
    intro store other
    rw [List.mem_map, Option.ne_none_iff_exists']
    constructor
    · rintro ⟨⟨_, value⟩, member, rfl⟩
      exact ⟨value, store.mem_forEach_iff.mp member⟩
    · rintro ⟨value, stored⟩
      exact ⟨(other, value), store.mem_forEach_iff.mpr stored, rfl⟩
  have sub : (small.forEach.map Prod.fst).Subperm
      (large.forEach.map Prod.fst) := by
    apply List.subperm_of_subset small.nodup_forEach_keys
    intro other member
    exact held.mpr (submap other (held.mp member))
  have lengths : (large.forEach.map Prod.fst).length ≤
      (small.forEach.map Prod.fst).length := by
    rw [List.length_map, List.length_map, length_forEach, length_forEach,
      full]
    exact large.size_le
  -- A full submap has the same keys.
  have perm := sub.perm_of_length_le lengths
  apply accepted
  constructor
  · have same := perm.length_eq
    rw [List.length_map, List.length_map, length_forEach, length_forEach,
      full] at same
    exact same.symm
  · by_contra present
    exact held.mp (perm.mem_iff.mpr (held.mpr present)) absent

/-- The store is a refusing store: a refused `put` changes nothing. -/
def refusing (slotCount : Nat) :
    RefusingStore (KVStore slotCount) UInt64 UInt64 where
  get := get
  put := fun store key value => (store.put key value).2
  full := Full
  get_put_ne := fun value different => get_put_ne _ value different
  get_put_self := fun value accepted => get_put_self _ _ value accepted
  put_refused := fun value full absent => put_refused _ _ value full absent
  full_put := by
    intro store key value full
    rw [Full, size_put]
    simp [full]
    exact full
  full_congr := full_congr

@[simp] theorem refusing_get (store : KVStore slotCount) (key : UInt64) :
    (refusing slotCount).get store key = store.get key := rfl

@[simp] theorem refusing_put (store : KVStore slotCount)
    (key value : UInt64) :
    (refusing slotCount).put store key value = (store.put key value).2 := rfl

/-- Distinct new keys that fit into the table are all stored. -/
theorem get_replay_of_room {store : KVStore slotCount}
    {pairs : List (UInt64 × UInt64)} (distinct : (pairs.map Prod.fst).Nodup)
    (absent : ∀ pair ∈ pairs, store.get pair.1 = none)
    (room : store.size + pairs.length ≤ slotCount) (key value : UInt64) :
    ((refusing slotCount).replay store pairs).get key = some value ↔
      store.get key = some value ∨ (key, value) ∈ pairs := by
  induction pairs generalizing store with
  | nil => simp [RefusingStore.replay]
  | cons pair pairs induction =>
      rw [List.map_cons, List.nodup_cons] at distinct
      rw [List.length_cons] at room
      have new : store.get pair.1 = none := absent pair (by simp)
      have accepted : ¬(store.Full ∧ store.get pair.1 = none) := by
        rintro ⟨full, _⟩
        rw [Full] at full
        omega
      have grown : ((store.put pair.1 pair.2).2).size = store.size + 1 := by
        have free : ¬store.Full := fun full => accepted ⟨full, new⟩
        simp [size_put, new, free]
      have others : ∀ later ∈ pairs, later.1 ≠ pair.1 := by
        intro later member same
        exact distinct.1 (List.mem_map.mpr ⟨later, member, same⟩)
      have stillAbsent : ∀ later ∈ pairs,
          ((store.put pair.1 pair.2).2).get later.1 = none := by
        intro later member
        rw [get_put_ne store pair.2 (others later member)]
        exact absent later (List.mem_cons_of_mem _ member)
      rw [RefusingStore.replay_cons, refusing_put,
        induction distinct.2 stillAbsent (by omega)]
      by_cases same : key = pair.1
      · subst same
        rw [get_put_self store pair.1 pair.2 accepted, new]
        simp only [Option.some.injEq, reduceCtorEq, false_or,
          List.mem_cons, Prod.ext_iff, true_and, eq_comm]
      · have different : (key, value) ≠ pair := by
          intro equal
          exact same (congrArg Prod.fst equal)
        rw [get_put_ne store pair.2 same]
        simp [different]

theorem acceptsAll_of_submap {small large : KVStore slotCount}
    {writes : List (UInt64 × UInt64)}
    (submap : ∀ key, small.get key ≠ none → large.get key ≠ none)
    (accepts : (refusing slotCount).AcceptsAll large writes) :
    (refusing slotCount).AcceptsAll small writes := by
  induction writes generalizing small large with
  | nil => trivial
  | cons write writes induction =>
      obtain ⟨accepted, later⟩ := accepts
      have room := accepts_of_submap submap accepted
      refine ⟨room, induction ?_ later⟩
      intro key
      by_cases same : key = write.1
      · subst same
        intro _
        rw [refusing_put, get_put_self large write.1 write.2 accepted]
        exact Option.some_ne_none _
      · rw [refusing_put, refusing_put, get_put_ne small write.2 same,
          get_put_ne large write.2 same]
        exact submap key

/-- Two writes that are accepted in one order are accepted in the other. -/
theorem accepts_swap {store : KVStore slotCount}
    {first second : UInt64 × UInt64}
    (firstAccepted : ¬(store.Full ∧ store.get first.1 = none))
    (secondAccepted : ¬((store.put first.1 first.2).2.Full ∧
      (store.put first.1 first.2).2.get second.1 = none)) :
    ¬(store.Full ∧ store.get second.1 = none) ∧
      ¬((store.put second.1 second.2).2.Full ∧
        (store.put second.1 second.2).2.get first.1 = none) := by
  have early : ¬(store.Full ∧ store.get second.1 = none) := by
    apply accepts_of_submap _ secondAccepted
    intro other held
    by_cases same : other = first.1
    · subst same
      rw [get_put_self store _ _ firstAccepted]
      exact Option.some_ne_none _
    · rw [get_put_ne store _ same]
      exact held
  refine ⟨early, ?_⟩
  rintro ⟨full, absent⟩
  by_cases same : first.1 = second.1
  · rw [same, get_put_self store _ _ early] at absent
    cases absent
  · rw [get_put_ne store _ same] at absent
    have free : ¬store.Full := fun filled => firstAccepted ⟨filled, absent⟩
    have grown := store.size_put first.1 first.2
    have grownToo := store.size_put second.1 second.2
    rw [if_pos ⟨absent, free⟩] at grown
    rw [Full] at full free
    by_cases held : store.get second.1 = none
    · rw [if_pos ⟨held, free⟩] at grownToo
      apply secondAccepted
      rw [Full, get_put_ne store _ (Ne.symm same)]
      exact ⟨by omega, held⟩
    · rw [if_neg fun both => held both.1] at grownToo
      omega

/-- Whether a list of writes fits does not depend on its order. -/
theorem acceptsAll_perm {store : KVStore slotCount}
    {left right : List (UInt64 × UInt64)} (permuted : left.Perm right)
    (accepts : (refusing slotCount).AcceptsAll store left) :
    (refusing slotCount).AcceptsAll store right := by
  induction permuted generalizing store with
  | nil => trivial
  | cons write _ induction => exact ⟨accepts.1, induction accepts.2⟩
  | trans _ _ first second => exact second (first accepts)
  | swap first second rest =>
      obtain ⟨secondAccepted, firstAccepted, later⟩ := accepts
      obtain ⟨early, late⟩ := accepts_swap secondAccepted firstAccepted
      refine ⟨early, late, ?_⟩
      apply acceptsAll_of_submap _ later
      intro key held
      simp only [refusing_put] at held firstAccepted late ⊢
      by_cases same : key = first.1
      · subst same
        rw [get_put_self _ _ _ firstAccepted]
        exact Option.some_ne_none _
      · rw [get_put_ne _ _ same]
        by_cases equal : key = second.1
        · subst equal
          rw [get_put_self _ _ _ secondAccepted]
          exact Option.some_ne_none _
        · rw [get_put_ne _ _ equal, get_put_ne _ _ same] at held
          rw [get_put_ne _ _ equal]
          exact held

end KVStore

end MatrixDB
