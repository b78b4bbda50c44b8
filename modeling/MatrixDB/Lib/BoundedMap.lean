import Mathlib.Data.List.AList

/-!
# Finite maps of bounded size

A map with room for a fixed number of keys: a write to a key it holds always
succeeds, and a write to a new key succeeds while there is room.
-/

namespace MatrixDB.Lib

structure BoundedMap (K V : Type) [DecidableEq K] (capacity : Nat) where
  pairs : AList fun _ : K => V
  bounded : pairs.keys.length ≤ capacity

namespace BoundedMap

variable {K V : Type} [DecidableEq K] {capacity : Nat}

def empty (capacity : Nat) : BoundedMap K V capacity :=
  ⟨∅, Nat.zero_le capacity⟩

def get (map : BoundedMap K V capacity) (key : K) : Option V :=
  map.pairs.lookup key

def size (map : BoundedMap K V capacity) : Nat := map.pairs.keys.length

/-- The pairs of the map in some order. -/
def contents (map : BoundedMap K V capacity) : List (K × V) :=
  map.pairs.entries.map fun entry => (entry.1, entry.2)

/-- A full map has no room for a new key. -/
def Refuses (map : BoundedMap K V capacity) (key : K) : Prop :=
  map.get key = none ∧ map.size = capacity

instance (map : BoundedMap K V capacity) (key : K) :
    Decidable (map.Refuses key) :=
  inferInstanceAs (Decidable (map.get key = none ∧ map.size = capacity))

theorem length_keys_insert_le {pairs : AList fun _ : K => V} {key : K}
    (value : V) (accepted : ¬ (pairs.lookup key = none ∧
      pairs.keys.length = capacity)) (bounded : pairs.keys.length ≤ capacity) :
    (pairs.insert key value).keys.length ≤ capacity := by
  rw [AList.keys_insert, List.length_cons]
  by_cases held : key ∈ pairs.keys
  · rw [List.length_erase_of_mem held]
    have some : 0 < pairs.keys.length := List.length_pos_of_mem held
    omega
  · rw [List.erase_of_not_mem held]
    have new : pairs.lookup key = none :=
      AList.lookup_eq_none.mpr (mt AList.mem_keys.mp held)
    have room : pairs.keys.length ≠ capacity := fun full =>
      accepted ⟨new, full⟩
    omega

/-- The write, and whether it took place. -/
def put (map : BoundedMap K V capacity) (key : K) (value : V) :
    Bool × BoundedMap K V capacity :=
  if refused : map.Refuses key then (false, map)
  else
    (true, ⟨map.pairs.insert key value,
      length_keys_insert_le value refused map.bounded⟩)

variable (map : BoundedMap K V capacity) {key other : K} (value : V)

theorem put_refused (refused : map.Refuses key) :
    map.put key value = (false, map) :=
  dif_pos refused

theorem put_accepted (accepted : ¬ map.Refuses key) :
    (map.put key value).1 = true ∧
      (map.put key value).2.pairs = map.pairs.insert key value := by
  rw [put, dif_neg accepted]
  exact ⟨rfl, rfl⟩

theorem get_put_self (accepted : ¬ map.Refuses key) :
    (map.put key value).2.get key = some value := by
  rw [get, (map.put_accepted value accepted).2]
  exact AList.lookup_insert _

theorem get_put_ne (different : other ≠ key) :
    (map.put key value).2.get other = map.get other := by
  by_cases refused : map.Refuses key
  · rw [map.put_refused value refused]
  · rw [get, (map.put_accepted value refused).2]
    exact AList.lookup_insert_ne different

theorem mem_contents_iff {key : K} {value : V} :
    (key, value) ∈ map.contents ↔ map.get key = some value := by
  unfold contents get
  constructor
  · intro member
    obtain ⟨⟨held, stored⟩, inside, same⟩ := List.mem_map.mp member
    cases same
    exact AList.mem_lookup_iff.mpr inside
  · intro found
    exact List.mem_map.mpr ⟨⟨key, value⟩, AList.mem_lookup_iff.mp found, rfl⟩

theorem keys_contents : map.contents.map Prod.fst = map.pairs.keys := by
  unfold contents AList.keys List.keys
  rw [List.map_map]
  rfl

theorem nodup_contents : map.contents.Nodup := by
  apply List.Nodup.of_map Prod.fst
  rw [keys_contents]
  exact map.pairs.keys_nodup

theorem length_contents : map.contents.length = map.size := by
  rw [size, ← keys_contents, List.length_map]

end BoundedMap

end MatrixDB.Lib
