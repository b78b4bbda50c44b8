import MatrixDB.Lib.RefusingStore

/-!
# Open addressing with linear probing

A table is a list of slots, each empty or holding one entry.  A key starts at
its home slot and moves on by one, cyclically, until it meets an empty slot or
its own entry.  Nothing is ever removed, so the slots a key skipped stay
occupied by other keys: this is the invariant `ProbeSound`, and it makes the
table a finite map.
-/

namespace MatrixDB.Lib

abbrev Slots (K V : Type) := List (Option (K × V))

/-- The slot that probing from `home` looks at after `step` moves. -/
def probeAt (slotCount home step : Nat) : Nat := (home + step) % slotCount

/-- The slot is occupied by an entry of a different key. -/
def HoldsOther (slots : Slots K V) (key : K) (index : Nat) : Prop :=
  ∃ entry, slots[index]? = some (some entry) ∧ entry.1 ≠ key

/-- Probe at most `fuel` slots from `index` on and return the first one that
is empty or holds `key`. -/
def probeFrom [DecidableEq K] (slots : Slots K V) (key : K) :
    Nat → Nat → Option Nat
  | 0, _ => none
  | fuel + 1, index =>
      match slots[index]? with
      | some (some entry) =>
          if entry.1 = key then some index
          else probeFrom slots key fuel ((index + 1) % slots.length)
      | _ => some index

/-- Every entry is reached by probing from its home slot through slots held by
other keys. -/
def ProbeSound (home : K → Nat) (slots : Slots K V) : Prop :=
  ∀ index key value, slots[index]? = some (some (key, value)) →
    ∃ step, step < slots.length ∧
      index = probeAt slots.length (home key) step ∧
      ∀ earlier, earlier < step →
        HoldsOther slots key (probeAt slots.length (home key) earlier)

theorem probeAt_succ (slotCount home step : Nat) :
    (probeAt slotCount home step + 1) % slotCount =
      probeAt slotCount home (step + 1) := by
  simp [probeAt, Nat.add_assoc]

theorem probeAt_lt {slotCount : Nat} (positive : 0 < slotCount)
    (home step : Nat) : probeAt slotCount home step < slotCount :=
  Nat.mod_lt _ positive

/-- One round of probing visits every slot. -/
theorem probeAt_surjective {slotCount index : Nat} (home : Nat)
    (inside : index < slotCount) :
    ∃ step, step < slotCount ∧ index = probeAt slotCount home step := by
  have positive : 0 < slotCount := Nat.lt_of_le_of_lt (Nat.zero_le _) inside
  have homeInside : home % slotCount < slotCount := Nat.mod_lt _ positive
  refine ⟨(index + slotCount - home % slotCount) % slotCount,
    Nat.mod_lt _ positive, ?_⟩
  have folded : probeAt slotCount home
      ((index + slotCount - home % slotCount) % slotCount) =
        (home % slotCount + (index + slotCount - home % slotCount)) %
          slotCount := by
    simp [probeAt, Nat.add_mod]
  rw [folded]
  have total : home % slotCount + (index + slotCount - home % slotCount) =
      index + slotCount := by omega
  rw [total, Nat.add_mod_right, Nat.mod_eq_of_lt inside]

section Probe

variable {K V : Type} [DecidableEq K] {slots : Slots K V} {key : K}

/-- What a probe that stops has seen. -/
theorem probeFrom_eq_some {home step fuel index : Nat}
    (found : probeFrom slots key fuel (probeAt slots.length home step) =
      some index) :
    ∃ last, step ≤ last ∧ last < step + fuel ∧
      index = probeAt slots.length home last ∧
      ¬HoldsOther slots key index ∧
      ∀ earlier, step ≤ earlier → earlier < last →
        HoldsOther slots key (probeAt slots.length home earlier) := by
  induction fuel generalizing step with
  | zero => cases found
  | succ fuel induction =>
      simp only [probeFrom] at found
      split at found
      · rename_i entry occupied
        split at found
        · rename_i same
          cases found
          refine ⟨step, Nat.le_refl _, by omega, rfl, ?_, ?_⟩
          · rintro ⟨other, otherOccupied, different⟩
            rw [occupied] at otherOccupied
            cases otherOccupied
            exact different same
          · intro earlier atLeast below
            omega
        · rename_i different
          rw [probeAt_succ] at found
          obtain ⟨last, above, below, position, stopped, skipped⟩ :=
            induction found
          refine ⟨last, by omega, by omega, position, stopped, ?_⟩
          intro earlier atLeast before
          by_cases first : earlier = step
          · subst first
            exact ⟨entry, occupied, different⟩
          · exact skipped earlier (by omega) before
      · rename_i notEntry
        cases found
        refine ⟨step, Nat.le_refl _, by omega, rfl, ?_, ?_⟩
        · rintro ⟨other, otherOccupied, _⟩
          exact notEntry other otherOccupied
        · intro earlier atLeast below
          omega

/-- A probe that runs out of steps has seen only entries of other keys. -/
theorem probeFrom_eq_none {home step fuel : Nat}
    (missing : probeFrom slots key fuel (probeAt slots.length home step) =
      none) :
    ∀ later, step ≤ later → later < step + fuel →
      HoldsOther slots key (probeAt slots.length home later) := by
  induction fuel generalizing step with
  | zero =>
      intro later atLeast below
      omega
  | succ fuel induction =>
      simp only [probeFrom] at missing
      split at missing
      · rename_i entry occupied
        split at missing
        · cases missing
        · rename_i different
          rw [probeAt_succ] at missing
          intro later atLeast below
          by_cases first : later = step
          · subst first
            exact ⟨entry, occupied, different⟩
          · exact induction missing later (by omega) (by omega)
      · cases missing

/-- An entry of a sound table is where a probe for its key stops. -/
theorem probeFrom_of_entry {home : K → Nat} (sound : ProbeSound home slots)
    {index : Nat} {value : V}
    (stored : slots[index]? = some (some (key, value))) :
    probeFrom slots key slots.length (probeAt slots.length (home key) 0) =
      some index := by
  obtain ⟨step, inside, position, skipped⟩ := sound index key value stored
  have notOther : ¬HoldsOther slots key index := by
    rintro ⟨entry, occupied, different⟩
    rw [stored] at occupied
    cases occupied
    exact different rfl
  cases result : probeFrom slots key slots.length
      (probeAt slots.length (home key) 0) with
  | none =>
      have other := probeFrom_eq_none result step (by omega) (by omega)
      rw [← position] at other
      exact (notOther other).elim
  | some stop =>
      obtain ⟨last, _, lastInside, stopAt, stopped, before⟩ :=
        probeFrom_eq_some result
      have same : last = step := by
        rcases Nat.lt_trichotomy last step with below | equal | above
        · rw [stopAt] at stopped
          exact (stopped (skipped last below)).elim
        · exact equal
        · have other := before step (by omega) above
          rw [← position] at other
          exact (notOther other).elim
      rw [stopAt, same, ← position]

end Probe

section Entries

variable {K V : Type}

/-- The live entries in slot order. -/
def entries (slots : Slots K V) : List (K × V) := slots.filterMap id

theorem mem_entries_iff {slots : Slots K V} {entry : K × V} :
    entry ∈ entries slots ↔ ∃ index : Nat, slots[index]? = some (some entry) := by
  simp only [entries, List.mem_filterMap, id_eq, exists_eq_right]
  exact List.mem_iff_getElem?

/-- The table is full when no slot is empty. -/
def ProbeFull (slots : Slots K V) : Prop := none ∉ slots

theorem probeFull_iff {slots : Slots K V} :
    ProbeFull slots ↔ (entries slots).length = slots.length := by
  induction slots with
  | nil => simp [ProbeFull, entries]
  | cons slot slots induction =>
      cases slot with
      | none =>
          have shorter : (slots.filterMap id).length ≤ slots.length :=
            List.length_filterMap_le id slots
          have skipped : entries (none :: slots) = slots.filterMap id := rfl
          rw [skipped, List.length_cons]
          constructor
          · intro full
            exact absurd List.mem_cons_self full
          · intro equal
            omega
      | some entry =>
          simpa [ProbeFull, entries] using induction

/-- Filling an empty slot adds one entry; overwriting an entry adds none. -/
theorem length_entries_set {slots : Slots K V} {index : Nat} {entry : K × V}
    (inside : index < slots.length) :
    (entries (slots.set index (some entry))).length =
      (entries slots).length + (if slots[index] = none then 1 else 0) := by
  have split : slots =
      slots.take index ++ slots[index] :: slots.drop (index + 1) := by
    rw [List.getElem_cons_drop, List.take_append_drop]
  rw [List.set_eq_take_append_cons_drop, if_pos inside]
  generalize slots.take index = front at *
  generalize slots.drop (index + 1) = back at *
  generalize slots[index] = slot at *
  rw [split]
  cases slot with
  | none =>
      simp [entries]
      omega
  | some old => simp [entries]

end Entries

section Table

variable {K V : Type} [DecidableEq K]

/-- Look a key up by probing from its home slot. -/
def probeGet (home : K → Nat) (slots : Slots K V) (key : K) : Option V :=
  match probeFrom slots key slots.length
      (probeAt slots.length (home key) 0) with
  | some index =>
      match slots[index]? with
      | some (some entry) => some entry.2
      | _ => none
  | none => none

/-- Write a key at the slot its probe stops at; no slot means the table is
full of other keys. -/
def probePut (home : K → Nat) (slots : Slots K V) (key : K) (value : V) :
    Option (Slots K V) :=
  (probeFrom slots key slots.length (probeAt slots.length (home key) 0)).map
    fun index => slots.set index (some (key, value))

variable {home : K → Nat} {slots : Slots K V}

theorem probeGet_eq_some_iff (sound : ProbeSound home slots)
    {key : K} {value : V} :
    probeGet home slots key = some value ↔ (key, value) ∈ entries slots := by
  rw [mem_entries_iff]
  constructor
  · intro found
    simp only [probeGet] at found
    split at found
    · rename_i index stop
      split at found
      · rename_i entry occupied
        cases found
        obtain ⟨_, _, _, _, stopped, _⟩ := probeFrom_eq_some stop
        have same : entry.1 = key := by
          apply Decidable.byContradiction
          intro different
          exact stopped ⟨entry, occupied, different⟩
        exact ⟨index, by rw [occupied, ← same]⟩
      · cases found
    · cases found
  · rintro ⟨index, stored⟩
    simp [probeGet, probeFrom_of_entry sound stored, stored]

theorem probeGet_eq_none_iff (sound : ProbeSound home slots) {key : K} :
    probeGet home slots key = none ↔
      ∀ entry ∈ entries slots, entry.1 ≠ key := by
  constructor
  · intro missing entry member same
    subst same
    rw [(probeGet_eq_some_iff sound).mpr member] at missing
    cases missing
  · intro others
    cases found : probeGet home slots key with
    | none => rfl
    | some value =>
        have member := (probeGet_eq_some_iff sound).mp found
        exact (others _ member rfl).elim

/-- Where a successful write lands. -/
theorem probePut_eq_some {key : K} {value : V} {updated : Slots K V}
    (positive : 0 < slots.length)
    (written : probePut home slots key value = some updated) :
    ∃ step, step < slots.length ∧
      probeAt slots.length (home key) step < slots.length ∧
      updated = slots.set (probeAt slots.length (home key) step)
        (some (key, value)) ∧
      ¬HoldsOther slots key (probeAt slots.length (home key) step) ∧
      ∀ earlier, earlier < step →
        HoldsOther slots key (probeAt slots.length (home key) earlier) := by
  simp only [probePut, Option.map_eq_some_iff] at written
  obtain ⟨index, stop, rfl⟩ := written
  obtain ⟨last, _, inside, rfl, stopped, before⟩ := probeFrom_eq_some stop
  exact ⟨last, by omega, probeAt_lt positive _ _, rfl, stopped,
    fun earlier below => before earlier (by omega) below⟩

/-- Writing into a slot that no other key holds keeps the slots held by other
keys held. -/
theorem HoldsOther.set {key written : K} {value : V} {target index : Nat}
    (inside : target < slots.length)
    (free : ¬HoldsOther slots written target)
    (other : HoldsOther slots key index) :
    HoldsOther (slots.set target (some (written, value))) key index := by
  obtain ⟨entry, occupied, different⟩ := other
  by_cases same : target = index
  · subst same
    have entryKey : entry.1 = written := by
      apply Decidable.byContradiction
      intro otherKey
      exact free ⟨entry, occupied, otherKey⟩
    refine ⟨(written, value), ?_, ?_⟩
    · simp [inside]
    · rw [← entryKey]
      exact different
  · exact ⟨entry, by rw [List.getElem?_set_ne same]; exact occupied,
      different⟩

theorem probePut_sound (sound : ProbeSound home slots)
    (positive : 0 < slots.length) {key : K} {value : V}
    {updated : Slots K V}
    (written : probePut home slots key value = some updated) :
    ProbeSound home updated := by
  obtain ⟨step, inside, target, rfl, free, skipped⟩ :=
    probePut_eq_some positive written
  intro index storedKey storedValue stored
  simp only [List.length_set]
  by_cases same : probeAt slots.length (home key) step = index
  · rw [← same, List.getElem?_set_self target] at stored
    cases stored
    exact ⟨step, inside, same.symm, fun earlier below =>
      (skipped earlier below).set target free⟩
  · rw [List.getElem?_set_ne same] at stored
    obtain ⟨oldStep, oldInside, position, oldSkipped⟩ :=
      sound index storedKey storedValue stored
    exact ⟨oldStep, oldInside, position, fun earlier below =>
      (oldSkipped earlier below).set target free⟩

theorem probePut_length {key : K} {value : V} {updated : Slots K V}
    (written : probePut home slots key value = some updated) :
    updated.length = slots.length := by
  simp only [probePut, Option.map_eq_some_iff] at written
  obtain ⟨index, _, rfl⟩ := written
  simp

theorem probeGet_put_self (sound : ProbeSound home slots)
    (positive : 0 < slots.length) {key : K} {value : V}
    {updated : Slots K V}
    (written : probePut home slots key value = some updated) :
    probeGet home updated key = some value := by
  have updatedSound := probePut_sound sound positive written
  obtain ⟨step, _, target, rfl, _, _⟩ := probePut_eq_some positive written
  rw [probeGet_eq_some_iff updatedSound, mem_entries_iff]
  exact ⟨_, List.getElem?_set_self target⟩

theorem mem_entries_put_iff (positive : 0 < slots.length)
    {key : K} {value : V} {updated : Slots K V}
    (written : probePut home slots key value = some updated)
    {entry : K × V} (different : entry.1 ≠ key) :
    entry ∈ entries updated ↔ entry ∈ entries slots := by
  obtain ⟨step, _, target, rfl, free, _⟩ := probePut_eq_some positive written
  simp only [mem_entries_iff]
  constructor
  · rintro ⟨index, stored⟩
    by_cases same : probeAt slots.length (home key) step = index
    · rw [← same, List.getElem?_set_self target] at stored
      cases stored
      exact (different rfl).elim
    · rw [List.getElem?_set_ne same] at stored
      exact ⟨index, stored⟩
  · rintro ⟨index, stored⟩
    refine ⟨index, ?_⟩
    rw [List.getElem?_set_ne, stored]
    intro same
    subst same
    exact free ⟨entry, stored, different⟩

theorem probeGet_put_ne (sound : ProbeSound home slots)
    (positive : 0 < slots.length) {key other : K} {value : V}
    {updated : Slots K V}
    (written : probePut home slots key value = some updated)
    (different : other ≠ key) :
    probeGet home updated other = probeGet home slots other := by
  have updatedSound := probePut_sound sound positive written
  apply Option.ext
  intro stored
  rw [probeGet_eq_some_iff updatedSound, probeGet_eq_some_iff sound]
  exact mem_entries_put_iff positive written different

/-- A write fails exactly when the table is full and misses the key. -/
theorem probePut_eq_none_iff (sound : ProbeSound home slots)
    (positive : 0 < slots.length) (key : K) (value : V) :
    probePut home slots key value = none ↔
      ProbeFull slots ∧ probeGet home slots key = none := by
  simp only [probePut, Option.map_eq_none_iff]
  constructor
  · intro missing
    have others := probeFrom_eq_none missing
    refine ⟨?_, by simp [probeGet, missing]⟩
    intro empty
    obtain ⟨index, inside, isEmpty⟩ := List.mem_iff_getElem.mp empty
    obtain ⟨step, stepInside, position⟩ :=
      probeAt_surjective (home key) inside
    obtain ⟨entry, occupied, _⟩ := others step (by omega) (by omega)
    rw [← position, List.getElem?_eq_getElem inside, isEmpty] at occupied
    cases occupied
  · rintro ⟨full, absent⟩
    cases stop : probeFrom slots key slots.length
        (probeAt slots.length (home key) 0) with
    | none => rfl
    | some index =>
        obtain ⟨last, _, _, position, stopped, _⟩ := probeFrom_eq_some stop
        have inside : index < slots.length := by
          rw [position]
          exact probeAt_lt positive _ _
        cases slot : slots[index] with
        | none =>
            have member : none ∈ slots :=
              List.mem_iff_getElem.mpr ⟨index, inside, slot⟩
            exact (full member).elim
        | some entry =>
            have occupied : slots[index]? = some (some entry) := by
              rw [List.getElem?_eq_getElem inside, slot]
            have entryKey : entry.1 = key := by
              apply Decidable.byContradiction
              intro different
              exact stopped ⟨entry, occupied, different⟩
            have member : entry ∈ entries slots :=
              mem_entries_iff.mpr ⟨index, occupied⟩
            exact ((probeGet_eq_none_iff sound).mp absent entry member
              entryKey).elim

/-- Keys occur once among the entries of a sound table. -/
theorem nodup_entries_keys (sound : ProbeSound home slots) :
    ((entries slots).map Prod.fst).Nodup := by
  have uniqueIndex : ∀ {key : K} {left right : Nat} {first second : V},
      slots[left]? = some (some (key, first)) →
      slots[right]? = some (some (key, second)) → left = right := by
    intro key left right first second leftStored rightStored
    have leftStop := probeFrom_of_entry sound leftStored
    rw [probeFrom_of_entry sound rightStored] at leftStop
    exact (Option.some.inj leftStop).symm
  rw [List.Nodup, List.pairwise_map, entries, List.pairwise_filterMap,
    List.pairwise_iff_getElem]
  intro left right leftInside rightInside ordered first firstStored second
    secondStored sameKey
  have leftEntry : slots[left]? = some (some (first.1, first.2)) := by
    rw [List.getElem?_eq_getElem leftInside]
    exact congrArg some firstStored
  have rightEntry : slots[right]? = some (some (first.1, second.2)) := by
    rw [List.getElem?_eq_getElem rightInside, sameKey]
    exact congrArg some secondStored
  have := uniqueIndex leftEntry rightEntry
  omega

theorem nodup_entries (sound : ProbeSound home slots) :
    (entries slots).Nodup :=
  List.Pairwise.of_map Prod.fst (fun _ _ different same =>
    different (congrArg Prod.fst same)) (nodup_entries_keys sound)

theorem length_entries_put (sound : ProbeSound home slots)
    (positive : 0 < slots.length) {key : K} {value : V}
    {updated : Slots K V}
    (written : probePut home slots key value = some updated) :
    (entries updated).length = (entries slots).length +
      (if probeGet home slots key = none then 1 else 0) := by
  obtain ⟨step, _, target, rfl, free, _⟩ := probePut_eq_some positive written
  rw [length_entries_set target]
  congr 1
  cases slot : slots[probeAt slots.length (home key) step] with
  | none =>
      have absent : probeGet home slots key = none := by
        cases found : probeGet home slots key with
        | none => rfl
        | some old =>
            obtain ⟨index, stored⟩ := mem_entries_iff.mp
              ((probeGet_eq_some_iff sound).mp found)
            simp only [probePut, probeFrom_of_entry sound stored,
              Option.map_some, Option.some.injEq] at written
            have sameSlot := congrArg
              (fun table => table[probeAt slots.length (home key) step]?)
              written
            by_cases same :
                index = probeAt slots.length (home key) step
            · rw [same, List.getElem?_eq_getElem target, slot] at stored
              cases stored
            · simp [List.getElem?_set_ne same, List.getElem?_set_self target,
                List.getElem?_eq_getElem target, slot] at sameSlot
      simp [absent]
  | some entry =>
      have occupied : slots[probeAt slots.length (home key) step]? =
          some (some entry) := by
        rw [List.getElem?_eq_getElem target, slot]
      have entryKey : entry.1 = key := by
        apply Decidable.byContradiction
        intro different
        exact free ⟨entry, occupied, different⟩
      have present : probeGet home slots key = some entry.2 := by
        rw [probeGet_eq_some_iff sound, ← entryKey, mem_entries_iff]
        exact ⟨_, occupied⟩
      simp [present]

/-- Sound tables with the same contents have the same number of entries. -/
theorem length_entries_congr {left right : Slots K V}
    (leftSound : ProbeSound home left) (rightSound : ProbeSound home right)
    (same : ∀ key, probeGet home left key = probeGet home right key) :
    (entries left).length = (entries right).length := by
  apply List.Perm.length_eq
  rw [List.perm_ext_iff_of_nodup (nodup_entries leftSound)
    (nodup_entries rightSound)]
  intro entry
  rw [← probeGet_eq_some_iff leftSound, ← probeGet_eq_some_iff rightSound,
    same]

end Table

end MatrixDB.Lib
