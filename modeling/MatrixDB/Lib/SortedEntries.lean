import Mathlib.Data.List.Nodup
import MatrixDB.Lib.RefusingStore

/-!
# Entries in the order of their keys

An ordered map as the list of its entries.  A range of keys is walked from its
lower bound on, and the entries of an unordered map, sorted by key, are the
entries of the ordered map with the same contents.
-/

namespace MatrixDB.Lib

variable {K V : Type} [LT K]

/-- Every key stands once, behind the smaller ones. -/
def Ascending (entries : List (K × V)) : Prop :=
  entries.Pairwise fun earlier later => earlier.1 < later.1

theorem Ascending.keys_nodup [LE K] [Std.LawfulOrderLT K]
    {entries : List (K × V)}
    (ascending : Ascending entries) : (entries.map Prod.fst).Nodup := by
  rw [List.Nodup, List.pairwise_map]
  apply List.Pairwise.imp _ ascending
  intro earlier later less same
  rw [same] at less
  exact Std.lt_irrefl less

section
variable [DecidableLT K] [DecidableEq K]

/-- Assign to a key. -/
def insertEntry (key : K) (value : V) : List (K × V) → List (K × V)
  | [] => [(key, value)]
  | entry :: later =>
      if key < entry.1 then (key, value) :: entry :: later
      else if key = entry.1 then (key, value) :: later
      else entry :: insertEntry key value later

theorem mem_insertEntry {key : K} {value : V} {entry : K × V}
    {entries : List (K × V)} (member : entry ∈ insertEntry key value entries) :
    entry = (key, value) ∨ entry ∈ entries := by
  induction entries with
  | nil =>
      left
      exact List.mem_singleton.mp member
  | cons first later induction =>
      unfold insertEntry at member
      split at member
      · exact List.mem_cons.mp member
      · split at member
        · rcases List.mem_cons.mp member with new | old
          · exact .inl new
          · exact .inr (List.mem_cons_of_mem _ old)
        · rcases List.mem_cons.mp member with old | deeper
          · right
            rw [old]
            exact List.mem_cons_self
          · rcases induction deeper with new | old
            · exact .inl new
            · exact .inr (List.mem_cons_of_mem _ old)

variable [LE K] [Std.IsLinearOrder K] [Std.LawfulOrderLT K]

theorem Ascending.insertEntry {entries : List (K × V)}
    (ascending : Ascending entries) (key : K) (value : V) :
    Ascending (insertEntry key value entries) := by
  induction entries with
  | nil => exact List.pairwise_singleton _ _
  | cons first later induction =>
      obtain ⟨least, rest⟩ := List.pairwise_cons.mp ascending
      unfold Lib.insertEntry
      split
      · rename_i before
        apply List.Pairwise.cons _ ascending
        intro entry member
        rcases List.mem_cons.mp member with same | behind
        · rw [same]
          exact before
        · exact Std.lt_trans before (least entry behind)
      · rename_i notBefore
        split
        · rename_i same
          apply List.Pairwise.cons _ rest
          rw [same]
          exact least
        · rename_i different
          apply List.Pairwise.cons _ (induction rest)
          intro entry member
          rcases mem_insertEntry member with new | old
          · rw [new]
            apply Std.lt_of_le_of_ne (Std.not_lt.mp notBefore)
            exact fun same => different same.symm
          · exact least entry old

/-- What an ordered map holds after an assignment. -/
theorem mem_insertEntry_iff {entries : List (K × V)}
    (ascending : Ascending entries) {key other : K} {value stored : V} :
    (other, stored) ∈ insertEntry key value entries ↔
      if other = key then stored = value else (other, stored) ∈ entries := by
  induction entries with
  | nil =>
      rw [insertEntry, List.mem_singleton, Prod.mk.injEq]
      split <;> simp_all
  | cons first later induction =>
      obtain ⟨least, rest⟩ := List.pairwise_cons.mp ascending
      have smaller : ∀ {k : K} {v : V}, (k, v) ∈ later → first.1 < k :=
        fun member => least _ member
      unfold insertEntry
      split
      · rename_i before
        rw [List.mem_cons, Prod.mk.injEq]
        split
        · rename_i same
          subst same
          constructor
          · rintro (new | old)
            · exact new.2
            · rcases List.mem_cons.mp old with at_first | behind
              · rw [← at_first] at before
                exact absurd before Std.lt_irrefl
              · exact absurd (Std.lt_trans before (smaller behind))
                  Std.lt_irrefl
          · intro new
            exact .inl ⟨rfl, new⟩
        · rename_i different
          simp [different]
      · split
        · rename_i same
          rw [List.mem_cons, List.mem_cons, Prod.mk.injEq]
          split
          · rename_i equal
            subst equal
            constructor
            · rintro (new | behind)
              · exact new.2
              · have less := smaller behind
                rw [same] at less
                exact absurd less Std.lt_irrefl
            · intro new
              exact .inl ⟨rfl, new⟩
          · rename_i different
            have notFirst : (other, stored) ≠ first := by
              intro at_first
              rw [same, ← at_first] at different
              exact different rfl
            simp [different, notFirst]
        · rename_i notEqual
          rw [List.mem_cons, List.mem_cons, induction rest]
          split
          · rename_i equal
            subst equal
            have notFirst : (other, stored) ≠ first := by
              intro at_first
              rw [← at_first] at notEqual
              exact notEqual rfl
            simp [notFirst]
          · rfl

/-- The map built from a list of entries. -/
theorem Ascending.insertAll {entries : List (K × V)}
    (ascending : Ascending entries) (added : List (K × V)) :
    Ascending (added.foldl
      (fun built entry => Lib.insertEntry entry.1 entry.2 built) entries) := by
  induction added generalizing entries with
  | nil => exact ascending
  | cons first later induction =>
      exact induction (ascending.insertEntry first.1 first.2)

theorem mem_insertAll_iff {entries added : List (K × V)}
    (ascending : Ascending entries) (nodup : (added.map Prod.fst).Nodup)
    {key : K} {value : V} :
    (key, value) ∈ added.foldl
        (fun built entry => insertEntry entry.1 entry.2 built) entries ↔
      (key, value) ∈ added ∨
        (key ∉ added.map Prod.fst ∧ (key, value) ∈ entries) := by
  induction added generalizing entries with
  | nil => simp
  | cons first later induction =>
      obtain ⟨once, rest⟩ := List.nodup_cons.mp nodup
      rw [List.foldl_cons, induction (ascending.insertEntry _ _) rest,
        mem_insertEntry_iff ascending]
      by_cases same : key = first.1
      · subst same
        have notLater : (first.1, value) ∉ later := fun member =>
          once (List.mem_map.mpr ⟨_, member, rfl⟩)
        simp [once, notLater, Prod.ext_iff]
      · have notFirst : (key, value) ≠ first := by
          intro equal
          rw [← equal] at same
          exact same rfl
        simp [same, notFirst]

/-- What an ordered map holds after any writes. -/
theorem mem_insertWrites_iff {entries writes : List (K × V)}
    (ascending : Ascending entries) {key : K} {value : V} :
    (key, value) ∈ writes.foldl
        (fun built write => insertEntry write.1 write.2 built) entries ↔
      lastWrite key writes = some value ∨
        lastWrite key writes = none ∧ (key, value) ∈ entries := by
  induction writes generalizing entries with
  | nil => simp [lastWrite]
  | cons write writes induction =>
      rw [List.foldl_cons, induction (ascending.insertEntry _ _),
        mem_insertEntry_iff ascending, lastWrite]
      cases last : lastWrite key writes with
      | some newer => simp
      | none =>
          by_cases same : key = write.1
          · subst same
            simp [eq_comm]
          · have different : ¬ write.1 = key := fun equal => same equal.symm
            simp [same, different]

end

/-! ## Ranges -/

variable [LE K] [DecidableLE K]

/-- From the lower bound of `lo` up to `hi`. -/
def walkRange [DecidableLT K] (lo hi : K) (entries : List (K × V)) :
    List (K × V) :=
  (entries.dropWhile fun entry => entry.1 < lo).takeWhile
    fun entry => entry.1 ≤ hi

def sortByKey (entries : List (K × V)) : List (K × V) :=
  entries.mergeSort fun left right => left.1 ≤ right.1

variable [Std.IsLinearOrder K] [Std.LawfulOrderLT K]

/-- Walking an ordered map visits exactly the keys of the range. -/
theorem walkRange_eq_filter [DecidableLT K] {entries : List (K × V)}
    (ascending : Ascending entries) (lo hi : K) :
    walkRange lo hi entries =
      entries.filter fun entry => lo ≤ entry.1 && entry.1 ≤ hi := by
  induction entries with
  | nil => rfl
  | cons first later induction =>
      obtain ⟨least, rest⟩ := List.pairwise_cons.mp ascending
      unfold walkRange
      rw [List.dropWhile_cons, List.filter_cons]
      by_cases below : first.1 < lo
      · have outside : ¬ lo ≤ first.1 := Std.not_le.mpr below
        simp only [below, outside, decide_true, decide_false, if_true,
          Bool.false_and, Bool.false_eq_true, if_false]
        exact induction rest
      · -- Behind the lower bound only the upper one cuts.
        have inside : lo ≤ first.1 := Std.not_lt.mp below
        have above : ∀ entry ∈ later, lo ≤ entry.1 := fun entry member =>
          Std.le_trans inside (Std.le_of_lt (least entry member))
        simp only [below, inside, decide_false, decide_true,
          Bool.false_eq_true, if_false, Bool.true_and, List.takeWhile_cons]
        split
        · rename_i reached
          congr 1
          rw [← induction rest, walkRange]
          cases later with
          | nil => rfl
          | cons second others =>
              have stays : ¬ second.1 < lo :=
                Std.not_lt.mpr (above second List.mem_cons_self)
              simp [stays]
        · rename_i passed
          symm
          rw [List.filter_eq_nil_iff]
          intro entry member within
          simp only [Bool.and_eq_true, decide_eq_true_eq] at within passed
          exact passed (Std.le_trans (Std.le_of_lt (least entry member))
            within.2)

/-! ## Sorting -/

/-- Sorting an unordered map gives the ordered map with the same contents. -/
theorem sortByKey_eq {entries ordered : List (K × V)}
    (ascending : Ascending ordered) (nodup : (entries.map Prod.fst).Nodup)
    (same : ∀ entry, entry ∈ entries ↔ entry ∈ ordered) :
    sortByKey entries = ordered := by
  have sorted : ordered.Pairwise
      (fun left right => decide (left.1 ≤ right.1) = true) := by
    apply List.Pairwise.imp _ ascending
    intro left right less
    exact decide_eq_true (Std.le_of_lt less)
  have sortedOther : (sortByKey entries).Pairwise
      (fun left right => decide (left.1 ≤ right.1) = true) := by
    apply List.pairwise_mergeSort
    · intro first second third before after
      simp only [decide_eq_true_eq] at before after ⊢
      exact Std.le_trans before after
    · intro first second
      rw [Bool.or_eq_true, decide_eq_true_eq, decide_eq_true_eq]
      exact Std.le_total
  have permuted : (sortByKey entries).Perm ordered := by
    apply List.Perm.trans (List.mergeSort_perm _ _)
    exact (List.perm_ext_iff_of_nodup nodup.of_map
      ascending.keys_nodup.of_map).mpr same
  apply permuted.eq_of_pairwise _ sortedOther sorted
  intro left right inLeft inRight before after
  simp only [decide_eq_true_eq] at before after
  have member : left ∈ ordered := permuted.mem_iff.mp inLeft
  -- Equal keys make equal entries, as no key stands twice.
  exact List.inj_on_of_nodup_map ascending.keys_nodup member inRight
    (Std.le_antisymm before after)

/-- Ordered maps with the same entries are equal. -/
theorem Ascending.ext {left right : List (K × V)} (leftSorted : Ascending left)
    (rightSorted : Ascending right)
    (same : ∀ entry, entry ∈ left ↔ entry ∈ right) : left = right := by
  have nodup := leftSorted.keys_nodup
  calc
    left = sortByKey left :=
      (sortByKey_eq leftSorted nodup fun _ => Iff.rfl).symm
    _ = right := sortByKey_eq rightSorted nodup same

end MatrixDB.Lib
