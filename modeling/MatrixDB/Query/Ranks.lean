import MatrixDB.Catalog.Dictionaries
import MatrixDB.Lib.SortedRanks
import MatrixDB.Query.Parser

/-!
# Codes are ranks

The dictionary of a column is sorted and has no repetitions, so the code of a
string, its index, compares as the string does.  The two binary searches find
the code where the strings stop being below, or not above, a literal.
-/

namespace MatrixDB

open Lib Catalog

/-- The code of a string of a dictionary. -/
def codeOf (dict : List Bytes) (s : Bytes) : UInt32 :=
  UInt32.ofNat (dict.idxOf s)

/-! ## The dictionary of a list of strings -/

theorem sortedDict_sorted (data : List Bytes) :
    (sortedDict data).Pairwise (· < ·) := by
  have ordered : (data.mergeSort fun left right => decide (left ≤ right)).Pairwise
      fun left right => decide (left ≤ right) = true := by
    apply List.pairwise_mergeSort
    · intro a b c first second
      exact decide_eq_true
        (Std.le_trans (of_decide_eq_true first) (of_decide_eq_true second))
    · intro a b
      simpa using Std.le_total (a := a) (b := b)
  apply pairwise_destutter_ne
  exact ordered.imp fun below => of_decide_eq_true below

@[simp] theorem mem_sortedDict {data : List Bytes} {s : Bytes} :
    s ∈ sortedDict data ↔ s ∈ data := by
  rw [sortedDict, mem_destutter_ne, List.mem_mergeSort]

theorem sortedDict_of_sorted {data : List Bytes}
    (sorted : data.Pairwise (· < ·)) : sortedDict data = data := by
  have ordered : data.Pairwise fun left right => decide (left ≤ right) = true :=
    sorted.imp fun below => decide_eq_true (Std.le_of_lt below)
  rw [sortedDict, List.mergeSort_of_pairwise ordered,
    destutter_ne_of_sorted sorted]

/-! ## Encoding -/

/-- A string has the code of its first index. -/
theorem lookup_encoderOf (dict : List Bytes) (s : Bytes) :
    (encoderOf dict).lookup s =
      if s ∈ dict then some (codeOf dict s) else none := by
  induction dict using List.reverseRecOn with
  | nil => rfl
  | append_singleton dict last induction =>
      rw [encoderOf_concat]
      by_cases member : s ∈ dict
      · have index : (dict ++ [last]).idxOf s = dict.idxOf s := by
          rw [List.idxOf_append, if_pos member]
        rw [if_pos member] at induction
        rw [if_pos (List.mem_append_left [last] member), codeOf, index]
        split
        · exact induction
        · rename_i absent
          have other : s ≠ last := by
            rintro rfl
            rw [induction] at absent
            exact absent rfl
          rw [AList.lookup_insert_ne other]
          exact induction
      · rw [if_neg member] at induction
        by_cases own : s = last
        · subst own
          have index : (dict ++ [s]).idxOf s = dict.length := by
            rw [List.idxOf_append, if_neg member]
            simp
          have last : s ∈ dict ++ [s] :=
            List.mem_append_right dict (List.mem_singleton_self s)
          rw [if_pos last, codeOf, index, induction, Option.isSome_none,
            if_neg Bool.false_ne_true, AList.lookup_insert]
        · have absent : s ∉ dict ++ [last] := by
            simp [member, own]
          rw [if_neg absent]
          split
          · exact induction
          · rw [AList.lookup_insert_ne own]
            exact induction

theorem length_keys_encoderOf {dict : List Bytes} (nodup : dict.Nodup) :
    (encoderOf dict).keys.length = dict.length := by
  induction dict using List.reverseRecOn with
  | nil => rfl
  | append_singleton dict last induction =>
      obtain ⟨nodup, _, apart⟩ := List.nodup_append.mp nodup
      have absent : last ∉ dict := by
        intro member
        exact apart last member last (by simp) rfl
      have unknown : (encoderOf dict).lookup last = none := by
        rw [lookup_encoderOf, if_neg absent]
      rw [encoderOf_concat, unknown, if_neg (by simp),
        AList.insert_of_notMem (AList.lookup_eq_none.mp unknown),
        List.length_append, ← induction nodup]
      rfl

/-! ## Searching -/

/-- A search among the strings from `first` on, when the answer is there. -/
theorem boundLoop_splits {right : Bytes → Bool} {dict : List Bytes}
    (closed : ∀ i j, (before : i ≤ j) → (inside : j < dict.length) →
      right dict[j] → right dict[i])
    {fuel first len : Nat} (enough : len ≤ fuel)
    (fits : first + len ≤ dict.length)
    (before : ∀ i, (early : i < first) → right dict[i])
    (behind : ∀ i, (inside : i < dict.length) → first + len ≤ i →
      ¬ right dict[i]) :
    Splits (fun s => right s) dict (boundLoop right dict fuel first len) := by
  have done : ∀ first, first ≤ dict.length →
      (∀ i, (early : i < first) → (inside : i < dict.length) →
        right dict[i]) →
      (∀ i, (inside : i < dict.length) → first ≤ i → ¬ right dict[i]) →
      Splits (fun s => right s) dict first := by
    intro first fits before behind
    refine ⟨fits, ?_⟩
    intro i inside
    constructor
    · intro holds
      exact Nat.not_le.mp fun late => behind i inside late holds
    · intro early
      exact before i early inside
  induction fuel generalizing first len with
  | zero =>
      obtain rfl : len = 0 := Nat.le_zero.mp enough
      exact done first fits (fun i early _ => before i early) behind
  | succ fuel induction =>
      unfold boundLoop
      split
      · rename_i none
        subst none
        exact done first fits (fun i early _ => before i early) behind
      · rename_i some
        have middle : first + len / 2 < dict.length := by omega
        simp only [List.getD_eq_getElem _ _ middle]
        split
        · rename_i holds
          apply induction (by omega) (by omega)
          · intro i early
            exact closed i (first + len / 2) (by omega) middle holds
          · intro i inside late
            exact behind i inside (by omega)
        · rename_i fails
          apply induction (by omega) (by omega) before
          intro i inside late holds
          exact fails (closed (first + len / 2) i late inside holds)

theorem lowerBound_splits {dict : List Bytes}
    (sorted : dict.Pairwise (· < ·)) (x : Bytes) :
    ∃ r, Splits (· < x) dict r ∧ lowerBound dict x = UInt32.ofNat r := by
  refine ⟨_, ?_, rfl⟩
  have splits : Splits (fun s => decide (s < x) = true) dict
      (boundLoop (fun s => decide (s < x)) dict dict.length 0 dict.length) := by
    refine boundLoop_splits ?_ (Nat.le_refl _) (by omega) ?_ ?_
    · intro i j before inside below
      exact decide_eq_true (Std.lt_of_le_of_lt
        (getElem_le_of_sorted sorted before inside) (of_decide_eq_true below))
    · intro i early
      exact absurd early (Nat.not_lt_zero i)
    · intro i inside late
      omega
  simpa only [decide_eq_true_eq] using splits

theorem upperBound_splits {dict : List Bytes}
    (sorted : dict.Pairwise (· < ·)) (x : Bytes) :
    ∃ r, Splits (· ≤ x) dict r ∧ upperBound dict x = UInt32.ofNat r := by
  refine ⟨_, ?_, rfl⟩
  have splits : Splits (fun s => (!decide (x < s)) = true) dict
      (boundLoop (fun s => !decide (x < s)) dict dict.length 0
        dict.length) := by
    refine boundLoop_splits ?_ (Nat.le_refl _) (by omega) ?_ ?_
    · intro i j before inside below
      simp only [Bool.not_eq_true', decide_eq_false_iff_not, Std.not_lt]
        at below ⊢
      exact Std.le_trans (getElem_le_of_sorted sorted before inside) below
    · intro i early
      exact absurd early (Nat.not_lt_zero i)
    · intro i inside late
      omega
  simpa only [Bool.not_eq_true', decide_eq_false_iff_not, Std.not_lt]
    using splits

/-! ## Codes of a dictionary -/

/-- A dictionary as `load_string_column_dict` makes it. -/
structure Ranked (dict : List Bytes) : Prop where
  sorted : dict.Pairwise (· < ·)
  countable : dict.length < 4294967296

namespace Ranked

variable {dict : List Bytes} (ranked : Ranked dict) {s : Bytes}
  (member : s ∈ dict)

include ranked

theorem toNat_ofNat {r : Nat} (bounded : r ≤ dict.length) :
    (UInt32.ofNat r).toNat = r := by
  apply UInt32.toNat_ofNat_of_lt'
  exact Nat.lt_of_le_of_lt bounded ranked.countable

include member

theorem toNat_codeOf : (codeOf dict s).toNat = dict.idxOf s :=
  ranked.toNat_ofNat (Nat.le_of_lt (List.idxOf_lt_length_of_mem member))

theorem codeOf_lt {holds : Bytes → Prop} {r : Nat}
    (splits : Splits holds dict r) :
    codeOf dict s < UInt32.ofNat r ↔ holds s := by
  rw [UInt32.lt_iff_toNat_lt, ranked.toNat_codeOf member,
    ranked.toNat_ofNat splits.bounded, splits.rank member]

theorem codeOf_lt_lowerBound (x : Bytes) :
    codeOf dict s < lowerBound dict x ↔ s < x := by
  obtain ⟨r, splits, found⟩ := lowerBound_splits ranked.sorted x
  rw [found, ranked.codeOf_lt member splits]

theorem codeOf_lt_upperBound (x : Bytes) :
    codeOf dict s < upperBound dict x ↔ s ≤ x := by
  obtain ⟨r, splits, found⟩ := upperBound_splits ranked.sorted x
  rw [found, ranked.codeOf_lt member splits]

theorem codeOf_inj {t : Bytes} (member' : t ∈ dict) :
    codeOf dict s = codeOf dict t ↔ s = t := by
  rw [← UInt32.toNat_inj, ranked.toNat_codeOf member,
    ranked.toNat_codeOf member', List.idxOf_inj member]

/-- The code past the last one is of no string. -/
theorem codeOf_ne_length : codeOf dict s ≠ UInt32.ofNat dict.length := by
  intro same
  have numbers := congrArg UInt32.toNat same
  rw [ranked.toNat_codeOf member, ranked.toNat_ofNat (Nat.le_refl _)]
    at numbers
  exact absurd (List.idxOf_lt_length_of_mem member) (by omega)

theorem decode : dict.getD (codeOf dict s).toNat [] = s := by
  have inside := List.idxOf_lt_length_of_mem member
  rw [ranked.toNat_codeOf member, List.getD_eq_getElem _ _ inside,
    List.getElem_idxOf inside]

end Ranked

theorem ranked_sortedDict {data : List Bytes}
    (countable : (sortedDict data).length < 4294967296) :
    Ranked (sortedDict data) :=
  ⟨sortedDict_sorted data, countable⟩

end MatrixDB
