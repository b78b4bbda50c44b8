import Mathlib.Data.List.Basic
import Mathlib.Data.List.Induction
import MatrixDB.ColdStore.Units

/-!
# Replaying a torn log

What a record makes `replay` apply is said of its position in the log: an
auto-commit put stands for itself, a marker for the transactional puts since the
marker before it.  A file that is cut anywhere applies what stands at the
positions whose records lie wholly in it.
-/

namespace MatrixDB

open Lib

/-- The file after the calls of `append_put`, `append_txn_put` and
`append_commit`. -/
def appendCalls (file : Bytes) (records : List WalRecord) : Bytes :=
  records.foldl (fun file record => file ++ record.encode) file

theorem appendCalls_eq (file : Bytes) (records : List WalRecord) :
    appendCalls file records = file ++ encodeAll records := by
  induction records generalizing file with
  | nil => exact (List.append_nil file).symm
  | cons record records induction =>
      have next := induction (file ++ record.encode)
      rw [List.append_assoc] at next
      exact next

/-! ## What stands at a position -/

/-- The pair of a transactional put. -/
def WalRecord.txnWrite : WalRecord → Option (UInt64 × UInt64)
  | .txnPut key value => some (key, value)
  | _ => none

/-- The transactional puts behind the last marker, in the order they were
appended. -/
def pendingPuts (records : List WalRecord) : List (UInt64 × UInt64) :=
  (records.reverse.takeWhile (· != .commit)).reverse.filterMap
    WalRecord.txnWrite

/-- What `replay` applies for the record at a position. -/
def appliedAt (records : List WalRecord) (position : Nat) :
    List (UInt64 × UInt64) :=
  match records[position]? with
  | some (.put key value) => [(key, value)]
  | some .commit => pendingPuts (records.take position)
  | _ => []

theorem pendingPuts_append (records : List WalRecord) (record : WalRecord) :
    pendingPuts (records ++ [record]) =
      if record = .commit then []
      else pendingPuts records ++ record.txnWrite.toList := by
  unfold pendingPuts
  rw [List.reverse_append, List.reverse_singleton, List.singleton_append]
  cases record with
  | commit => rfl
  | put key value => simp [WalRecord.txnWrite]
  | txnPut key value => simp [WalRecord.txnWrite]

theorem appliedAt_append (records : List WalRecord) (record : WalRecord)
    {position : Nat} (inside : position < records.length) :
    appliedAt (records ++ [record]) position =
      appliedAt records position := by
  unfold appliedAt
  rw [List.getElem?_append_left inside,
    List.take_append_of_le_length (Nat.le_of_lt inside)]

theorem appliedAt_take (records : List WalRecord) {count position : Nat}
    (inside : position < count) :
    appliedAt (records.take count) position = appliedAt records position := by
  have least : min position count = position := by omega
  unfold appliedAt
  rw [List.getElem?_take_of_lt inside, List.take_take, least]

/-- The steps of `replay`, position by position. -/
theorem steps_eq (records : List WalRecord) :
    ReplayState.start.steps records =
      { applied :=
          (List.range records.length).flatMap (appliedAt records)
        txn := pendingPuts records } := by
  induction records using List.reverseRecOn with
  | nil => rfl
  | append_singleton records record induction =>
      have earlier : (List.range records.length).flatMap
            (appliedAt (records ++ [record])) =
          (List.range records.length).flatMap (appliedAt records) := by
        apply List.flatMap_congr
        intro position member
        exact appliedAt_append records record (List.mem_range.mp member)
      have last : appliedAt (records ++ [record]) records.length =
          match record with
          | .put key value => [(key, value)]
          | .commit => pendingPuts records
          | .txnPut _ _ => [] := by
        unfold appliedAt
        rw [List.getElem?_concat_length, List.take_left]
        cases record <;> rfl
      rw [ReplayState.steps, List.foldl_append, List.foldl_cons,
        List.foldl_nil]
      rw [show records.foldl ReplayState.step .start =
        ReplayState.start.steps records from rfl, induction,
        List.length_append, List.length_singleton, List.range_succ,
        List.flatMap_append, List.flatMap_singleton, earlier, last,
        pendingPuts_append]
      cases record with
      | put key value => simp [ReplayState.step, WalRecord.txnWrite]
      | txnPut key value => simp [ReplayState.step, WalRecord.txnWrite]
      | commit => simp [ReplayState.step]

/-! ## Where a file is cut -/

/-- The record at a position lies wholly in the first `extent` bytes. -/
def LiesIn (records : List WalRecord) (extent position : Nat) : Prop :=
  (encodeAll (records.take (position + 1))).length ≤ extent

instance (records : List WalRecord) (extent position : Nat) :
    Decidable (LiesIn records extent position) :=
  inferInstanceAs (Decidable (_ ≤ _))

/-- Wherever a log is cut, whole records are left and a torn one behind
them. -/
theorem take_encodeAll (records : List WalRecord) (extent : Nat) :
    ∃ count torn, count ≤ records.length ∧ TornPrefix torn ∧
      (encodeAll records).take extent =
        encodeAll (records.take count) ++ torn ∧
      ∀ position < records.length,
        LiesIn records extent position ↔ position < count := by
  induction records generalizing extent with
  | nil =>
      refine ⟨0, [], Nat.le_refl _, .inl rfl, List.take_nil, ?_⟩
      intro position inside
      cases inside
  | cons record records induction =>
      by_cases whole : record.encode.length ≤ extent
      · obtain ⟨count, torn, inside, tears, cut, lies⟩ :=
          induction (extent - record.encode.length)
        refine ⟨count + 1, torn, Nat.succ_le_succ inside, tears, ?_, ?_⟩
        · rw [encodeAll_cons, List.take_append,
            List.take_of_length_le whole, cut, List.take_succ_cons,
            encodeAll_cons, List.append_assoc]
        · intro position within
          unfold LiesIn at lies ⊢
          rw [List.take_succ_cons, encodeAll_cons, List.length_append]
          cases position with
          | zero =>
              simp only [List.take_zero, encodeAll_nil, List.length_nil,
                Nat.add_zero, Nat.zero_lt_succ, iff_true]
              exact whole
          | succ position =>
              have before := lies position (Nat.lt_of_succ_lt_succ within)
              rw [Nat.succ_lt_succ_iff, ← before]
              omega
      · have short : extent < record.encode.length := Nat.lt_of_not_le whole
        refine ⟨0, record.encode.take extent, Nat.zero_le _,
          tornPrefix_take record short, ?_, ?_⟩
        · rw [encodeAll_cons, List.take_append_of_le_length
            (Nat.le_of_lt short), List.take_zero, encodeAll_nil,
            List.nil_append]
        · intro position _
          unfold LiesIn
          rw [List.take_succ_cons, encodeAll_cons, List.length_append]
          omega

/-- Replaying a cut log applies what stands at the positions whose records lie
wholly in the file, in the order of the positions, and nothing else. -/
theorem replay_torn_exact (records : List WalRecord) (extent : Nat) :
    replay ((appendCalls [] records).take extent) =
      (List.range records.length).flatMap fun position =>
        if LiesIn records extent position then appliedAt records position
        else [] := by
  obtain ⟨count, torn, inside, tears, cut, lies⟩ :=
    take_encodeAll records extent
  have read : replay ((appendCalls [] records).take extent) =
      (List.range count).flatMap (appliedAt (records.take count)) := by
    rw [appendCalls_eq, List.nil_append, cut, replay, scan_torn _ tears,
      steps_eq, List.length_take, Nat.min_eq_left inside]
  have split : List.range records.length =
      List.range count ++ List.range' count (records.length - count) := by
    have joined := List.range'_append_1 (s := 0) (m := count)
      (n := records.length - count)
    rw [Nat.zero_add, Nat.add_sub_cancel' inside] at joined
    rw [List.range_eq_range', List.range_eq_range', joined]
  have wholly : (List.range count).flatMap (fun position =>
        if LiesIn records extent position then appliedAt records position
        else []) =
      (List.range count).flatMap (appliedAt (records.take count)) := by
    apply List.flatMap_congr
    intro position member
    have small := List.mem_range.mp member
    have within := (lies position (Nat.lt_of_lt_of_le small inside)).mpr small
    rw [if_pos within, appliedAt_take records small]
  have beyond : (List.range' count (records.length - count)).flatMap
        (fun position =>
          if LiesIn records extent position then appliedAt records position
          else []) = [] := by
    apply List.flatMap_eq_nil_iff.mpr
    intro position member
    obtain ⟨least, most⟩ := List.mem_range'_1.mp member
    have within : position < records.length := by omega
    have cutOff := mt (lies position within).mp (Nat.not_lt.mpr least)
    rw [if_neg cutOff]
  rw [read, split, List.flatMap_append, wholly, beyond, List.append_nil]

/-- A put between the puts of a group, and a cut inside the marker. -/
example : replay ((appendCalls []
    [.txnPut 1 10, .put 2 20, .txnPut 3 30, .commit]).take 95) =
      [(2, 20)] := by
  decide +kernel

end MatrixDB
