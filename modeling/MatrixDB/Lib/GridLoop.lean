import Mathlib.Data.List.Nodup
import Mathlib.Data.List.Perm.Basic
import Mathlib.Data.List.Range
import Mathlib.Data.Nat.ModEq

/-!
# Grid-stride loops

A grid of threads goes through the indices below a bound.  Thread by thread the
indices are visited once, also where a thread takes several of them in a row.
-/

namespace MatrixDB.Lib

/-- `for (i = start; i < n; i += stride)`. -/
def strideLoop (n stride start : Nat) : List Nat :=
  if start < n ∧ 0 < stride then
    start :: strideLoop n stride (start + stride)
  else []
termination_by n - start
decreasing_by omega

theorem strideLoop_of_le {n stride start : Nat} (large : n ≤ start) :
    strideLoop n stride start = [] := by
  rw [strideLoop, if_neg]
  omega

theorem strideLoop_of_lt {n stride start : Nat} (small : start < n)
    (positive : 0 < stride) :
    strideLoop n stride start =
      start :: strideLoop n stride (start + stride) := by
  conv_lhs => rw [strideLoop, if_pos ⟨small, positive⟩]

/-- An induction on the rounds a loop still has to go. -/
theorem strideLoop_induction {n stride : Nat} {P : Nat → Prop}
    (positive : 0 < stride) (beyond : ∀ start, n ≤ start → P start)
    (round : ∀ start, start < n → P (start + stride) → P start)
    (start : Nat) : P start := by
  induction left : n - start using Nat.strongRecOn generalizing start with
  | ind left induction =>
      by_cases small : start < n
      · exact round start small
          (induction (n - (start + stride)) (by omega) _ rfl)
      · exact beyond start (Nat.not_lt.mp small)

theorem mem_strideLoop {n stride start i : Nat} (positive : 0 < stride) :
    i ∈ strideLoop n stride start ↔
      i < n ∧ ∃ round, i = start + round * stride := by
  induction start using strideLoop_induction (n := n) positive with
  | beyond start large =>
      rw [strideLoop_of_le large]
      constructor
      · intro member
        cases member
      · rintro ⟨small, round, rfl⟩
        omega
  | round start small induction =>
      rw [strideLoop_of_lt small positive, List.mem_cons, induction]
      constructor
      · rintro (rfl | ⟨inside, round, rfl⟩)
        · exact ⟨small, 0, by omega⟩
        · refine ⟨inside, round + 1, ?_⟩
          rw [Nat.succ_mul]
          omega
      · rintro ⟨inside, round, rfl⟩
        cases round with
        | zero => exact .inl (by omega)
        | succ round =>
            refine .inr ⟨inside, round, ?_⟩
            rw [Nat.succ_mul]
            omega

theorem nodup_strideLoop (n stride start : Nat) :
    (strideLoop n stride start).Nodup := by
  by_cases positive : 0 < stride
  · induction start using strideLoop_induction (n := n) positive with
    | beyond start large =>
        rw [strideLoop_of_le large]
        exact List.nodup_nil
    | round start small induction =>
        rw [strideLoop_of_lt small positive]
        refine List.nodup_cons.mpr ⟨?_, induction⟩
        intro again
        obtain ⟨_, round, same⟩ := (mem_strideLoop positive).mp again
        omega
  · rw [strideLoop, if_neg fun both => positive both.2]
    exact List.nodup_nil

/-- The loops of as many threads as the stride is wide visit every index
once. -/
theorem strideLoop_perm {n stride : Nat} (positive : 0 < stride) :
    ((List.range stride).flatMap (strideLoop n stride)).Perm
      (List.range n) := by
  have once : ((List.range stride).flatMap (strideLoop n stride)).Nodup := by
    refine List.nodup_flatMap.mpr ⟨fun _ _ => nodup_strideLoop _ _ _, ?_⟩
    refine List.nodup_range.imp_of_mem ?_
    intro left right first second different i here there
    obtain ⟨_, round, rfl⟩ := (mem_strideLoop positive).mp here
    obtain ⟨_, other, same⟩ := (mem_strideLoop positive).mp there
    have residue := congrArg (· % stride) same
    simp only [Nat.add_mul_mod_self_right] at residue
    rw [Nat.mod_eq_of_lt (List.mem_range.mp first),
      Nat.mod_eq_of_lt (List.mem_range.mp second)] at residue
    exact different residue
  refine (List.perm_ext_iff_of_nodup once List.nodup_range).mpr ?_
  intro i
  rw [List.mem_flatMap, List.mem_range]
  constructor
  · rintro ⟨start, _, member⟩
    exact ((mem_strideLoop positive).mp member).1
  · intro small
    refine ⟨i % stride, List.mem_range.mpr (Nat.mod_lt i positive), ?_⟩
    refine (mem_strideLoop positive).mpr ⟨small, i / stride, ?_⟩
    exact (Nat.mod_add_div' i stride).symm

/-! ## Several items in a round -/

/-- `items` rounds at a time: each round's items are a stride apart, and those
beyond the bound are left out. -/
theorem strideLoop_rounds {n stride : Nat} (positive : 0 < stride)
    (items start : Nat) :
    strideLoop n stride start =
      ((List.range items).map (start + · * stride)).filter (· < n) ++
        strideLoop n stride (start + items * stride) := by
  induction items generalizing start with
  | zero => simp
  | succ items induction =>
      have shift : ∀ k, start + stride + k * stride =
          start + (k + 1) * stride := by
        intro k
        rw [Nat.succ_mul]
        omega
      have onward := induction (start + stride)
      rw [shift] at onward
      rw [List.range_succ_eq_map, List.map_cons, List.map_map, Nat.zero_mul,
        Nat.add_zero]
      by_cases small : start < n
      · rw [strideLoop_of_lt small positive, onward,
          List.filter_cons_of_pos (by simpa using small), List.cons_append]
        simp only [Function.comp_def, shift, Nat.succ_eq_add_one]
      · have large : n ≤ start := Nat.not_lt.mp small
        have further : n ≤ start + (items + 1) * stride := by omega
        rw [strideLoop_of_le large, strideLoop_of_le further, List.append_nil,
          List.filter_cons_of_neg (by simpa using large)]
        symm
        refine List.filter_eq_nil_iff.mpr ?_
        intro i member
        obtain ⟨k, _, rfl⟩ := List.mem_map.mp member
        simp only [Function.comp_apply, decide_eq_true_eq]
        omega

/-- A loop over chunks of `items` strides visits what the plain loop does. -/
theorem strideLoop_chunks {n stride items : Nat} (positive : 0 < stride)
    (some : 0 < items) (start : Nat) :
    ((strideLoop n (stride * items) start).flatMap fun base =>
        ((List.range items).map (base + · * stride)).filter (· < n)) =
      strideLoop n stride start := by
  have chunk : 0 < stride * items := Nat.mul_pos positive some
  induction start using strideLoop_induction (n := n) chunk with
  | beyond start large =>
      rw [strideLoop_of_le large, strideLoop_of_le large]
      rfl
  | round start small induction =>
      rw [strideLoop_of_lt small chunk, List.flatMap_cons, induction,
        Nat.mul_comm stride items]
      exact (strideLoop_rounds positive items start).symm

/-! ## Threads of a grid -/

/-- The threads of a grid, by block and by place in the block. -/
def gridThreads (gridDim blockDim : Nat) : List (Nat × Nat) :=
  (List.range gridDim).flatMap fun block =>
    (List.range blockDim).map fun thread => (block, thread)

/-- `blockIdx.x * blockDim.x + threadIdx.x`. -/
def globalId (blockDim : Nat) (thread : Nat × Nat) : Nat :=
  thread.1 * blockDim + thread.2

theorem map_globalId (gridDim blockDim : Nat) :
    (gridThreads gridDim blockDim).map (globalId blockDim) =
      List.range (gridDim * blockDim) := by
  induction gridDim with
  | zero => simp [gridThreads]
  | succ gridDim induction =>
      unfold gridThreads at induction ⊢
      rw [List.range_succ, List.flatMap_append, List.map_append, induction,
        Nat.succ_mul, List.range_add]
      simp [globalId]

/-- The grid-stride loops of all threads visit every index once. -/
theorem gridLoop_perm {n gridDim blockDim : Nat} (blocks : 0 < gridDim)
    (threads : 0 < blockDim) :
    ((gridThreads gridDim blockDim).flatMap fun thread =>
        strideLoop n (gridDim * blockDim) (globalId blockDim thread)).Perm
      (List.range n) := by
  have positive : 0 < gridDim * blockDim := Nat.mul_pos blocks threads
  rw [← List.flatMap_map (globalId blockDim), map_globalId]
  exact strideLoop_perm positive

end MatrixDB.Lib
