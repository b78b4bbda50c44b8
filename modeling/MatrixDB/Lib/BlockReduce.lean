import Mathlib.Data.List.Perm.Basic
import Mathlib.Logic.Function.Basic
import MatrixDB.Lib.GridLoop
import MatrixDB.Lib.Interleaving

/-!
# Reductions by blocks of threads

Every thread of a block adds what it has gathered to a cell that the block
shares; behind a barrier the block's first thread adds that cell to one that all
blocks share.  For an operation whose operands may be put in any order the
outcome does not depend on the schedule.
-/

namespace MatrixDB.Lib

variable {A : Type}

/-- Totals that start from a neutral value are added up item by item. -/
theorem foldl_totals {ι : Type} {op : A → A → A} [Std.Associative op] {e : A}
    (unit : ∀ x, op x e = x) (items : List ι) (parts : ι → List A) (out : A) :
    (items.map fun item => (parts item).foldl op e).foldl op out =
      (items.flatMap parts).foldl op out := by
  induction items generalizing out with
  | nil => rfl
  | cons item items induction =>
      have share : op out ((parts item).foldl op e) =
          (parts item).foldl op (op out e) :=
        List.foldl_assoc.symm
      rw [List.map_cons, List.foldl_cons, induction, List.flatMap_cons,
        List.foldl_append, share, unit]

/-- The atomic updates of a thread: of its block's cell and of the common
one. -/
inductive BlockStep where
  | shared (block thread : Nat)
  | global (block : Nat)
  deriving DecidableEq, Repr

structure BlockState (A : Type) where
  shared : Nat → A
  out : A

/-- A kernel that reduces into one cell: the atomic operation, what the
block's cell holds at first and what each thread gathers. -/
structure BlockReduce (A : Type) where
  atomic : A → A → A
  init : A
  gather : Nat → Nat → A

namespace BlockReduce

def step (K : BlockReduce A) (state : BlockState A) : BlockStep → BlockState A
  | .shared block thread =>
      { state with
        shared := Function.update state.shared block
          (K.atomic (state.shared block) (K.gather block thread)) }
  | .global block =>
      { state with out := K.atomic state.out (state.shared block) }

/-- What each thread has to do; the first of a block has two updates. -/
def programs (blocks threads : Nat) : List (List BlockStep) :=
  (gridThreads blocks threads).map fun (block, thread) =>
    .shared block thread :: if thread = 0 then [.global block] else []

/-- An order of the updates that the barrier of each block allows. -/
structure Schedule (blocks threads : Nat) (order : List BlockStep) : Prop where
  interleaves : Interleaves (programs blocks threads) order
  synced : ∀ front block back, order = front ++ .global block :: back →
    ∀ thread < threads, .shared block thread ∈ front

/-- The common cell after a launch. -/
def launch (K : BlockReduce A) (order : List BlockStep) (out : A) : A :=
  (order.foldl K.step { shared := fun _ => K.init, out := out }).out

/-! ## The updates of a schedule -/

def sharedOf (block : Nat) : BlockStep → Option Nat
  | .shared other thread => if other = block then some thread else none
  | .global _ => none

def globalOf : BlockStep → Option Nat
  | .shared _ _ => none
  | .global block => some block

theorem mem_programs {blocks threads : Nat} {update : BlockStep} :
    update ∈ (programs blocks threads).flatten ↔
      (∃ block < blocks, ∃ thread < threads, update = .shared block thread) ∨
        (0 < threads ∧ ∃ block < blocks, update = .global block) := by
  simp only [programs, gridThreads, List.mem_flatten, List.mem_map,
    List.mem_flatMap, List.mem_range, Prod.exists]
  constructor
  · rintro ⟨_, ⟨block, thread, ⟨other, inside, t, member, same⟩, rfl⟩, update⟩
    cases same
    rcases List.mem_cons.mp update with rfl | later
    · exact .inl ⟨_, inside, _, member, rfl⟩
    · split at later
      · rename_i first
        exact .inr ⟨first ▸ member, _, inside, List.mem_singleton.mp later⟩
      · cases later
  · rintro (⟨block, inside, thread, member, rfl⟩ | ⟨some, block, inside, rfl⟩)
    · exact ⟨_, ⟨block, thread, ⟨_, inside, _, member, rfl⟩, rfl⟩,
        List.mem_cons_self⟩
    · exact ⟨_, ⟨block, 0, ⟨_, inside, _, some, rfl⟩, rfl⟩, by simp⟩

theorem nodup_programs (blocks threads : Nat) :
    (programs blocks threads).flatten.Nodup := by
  have grid : (gridThreads blocks threads).Nodup := by
    have ids := map_globalId blocks threads
    exact List.Nodup.of_map _ (ids ▸ List.nodup_range)
  unfold programs
  rw [← List.flatMap_def]
  refine List.nodup_flatMap.mpr ⟨?_, ?_⟩
  · rintro ⟨block, thread⟩ _
    dsimp only
    split <;> simp
  · refine grid.imp ?_
    rintro ⟨block, thread⟩ ⟨other, place⟩ different update here there
    simp only [List.mem_cons] at here there
    rcases here with rfl | first
    · rcases there with same | second
      · cases same
        exact different rfl
      · split at second
        · cases List.mem_singleton.mp second
        · cases second
    · split at first
      · rename_i zero
        cases List.mem_singleton.mp first
        rcases there with same | second
        · cases same
        · split at second
          · rename_i zero'
            cases List.mem_singleton.mp second
            exact different (by rw [zero, zero'])
          · cases second
      · cases first

/-! ## The outcome -/

/-- A block's cell holds what its threads have added so far. -/
theorem shared_after (K : BlockReduce A) (order : List BlockStep)
    (state : BlockState A) (block : Nat) :
    (order.foldl K.step state).shared block =
      ((order.filterMap (sharedOf block)).map (K.gather block)).foldl K.atomic
        (state.shared block) := by
  induction order generalizing state with
  | nil => rfl
  | cons update order induction =>
      rw [List.foldl_cons, induction]
      cases update with
      | shared other thread =>
          by_cases own : other = block
          · subst own
            simp [step, sharedOf]
          · simp [step, sharedOf, own, Function.update_of_ne (Ne.symm own)]
      | global other =>
          rw [List.filterMap_cons_none (show sharedOf block (.global other) =
            none from rfl)]
          rfl

/-- What a block gathers in all. -/
def blockTotal (K : BlockReduce A) (threads block : Nat) : A :=
  ((List.range threads).map (K.gather block)).foldl K.atomic K.init

variable {K : BlockReduce A} [Std.Associative K.atomic]
  [Std.Commutative K.atomic] {blocks threads : Nat} {order : List BlockStep}

theorem Schedule.nodup (schedule : Schedule blocks threads order) :
    order.Nodup :=
  schedule.interleaves.perm.nodup_iff.mpr (nodup_programs blocks threads)

theorem Schedule.mem (schedule : Schedule blocks threads order)
    {update : BlockStep} :
    update ∈ order ↔ update ∈ (programs blocks threads).flatten :=
  schedule.interleaves.perm.mem_iff

/-- Behind the barrier every thread of the block has added its share. -/
theorem Schedule.shared_perm (schedule : Schedule blocks threads order)
    {front back : List BlockStep} {block : Nat}
    (same : order = front ++ .global block :: back) :
    (front.filterMap (sharedOf block)).Perm (List.range threads) := by
  have listed : ∀ thread, thread ∈ front.filterMap (sharedOf block) ↔
      .shared block thread ∈ front := by
    intro thread
    rw [List.mem_filterMap]
    constructor
    · rintro ⟨update, member, own⟩
      cases update with
      | shared other place =>
          simp only [sharedOf, Option.ite_none_right_eq_some,
            Option.some.injEq] at own
          rw [← own.1, ← own.2]
          exact member
      | global other => cases own
    · intro member
      exact ⟨_, member, by simp [sharedOf]⟩
  have once : (front.filterMap (sharedOf block)).Nodup := by
    have distinct := schedule.nodup
    rw [same] at distinct
    refine (List.nodup_append.mp distinct).1.filterMap ?_
    intro left right thread here there
    cases left with
    | shared other place =>
        cases right with
        | shared other' place' =>
            simp only [sharedOf, Option.mem_def, Option.ite_none_right_eq_some,
              Option.some.injEq] at here there
            rw [here.1, here.2, there.1, there.2]
        | global _ => cases there
    | global _ => cases here
  refine (List.perm_ext_iff_of_nodup once List.nodup_range).mpr ?_
  intro thread
  rw [listed, List.mem_range]
  constructor
  · intro member
    have mine := schedule.mem.mp (same ▸ List.mem_append_left _ member)
    rcases mem_programs.mp mine with
      ⟨_, _, _, inside, own⟩ | ⟨_, _, _, other⟩
    · cases own
      exact inside
    · cases other
  · exact schedule.synced front block back same thread

theorem Schedule.out_after (schedule : Schedule blocks threads order) (out : A)
    (front back : List BlockStep) (same : order = front ++ back) :
    (front.foldl K.step { shared := fun _ => K.init, out := out }).out =
      ((front.filterMap globalOf).map (K.blockTotal threads)).foldl K.atomic
        out := by
  induction front using List.reverseRecOn generalizing back with
  | nil => rfl
  | append_singleton front update induction =>
      have before := induction (update :: back) (by simpa using same)
      rw [List.foldl_append, List.foldl_cons, List.foldl_nil,
        List.filterMap_append]
      cases update with
      | shared block thread =>
          rw [List.filterMap_cons_none (show globalOf (.shared block thread) =
            none from rfl), List.filterMap_nil, List.append_nil]
          exact before
      | global block =>
          have all := schedule.shared_perm (same.trans (List.append_assoc ..))
          have total : (front.foldl K.step
              { shared := fun _ => K.init, out := out }).shared block =
              K.blockTotal threads block := by
            rw [shared_after]
            exact (all.map _).foldl_op_eq
          rw [List.filterMap_cons_some (show globalOf (.global block) =
            Option.some block from rfl)]
          simp only [step, before, total, List.filterMap_nil, List.map_append,
            List.map_cons, List.map_nil, List.foldl_append, List.foldl_cons,
            List.foldl_nil]

theorem Schedule.global_perm (schedule : Schedule blocks threads order)
    (some : 0 < threads) :
    (order.filterMap globalOf).Perm (List.range blocks) := by
  have once : (order.filterMap globalOf).Nodup := by
    refine schedule.nodup.filterMap ?_
    intro left right block here there
    cases left with
    | shared _ _ => cases here
    | global _ =>
        cases right with
        | shared _ _ => cases there
        | global _ =>
            cases here
            cases there
            rfl
  refine (List.perm_ext_iff_of_nodup once List.nodup_range).mpr ?_
  intro block
  rw [List.mem_filterMap, List.mem_range]
  constructor
  · rintro ⟨update, member, own⟩
    rcases mem_programs.mp (schedule.mem.mp member) with
      ⟨_, _, _, _, rfl⟩ | ⟨_, _, inside, rfl⟩
    · cases own
    · cases own
      exact inside
  · intro inside
    exact ⟨_, schedule.mem.mpr (mem_programs.mpr
      (.inr ⟨some, block, inside, rfl⟩)), rfl⟩

/-- A launch adds up what all threads have gathered, under every schedule. -/
theorem launch_eq (schedule : Schedule blocks threads order)
    (unit : ∀ x, K.atomic x K.init = x) (some : 0 < threads) (out : A) :
    K.launch order out =
      ((gridThreads blocks threads).map fun thread =>
        K.gather thread.1 thread.2).foldl K.atomic out := by
  have whole := schedule.out_after (K := K) out order []
    (List.append_nil order).symm
  have ordered : ((order.filterMap globalOf).map
      (K.blockTotal threads)).foldl K.atomic out =
      ((List.range blocks).map (K.blockTotal threads)).foldl K.atomic out :=
    ((schedule.global_perm some).map _).foldl_op_eq
  have total : K.blockTotal threads = fun block =>
      ((List.range threads).map (K.gather block)).foldl K.atomic K.init := rfl
  rw [launch, whole, ordered, total, foldl_totals unit]
  simp only [gridThreads, List.map_flatMap, List.map_map]
  rfl

/-! ## A schedule -/

/-- One block after another, the first thread of each last. -/
def sequential (blocks others : Nat) : List BlockStep :=
  (List.range blocks).flatMap fun block =>
    (List.range others).map (fun thread => .shared block (thread + 1)) ++
      [.shared block 0, .global block]

theorem programs_eq (blocks others : Nat) :
    programs blocks (others + 1) =
      (List.range blocks).flatMap fun block =>
        [.shared block 0, .global block] ::
          (List.range others).map fun thread => [.shared block (thread + 1)] := by
  simp only [programs, gridThreads, List.map_flatMap, List.range_succ_eq_map,
    List.map_cons, List.map_map]
  rfl

theorem sequential_eq (blocks others : Nat) :
    sequential blocks others =
      ((List.range blocks).flatMap fun block =>
        ((List.range others).map fun thread =>
          [BlockStep.shared block (thread + 1)]) ++
            [[.shared block 0, .global block]]).flatten := by
  have single : ∀ (block : Nat) (list : List Nat),
      (list.map fun thread => [BlockStep.shared block (thread + 1)]).flatten =
        list.map fun thread => .shared block (thread + 1) := by
    intro block list
    induction list with
    | nil => rfl
    | cons thread list induction => simp [induction]
  unfold sequential
  induction List.range blocks with
  | nil => rfl
  | cons block list induction =>
      simp only [List.flatMap_cons, List.flatten_append, induction, single]
      rfl

theorem schedule_sequential (blocks others : Nat) :
    Schedule blocks (others + 1) (sequential blocks others) := by
  have runs : Interleaves (programs blocks (others + 1))
      (sequential blocks others) := by
    rw [sequential_eq, programs_eq]
    apply interleaves_of_perm
    apply List.Perm.flatMap_left
    intro block _
    exact List.perm_append_singleton _ _
  refine ⟨runs, ?_⟩
  intro front block back same thread small
  have member : BlockStep.global block ∈ sequential blocks others := by
    rw [same]
    simp
  have inside : block ∈ List.range blocks := by
    simpa [sequential] using member
  obtain ⟨before, after, split⟩ := List.append_of_mem inside
  have cut : sequential blocks others =
      (before.flatMap (fun block =>
          (List.range others).map (fun thread => .shared block (thread + 1)) ++
            [.shared block 0, .global block]) ++
        ((List.range others).map (fun thread => .shared block (thread + 1)) ++
          [.shared block 0])) ++
        .global block :: after.flatMap (fun block =>
          (List.range others).map (fun thread => .shared block (thread + 1)) ++
            [.shared block 0, .global block]) := by
    simp [sequential, split]
  have once : (sequential blocks others).Nodup :=
    runs.perm.nodup_iff.mpr (nodup_programs _ _)
  rw [same] at once
  have apart := List.nodup_append.mp once
  have fresh := List.nodup_cons.mp apart.2.1
  have absent : BlockStep.global block ∉ front := by
    intro again
    exact apart.2.2 _ again _ List.mem_cons_self rfl
  obtain ⟨first, _, _⟩ :=
    (List.append_cons_inj_of_notMem absent fresh.1).mp (same.symm.trans cut)
  rw [first]
  apply List.mem_append_right
  cases thread with
  | zero => exact List.mem_append_right _ List.mem_cons_self
  | succ thread =>
      apply List.mem_append_left
      exact List.mem_map.mpr ⟨thread, List.mem_range.mpr (by omega), rfl⟩

end BlockReduce

end MatrixDB.Lib
