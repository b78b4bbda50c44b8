/-!
# Stores that may refuse a key

A bounded store accepts every write to a key it already holds and refuses a
new key once it is full.  It never forgets a key, so a refusal is final.  The
laws below are all that replaying a list of writes needs: replay depends only
on the contents of the store, and replaying a list a second time on top of
its own result changes nothing.
-/

namespace MatrixDB.Lib

/-- A store with its lookup, its write (a refused write returns the store as
it is) and the laws of refusal. -/
structure RefusingStore (S K V : Type) where
  get : S → K → Option V
  put : S → K → V → S
  full : S → Prop
  get_put_ne : ∀ {store key other} value, other ≠ key →
    get (put store key value) other = get store other
  get_put_self : ∀ {store key} value, ¬(full store ∧ get store key = none) →
    get (put store key value) key = some value
  put_refused : ∀ {store key} value, full store → get store key = none →
    put store key value = store
  full_put : ∀ {store key} value, full store → full (put store key value)
  full_congr : ∀ {left right}, (∀ key, get left key = get right key) →
    (full left ↔ full right)

/-- The value of the last write to `key` in a list of writes. -/
def lastWrite [DecidableEq K] (key : K) : List (K × V) → Option V
  | [] => none
  | (written, value) :: later =>
      match lastWrite key later with
      | some newer => some newer
      | none => if written = key then some value else none

theorem lastWrite_append [DecidableEq K] (key : K)
    (earlier later : List (K × V)) :
    lastWrite key (earlier ++ later) =
      (lastWrite key later).or (lastWrite key earlier) := by
  induction earlier with
  | nil => simp [lastWrite]
  | cons write earlier induction =>
      simp only [List.cons_append, lastWrite, induction]
      cases lastWrite key later <;> simp

@[simp] theorem lastWrite_singleton [DecidableEq K]
    (key written : K) (value : V) :
    lastWrite key [(written, value)] =
      if written = key then some value else none := rfl

theorem mem_of_lastWrite [DecidableEq K] {key : K} {value : V}
    {writes : List (K × V)} (found : lastWrite key writes = some value) :
    (key, value) ∈ writes := by
  induction writes with
  | nil => cases found
  | cons write writes induction =>
      simp only [lastWrite] at found
      split at found
      · rename_i newer later
        cases found
        exact List.mem_cons_of_mem _ (induction later)
      · split at found
        · rename_i same
          cases found
          subst same
          exact List.mem_cons_self
        · cases found

theorem lastWrite_eq_none_iff [DecidableEq K] {key : K}
    {writes : List (K × V)} :
    lastWrite key writes = none ↔ ∀ write ∈ writes, write.1 ≠ key := by
  induction writes with
  | nil => simp [lastWrite]
  | cons write writes induction =>
      simp only [lastWrite, List.forall_mem_cons]
      cases later : lastWrite key writes with
      | none =>
          have absent := induction.mp later
          simp only [ite_eq_right_iff, reduceCtorEq, imp_false]
          exact ⟨fun different => ⟨different, absent⟩, fun both => both.1⟩
      | some newer =>
          have member := mem_of_lastWrite later
          simp only [reduceCtorEq, false_iff, not_and]
          intro _ absent
          exact absent _ member rfl

/-- Only the writes to the key matter. -/
theorem lastWrite_filter [DecidableEq K] (key : K) (writes : List (K × V)) :
    lastWrite key (writes.filter fun write => write.1 = key) =
      lastWrite key writes := by
  induction writes with
  | nil => rfl
  | cons write writes induction =>
      by_cases same : write.1 = key
      · simp [same, lastWrite, induction]
      · simp only [same, decide_false, Bool.false_eq_true, not_false_eq_true,
          List.filter_cons_of_neg, induction, lastWrite, if_false]
        cases lastWrite key writes <;> rfl

namespace RefusingStore

variable {S K V : Type} (ops : RefusingStore S K V)

/-- Two stores hold the same contents. -/
def SameMap (left right : S) : Prop :=
  ∀ key, ops.get left key = ops.get right key

/-- Apply a list of writes in order, dropping the refused ones. -/
def replay (store : S) (writes : List (K × V)) : S :=
  writes.foldl (fun current write => ops.put current write.1 write.2) store

@[simp] theorem replay_nil (store : S) : ops.replay store [] = store := rfl

@[simp] theorem replay_cons (store : S) (write : K × V)
    (writes : List (K × V)) :
    ops.replay store (write :: writes) =
      ops.replay (ops.put store write.1 write.2) writes := rfl

theorem replay_append (store : S) (earlier later : List (K × V)) :
    ops.replay store (earlier ++ later) =
      ops.replay (ops.replay store earlier) later := by
  simp [replay]

theorem SameMap.refl (store : S) : ops.SameMap store store :=
  fun _ => rfl

theorem SameMap.symm {left right : S} (same : ops.SameMap left right) :
    ops.SameMap right left :=
  fun key => (same key).symm

theorem SameMap.trans {left middle right : S}
    (first : ops.SameMap left middle) (second : ops.SameMap middle right) :
    ops.SameMap left right :=
  fun key => (first key).trans (second key)

/-- A write acts on the contents only. -/
theorem put_sameMap [DecidableEq K] {left right : S}
    (same : ops.SameMap left right) (key : K) (value : V) :
    ops.SameMap (ops.put left key value) (ops.put right key value) := by
  intro other
  by_cases equal : other = key
  · subst other
    by_cases refused : ops.full left ∧ ops.get left key = none
    · have rightFull := (ops.full_congr same).mp refused.1
      have rightAbsent : ops.get right key = none :=
        (same key).symm.trans refused.2
      rw [ops.put_refused value refused.1 refused.2,
        ops.put_refused value rightFull rightAbsent]
      exact same key
    · have rightAccepts : ¬(ops.full right ∧ ops.get right key = none) := by
        rw [← ops.full_congr same, ← same key]
        exact refused
      rw [ops.get_put_self value refused, ops.get_put_self value rightAccepts]
  · rw [ops.get_put_ne value equal, ops.get_put_ne value equal]
    exact same other

theorem replay_sameMap [DecidableEq K] {left right : S}
    (same : ops.SameMap left right) (writes : List (K × V)) :
    ops.SameMap (ops.replay left writes) (ops.replay right writes) := by
  induction writes generalizing left right with
  | nil => exact same
  | cons write writes induction =>
      exact induction (ops.put_sameMap same write.1 write.2)

theorem full_replay {store : S} (full : ops.full store)
    (writes : List (K × V)) : ops.full (ops.replay store writes) := by
  induction writes generalizing store with
  | nil => exact full
  | cons write writes induction =>
      exact induction (ops.full_put write.2 full)

/-- A key the store holds keeps being held. -/
theorem isSome_put [DecidableEq K] {store : S} {key : K}
    (held : (ops.get store key).isSome) (written : K) (value : V) :
    (ops.get (ops.put store written value) key).isSome := by
  by_cases equal : key = written
  · subst written
    have accepted : ¬(ops.full store ∧ ops.get store key = none) := by
      intro refused
      simp [refused.2] at held
    simp [ops.get_put_self value accepted]
  · rw [ops.get_put_ne value equal]
    exact held

/-- The contents after a replay that starts from a store holding `key`. -/
theorem get_replay_of_held [DecidableEq K] {store : S} {key : K}
    (held : (ops.get store key).isSome) (writes : List (K × V)) :
    ops.get (ops.replay store writes) key =
      (lastWrite key writes).or (ops.get store key) := by
  induction writes generalizing store with
  | nil => simp [lastWrite]
  | cons write writes induction =>
      rw [replay_cons, induction (ops.isSome_put held write.1 write.2)]
      simp only [lastWrite]
      cases lastWrite key writes with
      | some newer => simp
      | none =>
          by_cases equal : write.1 = key
          · subst key
            have accepted :
                ¬(ops.full store ∧ ops.get store write.1 = none) := by
              intro refused
              simp [refused.2] at held
            simp [ops.get_put_self write.2 accepted]
          · have different : key ≠ write.1 := fun same => equal same.symm
            simp [equal, ops.get_put_ne write.2 different]

/-- Every key of a replayed list is held afterwards, unless the store ended
up full. -/
theorem held_or_full_of_replay [DecidableEq K] (store : S)
    (writes : List (K × V)) :
    ∀ write ∈ writes,
      (ops.get (ops.replay store writes) write.1).isSome ∨
        ops.full (ops.replay store writes) := by
  induction writes generalizing store with
  | nil => simp
  | cons first writes induction =>
      intro write member
      rw [replay_cons]
      rcases List.mem_cons.mp member with head | tail
      · subst head
        by_cases refused : ops.full store ∧ ops.get store write.1 = none
        · right
          exact ops.full_replay (ops.full_put write.2 refused.1) writes
        · left
          have held :
              (ops.get (ops.put store write.1 write.2) write.1).isSome := by
            simp [ops.get_put_self write.2 refused]
          rw [ops.get_replay_of_held held]
          cases lastWrite write.1 writes <;> simp [held]
      · exact induction _ write tail

/-- Writes to other keys leave a key alone. -/
theorem get_replay_of_untouched {store : S} {key : K}
    {writes : List (K × V)} (others : ∀ write ∈ writes, write.1 ≠ key) :
    ops.get (ops.replay store writes) key = ops.get store key := by
  induction writes generalizing store with
  | nil => rfl
  | cons write writes induction =>
      have different : key ≠ write.1 := fun same =>
        others write (by simp) same.symm
      rw [replay_cons, induction (fun later member =>
        others later (List.mem_cons_of_mem _ member)),
        ops.get_put_ne write.2 different]

/-- A full store keeps missing the keys it misses. -/
theorem get_replay_of_refused {store : S} {key : K} [DecidableEq K]
    (full : ops.full store) (absent : ops.get store key = none)
    (writes : List (K × V)) :
    ops.get (ops.replay store writes) key = none := by
  induction writes generalizing store with
  | nil => exact absent
  | cons write writes induction =>
      apply induction (ops.full_put write.2 full)
      by_cases equal : key = write.1
      · subst key
        rw [ops.put_refused write.2 full absent]
        exact absent
      · rw [ops.get_put_ne write.2 equal]
        exact absent

/-- A key that ends up held was never refused: it holds its last write. -/
theorem get_replay_of_held_after [DecidableEq K] {store : S} {key : K}
    (writes : List (K × V))
    (held : (ops.get (ops.replay store writes) key).isSome) :
    ops.get (ops.replay store writes) key =
      (lastWrite key writes).or (ops.get store key) := by
  induction writes generalizing store with
  | nil => simp [lastWrite]
  | cons write writes induction =>
      rw [replay_cons] at held ⊢
      rw [induction held]
      simp only [lastWrite]
      cases lastWrite key writes with
      | some newer => simp
      | none =>
          by_cases equal : write.1 = key
          · subst key
            by_cases refused : ops.full store ∧ ops.get store write.1 = none
            · have unchanged : ops.put store write.1 write.2 = store :=
                ops.put_refused write.2 refused.1 refused.2
              rw [unchanged] at held
              rw [ops.get_replay_of_refused refused.1 refused.2] at held
              cases held
            · simp [ops.get_put_self write.2 refused]
          · have different : key ≠ write.1 := fun same => equal same.symm
            simp [equal, ops.get_put_ne write.2 different]

/-- While the store is not full, the contents are the last writes. -/
theorem get_replay_of_not_full [DecidableEq K] {store : S}
    {writes : List (K × V)} (room : ¬ops.full (ops.replay store writes))
    (key : K) :
    ops.get (ops.replay store writes) key =
      (lastWrite key writes).or (ops.get store key) := by
  cases stored : ops.get (ops.replay store writes) key with
  | some value =>
      rw [← stored]
      apply ops.get_replay_of_held_after
      simp [stored]
  | none =>
      have untouched : lastWrite key writes = none := by
        cases found : lastWrite key writes with
        | none => rfl
        | some value =>
            rcases ops.held_or_full_of_replay store writes _
                (mem_of_lastWrite found) with held | full
            · simp [stored] at held
            · exact (room full).elim
      rw [untouched, Option.none_or, ← stored]
      exact ops.get_replay_of_untouched (lastWrite_eq_none_iff.mp untouched)

/-- Replaying a list on top of its own result changes nothing, refused keys
included. -/
theorem replay_replay_sameMap [DecidableEq K] (store : S)
    (writes : List (K × V)) :
    ops.SameMap (ops.replay (ops.replay store writes) writes)
      (ops.replay store writes) := by
  intro key
  cases stored : ops.get (ops.replay store writes) key with
  | some value =>
      have held : (ops.get (ops.replay store writes) key).isSome := by
        simp [stored]
      rw [ops.get_replay_of_held held, stored]
      have last := ops.get_replay_of_held_after writes held
      rw [stored] at last
      cases newest : lastWrite key writes with
      | none => simp
      | some newer =>
          rw [newest] at last
          simpa using last.symm
  | none =>
      by_cases written : lastWrite key writes = none
      · rw [ops.get_replay_of_untouched (lastWrite_eq_none_iff.mp written)]
        exact stored
      · obtain ⟨value, found⟩ := Option.ne_none_iff_exists'.mp written
        rcases ops.held_or_full_of_replay store writes _
            (mem_of_lastWrite found) with held | full
        · simp [stored] at held
        · exact ops.get_replay_of_refused full stored writes

/-- The last write to each key of a list is stored already, or refused. -/
def Absorbs [DecidableEq K] (store : S) (writes : List (K × V)) : Prop :=
  ∀ key value, lastWrite key writes = some value →
    ops.get store key = some value ∨
      ops.full store ∧ ops.get store key = none

/-- A list changes nothing exactly if the store absorbs it. -/
theorem replay_sameMap_self_iff [DecidableEq K] {store : S}
    {writes : List (K × V)} :
    ops.SameMap (ops.replay store writes) store ↔ ops.Absorbs store writes := by
  constructor
  · intro same key value last
    have after := same key
    cases held : ops.get store key with
    | some stored =>
        have kept : (ops.get store key).isSome := by
          rw [held]
          rfl
        rw [ops.get_replay_of_held kept, last, held] at after
        exact .inl after.symm
    | none =>
        right
        refine ⟨?_, rfl⟩
        rcases ops.held_or_full_of_replay store writes _
            (mem_of_lastWrite last) with stored | full
        · rw [after, held] at stored
          cases stored
        · exact (ops.full_congr same).mp full
  · intro absorbs key
    cases last : lastWrite key writes with
    | none =>
        exact ops.get_replay_of_untouched (lastWrite_eq_none_iff.mp last)
    | some value =>
        rcases absorbs key value last with held | ⟨full, absent⟩
        · have kept : (ops.get store key).isSome := by
            rw [held]
            rfl
          rw [ops.get_replay_of_held kept, last, held]
          rfl
        · rw [ops.get_replay_of_refused full absent, absent]

/-- No write of a list is refused. -/
def AcceptsAll : S → List (K × V) → Prop
  | _, [] => True
  | store, write :: later =>
      ¬(ops.full store ∧ ops.get store write.1 = none) ∧
        AcceptsAll (ops.put store write.1 write.2) later

theorem acceptsAll_append {store : S} {earlier later : List (K × V)} :
    ops.AcceptsAll store (earlier ++ later) ↔
      ops.AcceptsAll store earlier ∧
        ops.AcceptsAll (ops.replay store earlier) later := by
  induction earlier generalizing store with
  | nil => simp [AcceptsAll]
  | cons write earlier induction =>
      rw [List.cons_append, AcceptsAll, AcceptsAll, induction, and_assoc]
      rfl

/-- The contents are the last writes if none is refused. -/
theorem AcceptsAll.get_replay [DecidableEq K] {store : S}
    {writes : List (K × V)} (accepts : ops.AcceptsAll store writes) (key : K) :
    ops.get (ops.replay store writes) key =
      (lastWrite key writes).or (ops.get store key) := by
  induction writes generalizing store with
  | nil => simp [lastWrite]
  | cons write writes induction =>
      rw [replay_cons, induction accepts.2]
      simp only [lastWrite]
      cases lastWrite key writes with
      | some newer => simp
      | none =>
          by_cases equal : write.1 = key
          · subst equal
            simp [ops.get_put_self write.2 accepts.1]
          · have different : key ≠ write.1 := fun same => equal same.symm
            simp [equal, ops.get_put_ne write.2 different]

end RefusingStore

end MatrixDB.Lib
