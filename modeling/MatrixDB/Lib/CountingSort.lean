import Mathlib.Data.List.Basic

/-!
# Counting sort

Items are counted by bin, the counts are summed up to the start of each bin, and
every item goes to its bin's cursor.  The result holds the items bin by bin,
those of one bin in the order in which they came.
-/

namespace MatrixDB.Lib

variable {A : Type} (bin : A → Nat)

/-- The items bin by bin. -/
def grouped (bins : Nat) (items : List A) : List A :=
  (List.range bins).flatMap fun number =>
    items.filter fun item => bin item = number

/-- How many items the bin holds. -/
def binCount (items : List A) (number : Nat) : Nat :=
  items.countP fun item => bin item = number

/-- How many items lie in lower bins. -/
def binStart (items : List A) (number : Nat) : Nat :=
  items.countP fun item => bin item < number

/-- The counting loop. -/
def tally (items : List A) (counts : List Nat) : List Nat :=
  items.foldl
    (fun counts item => counts.modify (bin item) fun count => count + 1) counts

/-- The loop that places the items. -/
def scatterInto : List A → List Nat → List A → List A
  | [], _, placed => placed
  | item :: items, cursors, placed =>
      let number := bin item
      let position := cursors.getD number 0
      scatterInto items (cursors.set number (position + 1))
        (placed.set position item)

variable {bin}

theorem binStart_succ (items : List A) (number : Nat) :
    binStart bin items (number + 1) =
      binStart bin items number + binCount bin items number := by
  unfold binStart binCount
  induction items with
  | nil => rfl
  | cons item items induction =>
      simp only [List.countP_cons, induction, decide_eq_true_eq]
      split <;> split <;> split <;> omega

theorem binStart_mono (items : List A) {low high : Nat} (le : low ≤ high) :
    binStart bin items low ≤ binStart bin items high := by
  apply List.countP_mono_left
  intro item _ before
  exact decide_eq_true (Nat.lt_of_lt_of_le (of_decide_eq_true before) le)

theorem binStart_zero (items : List A) : binStart bin items 0 = 0 := by
  simp [binStart]

theorem binStart_all {items : List A} {bins : Nat}
    (inside : ∀ item ∈ items, bin item < bins) :
    binStart bin items bins = items.length := by
  apply List.countP_eq_length.mpr
  intro item member
  exact decide_eq_true (inside item member)

theorem length_filter_bin (items : List A) (number : Nat) :
    (items.filter fun item => bin item = number).length =
      binCount bin items number :=
  List.countP_eq_length_filter.symm

/-! ## Counts and offsets -/

theorem getElem?_tally (items : List A) (counts : List Nat) (number : Nat) :
    (tally bin items counts)[number]? =
      counts[number]?.map fun count => count + binCount bin items number := by
  unfold tally binCount
  induction items generalizing counts with
  | nil => simp
  | cons item items induction =>
      rw [List.foldl_cons, induction, List.getElem?_modify, List.countP_cons]
      by_cases here : bin item = number
      · simp only [here, if_true, decide_true, Option.map_map,
          Option.map_eq_map]
        congr 1
        funext count
        simp only [Function.comp_apply]
        omega
      · simp [here]

theorem getElem?_tally_replicate (items : List A) {bins number : Nat}
    (known : number < bins) :
    (tally bin items (List.replicate bins 0))[number]? =
      some (binCount bin items number) := by
  rw [getElem?_tally, List.getElem?_replicate_of_lt known, Option.map_some,
    Nat.zero_add]

theorem length_tally (items : List A) (counts : List Nat) :
    (tally bin items counts).length = counts.length := by
  unfold tally
  induction items generalizing counts with
  | nil => rfl
  | cons item items induction =>
      rw [List.foldl_cons, induction, List.length_modify]

/-- The running sums of the counts are the starts of the bins. -/
theorem getElem?_offsets (items : List A) {bins number : Nat}
    (known : number ≤ bins) :
    ((tally bin items (List.replicate bins 0)).scanl
      (fun offset count => offset + count) 0)[number]? =
        some (binStart bin items number) := by
  induction number with
  | zero => simp [binStart_zero]
  | succ number induction =>
      have before := induction (Nat.le_of_succ_le known)
      rw [List.getElem?_succ_scanl, before,
        getElem?_tally_replicate items known, binStart_succ]
      rfl

/-! ## The scatter loop -/

/-- The items of `done` are placed; `items` are all that will be. -/
structure Placed (bin : A → Nat) (bins : Nat) (items done : List A)
    (cursors : List Nat) (placed : List A) : Prop where
  length : placed.length = items.length
  cursor : ∀ number < bins, cursors[number]? =
    some (binStart bin items number + binCount bin done number)
  item : ∀ number < bins, ∀ rank < binCount bin done number,
    placed[binStart bin items number + rank]? =
      (done.filter fun item => bin item = number)[rank]?

variable {bins : Nat} {items done rest : List A} {cursors : List Nat}
  {placed : List A}

theorem binCount_append (earlier later : List A) (number : Nat) :
    binCount bin (earlier ++ later) number =
      binCount bin earlier number + binCount bin later number :=
  List.countP_append

/-- The positions of different bins are apart. -/
theorem binPosition_ne {left right leftRank rightRank : Nat}
    (apart : left ≠ right) (leftInside : leftRank < binCount bin items left)
    (rightInside : rightRank < binCount bin items right) :
    binStart bin items left + leftRank ≠
      binStart bin items right + rightRank := by
  have leftEnd : binStart bin items (left + 1) = _ := binStart_succ items left
  have rightEnd : binStart bin items (right + 1) = _ :=
    binStart_succ items right
  rcases Nat.lt_or_gt_of_ne apart with before | behind
  · have order : binStart bin items (left + 1) ≤ binStart bin items right :=
      binStart_mono items before
    omega
  · have order : binStart bin items (right + 1) ≤ binStart bin items left :=
      binStart_mono items behind
    omega

/-- One round: the item goes behind those of its bin. -/
theorem Placed.step {item : A} (inside : bin item < bins)
    (split : items = done ++ item :: rest)
    (placedSoFar : Placed bin bins items done cursors placed) :
    Placed bin bins items (done ++ [item])
      (cursors.set (bin item) (cursors.getD (bin item) 0 + 1))
      (placed.set (cursors.getD (bin item) 0) item) := by
  obtain ⟨length, cursor, held⟩ := placedSoFar
  have position : cursors.getD (bin item) 0 =
      binStart bin items (bin item) + binCount bin done (bin item) := by
    rw [List.getD_eq_getElem?_getD, cursor _ inside]
    rfl
  have room : ∀ number, binCount bin (done ++ [item]) number ≤
      binCount bin items number := by
    intro number
    have both : binCount bin (done ++ [item] ++ rest) number = _ :=
      binCount_append (done ++ [item]) rest number
    rw [List.append_assoc, List.singleton_append, ← split] at both
    omega
  have counted : ∀ number, binCount bin (done ++ [item]) number =
      binCount bin done number + if bin item = number then 1 else 0 := by
    intro number
    rw [binCount_append]
    simp [binCount, List.countP_cons]
  have own : binCount bin (done ++ [item]) (bin item) =
      binCount bin done (bin item) + 1 := by
    rw [counted, if_pos rfl]
  have here := room (bin item)
  rw [position]
  refine ⟨by rw [List.length_set, length], ?_, ?_⟩
  · intro number known
    rw [counted]
    by_cases same : bin item = number
    · subst same
      have present : bin item < cursors.length :=
        (List.getElem?_eq_some_iff.mp (cursor _ inside)).1
      rw [List.getElem?_set_self present, if_pos rfl, Nat.add_assoc]
    · rw [List.getElem?_set_ne same, cursor number known, if_neg same,
        Nat.add_zero]
  · intro number known rank smaller
    rw [List.filter_append]
    by_cases same : bin item = number
    · subst same
      simp only [List.filter_cons, List.filter_nil, decide_true, if_true]
      by_cases new : rank = binCount bin done (bin item)
      · subst new
        have last : binStart bin items (bin item) +
            binCount bin done (bin item) < placed.length := by
          have ends : binStart bin items (bin item + 1) = _ :=
            binStart_succ items (bin item)
          have whole : binStart bin items (bin item + 1) ≤ items.length :=
            List.countP_le_length
          omega
        rw [List.getElem?_set_self last,
          ← length_filter_bin done (bin item), List.getElem?_concat_length]
      · have old : rank < binCount bin done (bin item) := by omega
        rw [List.getElem?_set_ne (by omega), held _ known rank old,
          List.getElem?_append_left (by rw [length_filter_bin]; exact old)]
    · have shorter := smaller
      rw [counted, if_neg same, Nat.add_zero] at shorter
      have elsewhere : binStart bin items (bin item) +
            binCount bin done (bin item) ≠
          binStart bin items number + rank := by
        have inBin := room number
        exact binPosition_ne same (by omega) (by omega)
      simp only [List.filter_cons, List.filter_nil, same, decide_false,
        Bool.false_eq_true, if_false, List.append_nil]
      rw [List.getElem?_set_ne elsewhere]
      exact held number known rank shorter

theorem Placed.scatterInto (inside : ∀ item ∈ items, bin item < bins)
    (split : items = done ++ rest)
    (placedSoFar : Placed bin bins items done cursors placed) :
    ∃ last, Placed bin bins items items last
      (scatterInto bin rest cursors placed) := by
  induction rest generalizing done cursors placed with
  | nil =>
      rw [List.append_nil] at split
      subst split
      exact ⟨cursors, placedSoFar⟩
  | cons item rest induction =>
      have member : item ∈ items := by
        rw [split]
        exact List.mem_append_right _ List.mem_cons_self
      have next := placedSoFar.step (inside item member) split
      apply induction _ next
      rw [split, List.append_assoc, List.singleton_append]

/-- Each bin's slice of the result is the bin. -/
theorem Placed.slice (all : Placed bin bins items items cursors placed)
    {number : Nat} (known : number < bins) :
    (placed.drop (binStart bin items number)).take
        (binCount bin items number) =
      items.filter fun item => bin item = number := by
  apply List.ext_getElem?
  intro rank
  rw [List.getElem?_take, List.getElem?_drop]
  split
  · rename_i smaller
    exact all.item number known rank smaller
  · rename_i large
    symm
    rw [List.getElem?_eq_none_iff, length_filter_bin]
    exact Nat.not_lt.mp large

/-- The slices of any list at the starts of the bins, put together. -/
theorem flatMap_slices {B : Type} (sorted : List B) (items : List A)
    (bins : Nat) :
    ((List.range bins).flatMap fun number =>
        (sorted.drop (binStart bin items number)).take
          (binCount bin items number)) =
      sorted.take (binStart bin items bins) := by
  induction bins with
  | zero => rw [binStart_zero, List.take_zero]; rfl
  | succ bins induction =>
      rw [binStart_succ, List.take_add, List.range_succ, List.flatMap_append,
        List.flatMap_singleton, induction]

theorem Placed.eq_grouped (inside : ∀ item ∈ items, bin item < bins)
    (all : Placed bin bins items items cursors placed) :
    placed = grouped bin bins items := by
  have slices : grouped bin bins items = (List.range bins).flatMap
      fun number => (placed.drop (binStart bin items number)).take
        (binCount bin items number) := by
    apply List.flatMap_congr
    intro number member
    exact (all.slice (List.mem_range.mp member)).symm
  rw [slices, flatMap_slices, binStart_all inside, ← all.length,
    List.take_length]

theorem Placed.start (starts : ∀ number < bins,
      cursors[number]? = some (binStart bin items number))
    (size : placed.length = items.length) :
    Placed bin bins items [] cursors placed := by
  refine ⟨size, starts, ?_⟩
  intro number known rank smaller
  exact absurd smaller (Nat.not_lt_zero rank)

/-- The whole sort: cursors at the starts of the bins, any buffer. -/
theorem scatterInto_eq_grouped (inside : ∀ item ∈ items, bin item < bins)
    (starts : ∀ number < bins,
      cursors[number]? = some (binStart bin items number))
    (size : placed.length = items.length) :
    scatterInto bin items cursors placed = grouped bin bins items := by
  obtain ⟨last, all⟩ := (Placed.start starts size).scatterInto inside rfl
  exact all.eq_grouped inside

/-- Each bin's slice of the sorted items is the bin. -/
theorem slice_grouped (inside : ∀ item ∈ items, bin item < bins)
    {number : Nat} (known : number < bins) :
    ((grouped bin bins items).drop (binStart bin items number)).take
        (binCount bin items number) =
      items.filter fun item => bin item = number := by
  have starts : ∀ number < bins,
      ((List.range bins).map (binStart bin items))[number]? =
        some (binStart bin items number) := by
    intro number known
    rw [List.getElem?_map, List.getElem?_range known]
    rfl
  have sized : Placed bin bins items [] _ items := Placed.start starts rfl
  obtain ⟨last, all⟩ := sized.scatterInto inside rfl
  rw [← all.eq_grouped inside]
  exact all.slice known

/-! ## What the order keeps -/

theorem grouped_perm (inside : ∀ item ∈ items, bin item < bins) :
    (grouped bin bins items).Perm items := by
  have upTo : ∀ limit, (grouped bin limit items).Perm
      (items.filter fun item => bin item < limit) := by
    intro limit
    induction limit with
    | zero => simp [grouped]
    | succ limit induction =>
        rw [grouped, List.range_succ, List.flatMap_append,
          List.flatMap_singleton]
        refine (induction.append_right _).trans ?_
        have parts := List.filter_append_perm
          (fun item => decide (bin item < limit))
          (items.filter fun item => bin item < limit + 1)
        rw [List.filter_filter, List.filter_filter] at parts
        have low : (items.filter fun item =>
            decide (bin item < limit) && decide (bin item < limit + 1)) =
              items.filter fun item => bin item < limit := by
          apply List.filter_congr
          intro item _
          rw [Bool.eq_iff_iff]
          simp only [Bool.and_eq_true, decide_eq_true_eq]
          omega
        have top : (items.filter fun item =>
            (!decide (bin item < limit)) && decide (bin item < limit + 1)) =
              items.filter fun item => bin item = limit := by
          apply List.filter_congr
          intro item _
          rw [Bool.eq_iff_iff]
          simp only [Bool.and_eq_true, Bool.not_eq_true', decide_eq_true_eq,
            decide_eq_false_iff_not]
          omega
        rw [low, top] at parts
        exact parts
  have everything : (items.filter fun item => bin item < bins) = items := by
    apply List.filter_eq_self.mpr
    intro item member
    exact decide_eq_true (inside item member)
  have whole := upTo bins
  rw [everything] at whole
  exact whole

/-- Items that share a bin keep their order, among themselves. -/
theorem filter_grouped {keep : A → Bool} {number : Nat}
    (known : number < bins)
    (shared : ∀ item ∈ items, keep item = true → bin item = number) :
    (grouped bin bins items).filter keep = items.filter keep := by
  have own : ((items.filter fun item => bin item = number).filter keep) =
      items.filter keep := by
    rw [List.filter_filter]
    apply List.filter_congr
    intro item member
    cases kept : keep item with
    | false => rfl
    | true => simp [shared item member kept]
  have others : ∀ other, other ≠ number →
      ((items.filter fun item => bin item = other).filter keep) = [] := by
    intro other different
    rw [List.filter_filter, List.filter_eq_nil_iff]
    intro item member both
    simp only [Bool.and_eq_true, decide_eq_true_eq] at both
    exact different (both.2.symm.trans (shared item member both.1))
  have upTo : ∀ limit, (grouped bin limit items).filter keep =
      if number < limit then items.filter keep else [] := by
    intro limit
    induction limit with
    | zero => rfl
    | succ limit induction =>
        rw [grouped] at induction
        rw [grouped, List.range_succ, List.flatMap_append,
          List.flatMap_singleton, List.filter_append, induction]
        by_cases here : limit = number
        · subst here
          rw [own]
          simp
        · rw [others limit here, List.append_nil]
          have same : number < limit ↔ number < limit + 1 := by omega
          simp only [same]
  rw [upTo, if_pos known]

/-! ## Positions -/

/-- The items with their positions. -/
def positioned (start : Nat) (items : List A) : List (Nat × A) :=
  (items.zipIdx start).map Prod.swap

theorem positioned_cons (start : Nat) (item : A) (items : List A) :
    positioned start (item :: items) =
      (start, item) :: positioned (start + 1) items := rfl

/-- Reading a range of positions, those behind the end left out. -/
theorem filterMap_range' (items : List A) (first count : Nat) :
    ((List.range' first count).filterMap fun position =>
        (items[position]?).map fun item => (position, item)) =
      ((positioned 0 items).drop first).take count := by
  induction count generalizing first with
  | zero => rw [List.take_zero]; rfl
  | succ count induction =>
      have here : (positioned 0 items)[first]? =
          (items[first]?).map fun item => (first, item) := by
        rw [positioned, List.getElem?_map, List.getElem?_zipIdx]
        cases items[first]? <;> simp
      rw [List.range'_succ, List.filterMap_cons, induction, ← here]
      cases inside : (positioned 0 items)[first]? with
      | none =>
          have behind := List.getElem?_eq_none_iff.mp inside
          rw [List.drop_eq_nil_of_le behind,
            List.drop_eq_nil_of_le (Nat.le_succ_of_le behind),
            List.take_nil, List.take_nil]
      | some item =>
          obtain ⟨bounded, same⟩ := List.getElem?_eq_some_iff.mp inside
          rw [List.drop_eq_getElem_cons bounded, same, List.take_succ_cons]

end MatrixDB.Lib
