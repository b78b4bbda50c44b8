import Mathlib.Algebra.Ring.Nat
import MatrixDB.Lib.RingWindow

/-!
# The ring buffer between one producer and one consumer

`ring_buffer.hpp`.  Every load and every store of `try_emplace` and `try_pop` is
a step of its own, those of the cached cursors included, and the two threads
take their steps in any order.  Each side decides on a cached copy of the
other's cursor; the copy is never ahead, so a stale one can only make a call
fail or look again.
-/

namespace MatrixDB

/-- The template argument with its two static assertions. -/
structure Capacity where
  size : UInt64
  powerOfTwo : size &&& (size - 1) = 0
  atLeastTwo : 2 ≤ size

namespace Capacity

def slots (capacity : Capacity) : Nat := capacity.size.toNat

def MASK (capacity : Capacity) : UInt64 := capacity.size - 1

theorem slots_pos (capacity : Capacity) : 0 < capacity.slots := by
  have large := UInt64.le_iff_toNat_le.mp capacity.atLeastTwo
  change 2 ≤ capacity.slots at large
  omega

theorem slots_lt (capacity : Capacity) : capacity.slots < 2 ^ 64 :=
  capacity.size.toNat_lt

theorem toNat_MASK (capacity : Capacity) :
    capacity.MASK.toNat = capacity.slots - 1 := by
  have large : 1 ≤ capacity.size := by
    have positive := capacity.slots_pos
    exact UInt64.le_iff_toNat_le.mpr positive
  exact UInt64.toNat_sub_of_le _ _ large

/-- Masking is the remainder, since the capacity is a power of two. -/
theorem toNat_and_MASK (capacity : Capacity) (cursor : UInt64) :
    (cursor &&& capacity.MASK).toNat = cursor.toNat % capacity.slots := by
  have bits : capacity.slots &&& (capacity.slots - 1) = 0 := by
    have zero := congrArg UInt64.toNat capacity.powerOfTwo
    rw [UInt64.toNat_and] at zero
    rw [← capacity.toNat_MASK]
    exact zero
  have positive := capacity.slots_pos
  obtain ⟨exponent, power⟩ :=
    (Nat.and_sub_one_eq_zero_iff_isPowerOfTwo (by omega)).mp bits
  rw [UInt64.toNat_and, capacity.toNat_MASK, power]
  exact Nat.and_two_pow_sub_one_eq_mod _ _

/-- `cursor & MASK`, which no array access leaves. -/
def index (capacity : Capacity) (cursor : UInt64) : Fin capacity.slots :=
  ⟨(cursor &&& capacity.MASK).toNat, by
    rw [capacity.toNat_and_MASK]
    exact Nat.mod_lt _ capacity.slots_pos⟩

theorem index_eq (capacity : Capacity) (cursor : UInt64) :
    capacity.index cursor = Lib.slotOf capacity.slots_pos cursor.toNat :=
  Fin.ext (capacity.toNat_and_MASK cursor)

end Capacity

/-- The members of `SPSCRingBuffer`. -/
structure SPSCRingBuffer (capacity : Capacity) (T : Type) where
  buffer : Vector T capacity.slots
  head : UInt64
  tail : UInt64
  cachedHead : UInt64
  cachedTail : UInt64

/-- What `try_emplace` does next, with its local variables; `value` is the item
that its arguments make. -/
inductive Emplacing (T : Type) where
  | idle
  | loadTail (value : T)
  | checkCachedHead (value : T) (currentTail : UInt64)
  | loadHead (value : T) (currentTail : UInt64)
  | storeCachedHead (value : T) (currentTail loaded : UInt64)
  | recheckCachedHead (value : T) (currentTail : UInt64)
  | writeSlot (value : T) (currentTail : UInt64)
  | storeTail (value : T) (currentTail : UInt64)

/-- What `try_pop` does next, with its local variables. -/
inductive Popping where
  | idle
  | loadHead
  | checkCachedTail (currentHead : UInt64)
  | loadTail (currentHead : UInt64)
  | storeCachedTail (currentHead loaded : UInt64)
  | recheckCachedTail (currentHead : UInt64)
  | readSlot (currentHead : UInt64)
  | storeHead (currentHead : UInt64)

/-- The ring, both threads and the variable that `try_pop` is given.  The last
five fields are history, which no step looks at: the items of the pushes and
pops that returned true, how many were pushed and not popped when `head_` and
`tail_` were last loaded from the other side, and the content of the variable
at the call of `try_pop`. -/
structure Threads (capacity : Capacity) (T : Type) where
  ring : SPSCRingBuffer capacity T
  producer : Emplacing T
  consumer : Popping
  output : T
  pushed : List T
  popped : List T
  unreadAtHeadLoad : Nat
  unreadAtTailLoad : Nat
  outputAtCall : T

variable {capacity : Capacity} {T : Type}

/-- What a step shows: nothing, a call, or the return of one. -/
inductive RingEvent where
  | none
  | called
  | emplaceReturned (success : Bool)
  | popReturned (success : Bool)
deriving DecidableEq, Repr

namespace Threads

/-- Pushed and not yet popped. -/
def unread (threads : Threads capacity T) : Nat :=
  threads.pushed.length - threads.popped.length

/-- A freshly constructed ring: every slot is `T{}`. -/
def start (capacity : Capacity) (empty output : T) : Threads capacity T where
  ring := {
    buffer := Vector.replicate capacity.slots empty
    head := 0
    tail := 0
    cachedHead := 0
    cachedTail := 0 }
  producer := .idle
  consumer := .idle
  output := output
  pushed := []
  popped := []
  unreadAtHeadLoad := 0
  unreadAtTailLoad := 0
  outputAtCall := output

/-- `try_emplace`, one access at a time. -/
def stepProducer (threads : Threads capacity T) :
    Option (Threads capacity T × RingEvent) :=
  match threads.producer with
  | .idle => none
  | .loadTail value =>
      some ({ threads with
        producer := .checkCachedHead value threads.ring.tail }, .none)
  | .checkCachedHead value currentTail =>
      if currentTail - threads.ring.cachedHead ≥ capacity.size then
        some ({ threads with producer := .loadHead value currentTail }, .none)
      else
        some ({ threads with producer := .writeSlot value currentTail }, .none)
  | .loadHead value currentTail =>
      some ({ threads with
        producer := .storeCachedHead value currentTail threads.ring.head
        unreadAtHeadLoad := threads.unread }, .none)
  | .storeCachedHead value currentTail loaded =>
      some ({ threads with
        ring := { threads.ring with cachedHead := loaded }
        producer := .recheckCachedHead value currentTail }, .none)
  | .recheckCachedHead value currentTail =>
      if currentTail - threads.ring.cachedHead ≥ capacity.size then
        some ({ threads with producer := .idle }, .emplaceReturned false)
      else
        some ({ threads with producer := .writeSlot value currentTail }, .none)
  | .writeSlot value currentTail =>
      some ({ threads with
        ring := { threads.ring with
          buffer := Lib.setSlot threads.ring.buffer
            (capacity.index currentTail) value }
        producer := .storeTail value currentTail }, .none)
  | .storeTail value currentTail =>
      some ({ threads with
        ring := { threads.ring with tail := currentTail + 1 }
        producer := .idle
        pushed := threads.pushed ++ [value] }, .emplaceReturned true)

/-- `try_pop`, one access at a time.  Moving an item out leaves in its slot
whatever `movedFrom` says. -/
def stepConsumer (movedFrom : T → T) (threads : Threads capacity T) :
    Option (Threads capacity T × RingEvent) :=
  match threads.consumer with
  | .idle => none
  | .loadHead =>
      some ({ threads with
        consumer := .checkCachedTail threads.ring.head }, .none)
  | .checkCachedTail currentHead =>
      if currentHead ≥ threads.ring.cachedTail then
        some ({ threads with consumer := .loadTail currentHead }, .none)
      else
        some ({ threads with consumer := .readSlot currentHead }, .none)
  | .loadTail currentHead =>
      some ({ threads with
        consumer := .storeCachedTail currentHead threads.ring.tail
        unreadAtTailLoad := threads.unread }, .none)
  | .storeCachedTail currentHead loaded =>
      some ({ threads with
        ring := { threads.ring with cachedTail := loaded }
        consumer := .recheckCachedTail currentHead }, .none)
  | .recheckCachedTail currentHead =>
      if currentHead ≥ threads.ring.cachedTail then
        some ({ threads with consumer := .idle }, .popReturned false)
      else
        some ({ threads with consumer := .readSlot currentHead }, .none)
  | .readSlot currentHead =>
      let item := threads.ring.buffer.get (capacity.index currentHead)
      some ({ threads with
        ring := { threads.ring with
          buffer := Lib.setSlot threads.ring.buffer
            (capacity.index currentHead) (movedFrom item) }
        consumer := .storeHead currentHead
        output := item }, .none)
  | .storeHead currentHead =>
      some ({ threads with
        ring := { threads.ring with head := currentHead + 1 }
        consumer := .idle
        popped := threads.popped ++ [threads.output] }, .popReturned true)

end Threads

/-- Who moves, and what a caller passes. -/
inductive RingAction (T : Type) where
  | tryEmplace (value : T)
  | tryPop (output : T)
  | producer
  | consumer

namespace Threads

/-- A thread that is in no call may make one with any argument; one that is in a
call takes its next step. -/
def step (movedFrom : T → T) (threads : Threads capacity T) :
    RingAction T → Option (Threads capacity T × RingEvent)
  | .tryEmplace value =>
      match threads.producer with
      | .idle => some ({ threads with producer := .loadTail value }, .called)
      | _ => none
  | .tryPop output =>
      match threads.consumer with
      | .idle => some ({ threads with
          consumer := .loadHead
          output := output
          outputAtCall := output }, .called)
      | _ => none
  | .producer => threads.stepProducer
  | .consumer => threads.stepConsumer movedFrom

/-- Any interleaving of the two threads, from a fresh ring. -/
inductive Reachable (movedFrom : T → T) : Threads capacity T → Prop where
  | start (empty output : T) : Reachable movedFrom (start capacity empty output)
  | step {threads after : Threads capacity T} {action : RingAction T}
      {event : RingEvent} :
      Reachable movedFrom threads →
      threads.step movedFrom action = some (after, event) →
      Reachable movedFrom after

/-! ## What holds between any two steps -/

/-- The first position whose item is still in its slot: between its two stores
the consumer has moved an item out and has not yet advanced `head_`. -/
def firstStored (threads : Threads capacity T) : Nat :=
  match threads.consumer with
  | .storeHead _ => threads.popped.length + 1
  | _ => threads.popped.length

/-- The cursors count the completed calls, the cached ones are behind, and the
items in between are in their slots. -/
structure Consistent (threads : Threads capacity T) : Prop where
  popped_le : threads.popped.length ≤ threads.pushed.length
  fits : threads.pushed.length ≤ threads.popped.length + capacity.slots
  head : threads.ring.head.toNat = threads.popped.length
  tail : threads.ring.tail.toNat = threads.pushed.length
  cachedHead : threads.ring.cachedHead.toNat ≤ threads.popped.length
  cachedTail : threads.ring.cachedTail.toNat ≤ threads.pushed.length
  fifo : threads.popped = threads.pushed.take threads.popped.length
  window : Lib.RingWindow capacity.slots_pos threads.ring.buffer threads.pushed
    threads.firstStored threads.pushed.length

/-- What the producer may rely on, by the step it is at. -/
def ProducerReady (threads : Threads capacity T) : Prop :=
  match threads.producer with
  | .idle => True
  | .loadTail _ => True
  | .checkCachedHead _ currentTail => currentTail = threads.ring.tail
  | .loadHead _ currentTail => currentTail = threads.ring.tail
  | .storeCachedHead _ currentTail loaded =>
      currentTail = threads.ring.tail ∧
      loaded.toNat ≤ threads.popped.length ∧
      threads.unreadAtHeadLoad ≤ capacity.slots ∧
      threads.pushed.length = loaded.toNat + threads.unreadAtHeadLoad
  | .recheckCachedHead _ currentTail =>
      currentTail = threads.ring.tail ∧
      threads.unreadAtHeadLoad ≤ capacity.slots ∧
      threads.pushed.length =
        threads.ring.cachedHead.toNat + threads.unreadAtHeadLoad
  | .writeSlot _ currentTail =>
      currentTail = threads.ring.tail ∧
      threads.pushed.length < threads.popped.length + capacity.slots
  | .storeTail value currentTail =>
      currentTail = threads.ring.tail ∧
      threads.pushed.length < threads.popped.length + capacity.slots ∧
      threads.ring.buffer.get (capacity.index currentTail) = value

/-- What the consumer may rely on, by the step it is at. -/
def ConsumerReady (threads : Threads capacity T) : Prop :=
  match threads.consumer with
  | .idle => True
  | .loadHead => threads.output = threads.outputAtCall
  | .checkCachedTail currentHead =>
      currentHead = threads.ring.head ∧
      threads.output = threads.outputAtCall
  | .loadTail currentHead =>
      currentHead = threads.ring.head ∧
      threads.output = threads.outputAtCall
  | .storeCachedTail currentHead loaded =>
      currentHead = threads.ring.head ∧
      threads.output = threads.outputAtCall ∧
      loaded.toNat ≤ threads.pushed.length ∧
      loaded.toNat = threads.popped.length + threads.unreadAtTailLoad
  | .recheckCachedTail currentHead =>
      currentHead = threads.ring.head ∧
      threads.output = threads.outputAtCall ∧
      threads.ring.cachedTail.toNat =
        threads.popped.length + threads.unreadAtTailLoad
  | .readSlot currentHead =>
      currentHead = threads.ring.head ∧
      threads.popped.length < threads.pushed.length
  | .storeHead currentHead =>
      currentHead = threads.ring.head ∧
      threads.popped.length < threads.pushed.length ∧
      threads.pushed[threads.popped.length]? = some threads.output

structure Invariant (threads : Threads capacity T) : Prop where
  consistent : threads.Consistent
  producer : threads.ProducerReady
  consumer : threads.ConsumerReady

variable {threads after : Threads capacity T} {event : RingEvent}

theorem firstStored_bounds (threads : Threads capacity T) :
    threads.popped.length ≤ threads.firstStored ∧
      threads.firstStored ≤ threads.popped.length + 1 := by
  unfold firstStored
  split
  · exact ⟨Nat.le_succ _, Nat.le_refl _⟩
  · exact ⟨Nat.le_refl _, Nat.le_succ _⟩

theorem invariant_start (capacity : Capacity) (empty output : T) :
    (start capacity empty output).Invariant where
  consistent := {
    popped_le := Nat.le_refl _
    fits := Nat.zero_le _
    head := rfl
    tail := rfl
    cachedHead := Nat.le_refl _
    cachedTail := Nat.le_refl _
    fifo := rfl
    window := Lib.RingWindow.empty }
  producer := trivial
  consumer := trivial

/-! ### The decisions on the cached cursors -/

/-- The subtraction of the cached `head_` does not wrap, so the test counts. -/
theorem Consistent.full_iff (consistent : threads.Consistent) :
    threads.ring.tail - threads.ring.cachedHead ≥ capacity.size ↔
      threads.ring.cachedHead.toNat + capacity.slots ≤
        threads.pushed.length := by
  have behind : threads.ring.cachedHead.toNat ≤ threads.ring.tail.toNat := by
    rw [consistent.tail]
    exact Nat.le_trans consistent.cachedHead consistent.popped_le
  have difference := UInt64.toNat_sub_of_le _ _
    (UInt64.le_iff_toNat_le.mpr behind)
  rw [ge_iff_le, UInt64.le_iff_toNat_le, difference, consistent.tail]
  change capacity.slots ≤ _ ↔ _
  rw [consistent.tail] at behind
  omega

theorem Consistent.room (consistent : threads.Consistent)
    (notFull : ¬ threads.ring.tail - threads.ring.cachedHead ≥ capacity.size) :
    threads.pushed.length < threads.popped.length + capacity.slots := by
  have free := mt consistent.full_iff.mpr notFull
  have behind := consistent.cachedHead
  omega

theorem Consistent.drained_iff (consistent : threads.Consistent) :
    threads.ring.head ≥ threads.ring.cachedTail ↔
      threads.ring.cachedTail.toNat ≤ threads.popped.length := by
  rw [ge_iff_le, UInt64.le_iff_toNat_le, consistent.head]

theorem Consistent.filled (consistent : threads.Consistent)
    (notEmpty : ¬ threads.ring.head ≥ threads.ring.cachedTail) :
    threads.popped.length < threads.pushed.length := by
  have more := mt consistent.drained_iff.mpr notEmpty
  have behind := consistent.cachedTail
  omega

/-! ### One step of the producer -/

/-- Advancing `tail_` takes nothing from the consumer. -/
theorem ConsumerReady.of_push (ready : threads.ConsumerReady)
    (value : T) (producer : Emplacing T) (tail : UInt64) :
    ConsumerReady { threads with
      ring := { threads.ring with tail := tail }
      producer := producer
      pushed := threads.pushed ++ [value] } := by
  have grows : threads.pushed.length ≤ (threads.pushed ++ [value]).length := by
    rw [List.length_append]
    exact Nat.le_add_right _ _
  unfold ConsumerReady at ready ⊢
  cases place : threads.consumer with
  | idle => trivial
  | loadHead =>
      rw [place] at ready
      exact ready
  | checkCachedTail currentHead =>
      rw [place] at ready
      exact ready
  | loadTail currentHead =>
      rw [place] at ready
      exact ready
  | storeCachedTail currentHead loaded =>
      rw [place] at ready
      obtain ⟨own, kept, behind, counted⟩ := ready
      exact ⟨own, kept, Nat.le_trans behind grows, counted⟩
  | recheckCachedTail currentHead =>
      rw [place] at ready
      exact ready
  | readSlot currentHead =>
      rw [place] at ready
      exact ⟨ready.1, Nat.lt_of_lt_of_le ready.2 grows⟩
  | storeHead currentHead =>
      rw [place] at ready
      obtain ⟨own, more, first⟩ := ready
      refine ⟨own, Nat.lt_of_lt_of_le more grows, ?_⟩
      rw [List.getElem?_append_left more]
      exact first

/-- Writing the free slot leaves every stored item alone. -/
theorem Consistent.of_write (consistent : threads.Consistent)
    (room : threads.pushed.length < threads.popped.length + capacity.slots)
    (value : T) (producer : Emplacing T) :
    Consistent { threads with
      ring := { threads.ring with
        buffer := Lib.setSlot threads.ring.buffer
          (capacity.index threads.ring.tail) value }
      producer := producer } := by
  have free : threads.pushed.length <
      threads.firstStored + capacity.slots := by
    have bounds := threads.firstStored_bounds
    omega
  have written := consistent.window.set_last free value
  rw [← consistent.tail, ← capacity.index_eq] at written
  exact { consistent with window := by rw [← consistent.tail]; exact written }

/-- Advancing `tail_` hands over the item that was written. -/
theorem Consistent.of_push (consistent : threads.Consistent) {value : T}
    (room : threads.pushed.length < threads.popped.length + capacity.slots)
    (written : threads.ring.buffer.get (capacity.index threads.ring.tail) = value)
    (few : threads.pushed.length + 1 < 2 ^ 64) :
    Consistent { threads with
      ring := { threads.ring with tail := threads.ring.tail + 1 }
      producer := .idle
      pushed := threads.pushed ++ [value] } := by
  have grows : (threads.pushed ++ [value]).length =
      threads.pushed.length + 1 := by
    rw [List.length_append, List.length_singleton]
  have advanced : (threads.ring.tail + 1).toNat =
      threads.pushed.length + 1 := by
    rw [UInt64.toNat_add, consistent.tail]
    exact Nat.mod_eq_of_lt few
  rw [capacity.index_eq, consistent.tail] at written
  have popped := consistent.popped_le
  have cached := consistent.cachedTail
  have more : threads.popped.length ≤ (threads.pushed ++ [value]).length := by
    omega
  have fits : (threads.pushed ++ [value]).length ≤
      threads.popped.length + capacity.slots := by omega
  have behind : threads.ring.cachedTail.toNat ≤
      (threads.pushed ++ [value]).length := by omega
  have same : threads.popped =
      (threads.pushed ++ [value]).take threads.popped.length := by
    rw [List.take_append_of_le_length popped]
    exact consistent.fifo
  exact {
    popped_le := more
    fits := fits
    head := consistent.head
    tail := advanced.trans grows.symm
    cachedHead := consistent.cachedHead
    cachedTail := behind
    fifo := same
    window := consistent.window.append written }

/-- Every step of the producer, for as long as the cursors have not wrapped. -/
theorem invariant_stepProducer (invariant : threads.Invariant)
    (steps : threads.stepProducer = some (after, event))
    (few : after.pushed.length < 2 ^ 64) : after.Invariant := by
  obtain ⟨consistent, ready, other⟩ := invariant
  unfold stepProducer at steps
  unfold ProducerReady at ready
  cases place : threads.producer with
  | idle =>
      rw [place] at steps
      cases steps
  | loadTail value =>
      rw [place] at steps
      cases steps
      exact ⟨{ consistent with }, rfl, other⟩
  | checkCachedHead value currentTail =>
      simp only [place] at steps ready
      subst ready
      split at steps
      · cases steps
        exact ⟨{ consistent with }, rfl, other⟩
      · rename_i notFull
        cases steps
        exact ⟨{ consistent with }, ⟨rfl, consistent.room notFull⟩, other⟩
  | loadHead value currentTail =>
      simp only [place] at steps ready
      subst ready
      cases steps
      have counted : threads.pushed.length =
          threads.ring.head.toNat + threads.unread := by
        have popped := consistent.popped_le
        rw [consistent.head, unread]
        omega
      have bounded : threads.unread ≤ capacity.slots := by
        have fits := consistent.fits
        rw [unread]
        omega
      exact ⟨{ consistent with },
        ⟨rfl, Nat.le_of_eq consistent.head, bounded, counted⟩, other⟩
  | storeCachedHead value currentTail loaded =>
      simp only [place] at steps ready
      obtain ⟨rfl, behind, bounded, counted⟩ := ready
      cases steps
      exact ⟨{ consistent with cachedHead := behind },
        ⟨rfl, bounded, counted⟩, other⟩
  | recheckCachedHead value currentTail =>
      simp only [place] at steps ready
      obtain ⟨rfl, _⟩ := ready
      split at steps
      · cases steps
        exact ⟨{ consistent with }, trivial, other⟩
      · rename_i notFull
        cases steps
        exact ⟨{ consistent with }, ⟨rfl, consistent.room notFull⟩, other⟩
  | writeSlot value currentTail =>
      simp only [place] at steps ready
      obtain ⟨rfl, room⟩ := ready
      cases steps
      exact ⟨consistent.of_write room value _,
        ⟨rfl, room, Lib.get_setSlot_self _ _ _⟩, other⟩
  | storeTail value currentTail =>
      simp only [place] at steps ready
      obtain ⟨rfl, room, written⟩ := ready
      cases steps
      rw [List.length_append, List.length_singleton] at few
      exact ⟨consistent.of_push room written few, trivial,
        other.of_push value .idle _⟩

/-! ### One step of the consumer -/

/-- Neither an advanced `head_` nor a written slot in front of the unread items
takes anything from the producer. -/
theorem ProducerReady.of_pop (ready : threads.ProducerReady)
    (item : T) (consumer : Popping) (head : UInt64) :
    ProducerReady { threads with
      ring := { threads.ring with head := head }
      consumer := consumer
      popped := threads.popped ++ [item] } := by
  have grows : threads.popped.length ≤ (threads.popped ++ [item]).length := by
    rw [List.length_append]
    exact Nat.le_add_right _ _
  have roomier {count : Nat}
      (room : count < threads.popped.length + capacity.slots) :
      count < (threads.popped ++ [item]).length + capacity.slots :=
    Nat.lt_of_lt_of_le room (Nat.add_le_add_right grows _)
  unfold ProducerReady at ready ⊢
  cases place : threads.producer with
  | idle => trivial
  | loadTail value => trivial
  | checkCachedHead value currentTail =>
      rw [place] at ready
      exact ready
  | loadHead value currentTail =>
      rw [place] at ready
      exact ready
  | storeCachedHead value currentTail loaded =>
      rw [place] at ready
      obtain ⟨own, behind, counted⟩ := ready
      exact ⟨own, Nat.le_trans behind grows, counted⟩
  | recheckCachedHead value currentTail =>
      rw [place] at ready
      exact ready
  | writeSlot value currentTail =>
      rw [place] at ready
      exact ⟨ready.1, roomier ready.2⟩
  | storeTail value currentTail =>
      rw [place] at ready
      obtain ⟨own, room, written⟩ := ready
      exact ⟨own, roomier room, written⟩

/-- The slot the consumer empties is not the one the producer has filled and not
yet handed over. -/
theorem ProducerReady.of_take (ready : threads.ProducerReady)
    (consistent : threads.Consistent)
    (filled : threads.popped.length < threads.pushed.length) (left item : T)
    (consumer : Popping) :
    ProducerReady { threads with
      ring := { threads.ring with
        buffer := Lib.setSlot threads.ring.buffer
          (capacity.index threads.ring.head) left }
      consumer := consumer
      output := item } := by
  unfold ProducerReady at ready ⊢
  cases place : threads.producer with
  | storeTail value currentTail =>
      rw [place] at ready
      obtain ⟨rfl, room, written⟩ := ready
      have apart : capacity.index threads.ring.tail ≠
          capacity.index threads.ring.head := by
        rw [capacity.index_eq, capacity.index_eq, consistent.head,
          consistent.tail]
        exact (Lib.slotOf_ne filled room).symm
      refine ⟨rfl, room, ?_⟩
      exact (Lib.get_setSlot_ne _ apart left).trans written
  | idle => trivial
  | loadTail value => trivial
  | checkCachedHead value currentTail =>
      rw [place] at ready
      exact ready
  | loadHead value currentTail =>
      rw [place] at ready
      exact ready
  | storeCachedHead value currentTail loaded =>
      rw [place] at ready
      exact ready
  | recheckCachedHead value currentTail =>
      rw [place] at ready
      exact ready
  | writeSlot value currentTail =>
      rw [place] at ready
      exact ready

/-- What lies in the slot of an unread item. -/
theorem Consistent.first_item (consistent : threads.Consistent)
    (filled : threads.popped.length < threads.pushed.length)
    (still : threads.firstStored = threads.popped.length) :
    threads.pushed[threads.popped.length]? =
      some (threads.ring.buffer.get (capacity.index threads.ring.head)) := by
  have stored := consistent.window threads.popped.length (Nat.le_of_eq still)
    filled
  rw [capacity.index_eq, consistent.head]
  exact stored

/-- Emptying the slot leaves the items behind it. -/
theorem Consistent.of_take (consistent : threads.Consistent)
    (still : threads.firstStored = threads.popped.length) (left item : T)
    (currentHead : UInt64) :
    Consistent { threads with
      ring := { threads.ring with
        buffer := Lib.setSlot threads.ring.buffer
          (capacity.index threads.ring.head) left }
      consumer := .storeHead currentHead
      output := item } := by
  have window := consistent.window
  rw [still] at window
  have taken := window.set_first consistent.fits left
  rw [← consistent.head, ← capacity.index_eq] at taken
  rw [consistent.head] at taken
  exact { consistent with window := taken }

/-- Advancing `head_` makes the item popped. -/
theorem Consistent.of_pop (consistent : threads.Consistent)
    {currentHead : UInt64} (place : threads.consumer = .storeHead currentHead)
    (filled : threads.popped.length < threads.pushed.length)
    (first : threads.pushed[threads.popped.length]? = some threads.output) :
    Consistent { threads with
      ring := { threads.ring with head := threads.ring.head + 1 }
      consumer := .idle
      popped := threads.popped ++ [threads.output] } := by
  have grows : (threads.popped ++ [threads.output]).length =
      threads.popped.length + 1 := by
    rw [List.length_append, List.length_singleton]
  have advanced : (threads.ring.head + 1).toNat =
      threads.popped.length + 1 := by
    rw [UInt64.toNat_add, consistent.head]
    apply Nat.mod_eq_of_lt
    have last := threads.ring.tail.toNat_lt
    have counted := consistent.tail
    simp only [UInt64.toNat_one]
    omega
  have fits := consistent.fits
  have behind := consistent.cachedHead
  have window := consistent.window
  have begins : threads.firstStored = threads.popped.length + 1 := by
    unfold firstStored
    rw [place]
  rw [begins, ← grows] at window
  have more : (threads.popped ++ [threads.output]).length ≤
      threads.pushed.length := by omega
  have still : threads.pushed.length ≤
      (threads.popped ++ [threads.output]).length + capacity.slots := by omega
  have cached : threads.ring.cachedHead.toNat ≤
      (threads.popped ++ [threads.output]).length := by omega
  have same : threads.popped ++ [threads.output] =
      threads.pushed.take (threads.popped ++ [threads.output]).length := by
    rw [grows, List.take_add_one, ← consistent.fifo, first]
    rfl
  exact {
    popped_le := more
    fits := still
    head := advanced.trans grows.symm
    tail := consistent.tail
    cachedHead := cached
    cachedTail := consistent.cachedTail
    fifo := same
    window := window }

/-- Outside its two stores the consumer leaves every unread item stored. -/
theorem Consistent.stored (consistent : threads.Consistent)
    (still : threads.firstStored = threads.popped.length) :
    Lib.RingWindow capacity.slots_pos threads.ring.buffer threads.pushed
      threads.popped.length threads.pushed.length := by
  have window := consistent.window
  rw [still] at window
  exact window

/-- Every step of the consumer. -/
theorem invariant_stepConsumer {movedFrom : T → T}
    (invariant : threads.Invariant)
    (steps : threads.stepConsumer movedFrom = some (after, event)) :
    after.Invariant := by
  obtain ⟨consistent, other, ready⟩ := invariant
  unfold stepConsumer at steps
  unfold ConsumerReady at ready
  have still : (∀ currentHead, threads.consumer ≠ .storeHead currentHead) →
      threads.firstStored = threads.popped.length := by
    intro elsewhere
    unfold firstStored
    split
    · rename_i currentHead place
      exact absurd place (elsewhere currentHead)
    · rfl
  cases place : threads.consumer with
  | idle =>
      rw [place] at steps
      cases steps
  | loadHead =>
      simp only [place] at steps ready
      have stored := consistent.stored (still (by simp [place]))
      cases steps
      exact ⟨{ consistent with window := stored }, other, rfl, ready⟩
  | checkCachedTail currentHead =>
      simp only [place] at steps ready
      have stored := consistent.stored (still (by simp [place]))
      obtain ⟨rfl, kept⟩ := ready
      split at steps
      · cases steps
        exact ⟨{ consistent with window := stored }, other, rfl, kept⟩
      · rename_i notEmpty
        cases steps
        exact ⟨{ consistent with window := stored }, other, rfl,
          consistent.filled notEmpty⟩
  | loadTail currentHead =>
      simp only [place] at steps ready
      have stored := consistent.stored (still (by simp [place]))
      obtain ⟨rfl, kept⟩ := ready
      cases steps
      have counted : threads.ring.tail.toNat =
          threads.popped.length + threads.unread := by
        have popped := consistent.popped_le
        rw [consistent.tail, unread]
        omega
      exact ⟨{ consistent with window := stored }, other, rfl, kept,
        Nat.le_of_eq consistent.tail, counted⟩
  | storeCachedTail currentHead loaded =>
      simp only [place] at steps ready
      have stored := consistent.stored (still (by simp [place]))
      obtain ⟨rfl, kept, behind, counted⟩ := ready
      cases steps
      exact ⟨{ consistent with window := stored, cachedTail := behind }, other,
        rfl, kept, counted⟩
  | recheckCachedTail currentHead =>
      simp only [place] at steps ready
      have stored := consistent.stored (still (by simp [place]))
      obtain ⟨rfl, kept, counted⟩ := ready
      split at steps
      · cases steps
        exact ⟨{ consistent with window := stored }, other, trivial⟩
      · rename_i notEmpty
        cases steps
        exact ⟨{ consistent with window := stored }, other, rfl,
          consistent.filled notEmpty⟩
  | readSlot currentHead =>
      simp only [place] at steps ready
      have whole := still (by simp [place])
      obtain ⟨rfl, filled⟩ := ready
      cases steps
      exact ⟨consistent.of_take whole _ _ _,
        other.of_take consistent filled _ _ _,
        rfl, filled, consistent.first_item filled whole⟩
  | storeHead currentHead =>
      simp only [place] at steps ready
      obtain ⟨rfl, filled, first⟩ := ready
      cases steps
      exact ⟨consistent.of_pop place filled first, other.of_pop _ _ _, trivial⟩

/-! ### Every run -/

theorem pushed_le_of_step {movedFrom : T → T} {action : RingAction T}
    (steps : threads.step movedFrom action = some (after, event)) :
    threads.pushed.length ≤ after.pushed.length := by
  unfold step at steps
  split at steps
  · split at steps <;> cases steps
    exact Nat.le_refl _
  · split at steps <;> cases steps
    exact Nat.le_refl _
  · unfold stepProducer at steps
    split at steps
    · cases steps
    all_goals first
      | (split at steps <;> cases steps <;> exact Nat.le_refl _)
      | (cases steps; exact Nat.le_refl _)
      | (cases steps
         rw [List.length_append]
         exact Nat.le_add_right _ _)
  · unfold stepConsumer at steps
    split at steps
    · cases steps
    all_goals first
      | (split at steps <;> cases steps <;> exact Nat.le_refl _)
      | (cases steps; exact Nat.le_refl _)

theorem invariant_step {movedFrom : T → T} {action : RingAction T}
    (invariant : threads.Invariant)
    (steps : threads.step movedFrom action = some (after, event))
    (few : after.pushed.length < 2 ^ 64) : after.Invariant := by
  cases action with
  | tryEmplace value =>
      obtain ⟨consistent, _, other⟩ := invariant
      unfold step at steps
      simp only at steps
      split at steps
      · cases steps
        exact ⟨{ consistent with }, trivial, other⟩
      · cases steps
  | tryPop output =>
      obtain ⟨consistent, other, _⟩ := invariant
      unfold step at steps
      simp only at steps
      split at steps
      · rename_i place
        cases steps
        have whole : threads.firstStored = threads.popped.length := by
          unfold firstStored
          rw [place]
        exact ⟨{ consistent with window := consistent.stored whole }, other,
          rfl⟩
      · cases steps
  | producer => exact invariant_stepProducer invariant steps few
  | consumer => exact invariant_stepConsumer invariant steps

theorem Reachable.invariant {movedFrom : T → T}
    (reached : Reachable movedFrom threads)
    (few : threads.pushed.length < 2 ^ 64) : threads.Invariant := by
  induction reached with
  | start empty output => exact invariant_start capacity empty output
  | step _ steps before =>
      have fewer := pushed_le_of_step steps
      exact invariant_step (before (by omega)) steps few

/-- What the callers see of a queue of at most `Capacity` items. -/
structure Fifo (movedFrom : T → T) (threads : Threads capacity T) : Prop where
  /-- What was popped comes first in what was pushed. -/
  inOrder : ∃ unread, threads.pushed = threads.popped ++ unread ∧
    unread.length ≤ capacity.slots
  /-- An item not yet popped is still in its slot, or it is the first one and
  already in the variable of the pop that is about to return. -/
  intact : ∀ position, threads.popped.length ≤ position →
    position < threads.pushed.length →
    threads.pushed[position]? = some (threads.ring.buffer.get
      (Lib.slotOf capacity.slots_pos position)) ∨
    position = threads.popped.length ∧
      (∃ currentHead, threads.consumer = .storeHead currentHead) ∧
      threads.pushed[position]? = some threads.output
  failedPush : ∀ after,
    threads.stepProducer = some (after, .emplaceReturned false) →
    threads.unreadAtHeadLoad = capacity.slots
  failedPop : ∀ after,
    threads.stepConsumer movedFrom = some (after, .popReturned false) →
    threads.unreadAtTailLoad = 0 ∧ after.output = after.outputAtCall

theorem Invariant.intact (invariant : threads.Invariant) (position : Nat)
    (unread : threads.popped.length ≤ position)
    (sent : position < threads.pushed.length) :
    threads.pushed[position]? = some (threads.ring.buffer.get
      (Lib.slotOf capacity.slots_pos position)) ∨
    position = threads.popped.length ∧
      (∃ currentHead, threads.consumer = .storeHead currentHead) ∧
      threads.pushed[position]? = some threads.output := by
  by_cases stored : threads.firstStored ≤ position
  · exact .inl (invariant.consistent.window position stored sent)
  · right
    have ready := invariant.consumer
    unfold firstStored at stored
    unfold ConsumerReady at ready
    split at stored
    · rename_i currentHead place
      rw [place] at ready
      obtain rfl : position = threads.popped.length := by omega
      exact ⟨rfl, ⟨currentHead, place⟩, ready.2.2⟩
    · exact absurd unread stored

theorem Invariant.failedPush (invariant : threads.Invariant)
    (steps : threads.stepProducer = some (after, .emplaceReturned false)) :
    threads.unreadAtHeadLoad = capacity.slots := by
  have ready := invariant.producer
  have consistent := invariant.consistent
  unfold stepProducer at steps
  unfold ProducerReady at ready
  split at steps
  case h_6 value currentTail place =>
    simp only [place] at ready
    obtain ⟨rfl, bounded, counted⟩ := ready
    split at steps
    · rename_i full
      have least := consistent.full_iff.mp full
      omega
    · cases steps
  all_goals first
    | cases steps
    | (split at steps <;> cases steps)

theorem Invariant.failedPop {movedFrom : T → T} (invariant : threads.Invariant)
    (steps : threads.stepConsumer movedFrom =
      some (after, .popReturned false)) :
    threads.unreadAtTailLoad = 0 ∧ after.output = after.outputAtCall := by
  have ready := invariant.consumer
  have consistent := invariant.consistent
  unfold stepConsumer at steps
  unfold ConsumerReady at ready
  split at steps
  case h_6 currentHead place =>
    simp only [place] at ready
    obtain ⟨rfl, kept, counted⟩ := ready
    split at steps
    · rename_i drained
      have most := consistent.drained_iff.mp drained
      cases steps
      exact ⟨by omega, kept⟩
    · cases steps
  all_goals first
    | cases steps
    | (split at steps <;> cases steps)

/-- Under every interleaving of at most `2 ^ 64 - 1` pushes with any pops. -/
theorem fifo_of_reachable {movedFrom : T → T}
    (reached : Reachable movedFrom threads)
    (few : threads.pushed.length < 2 ^ 64) : threads.Fifo movedFrom := by
  have invariant := reached.invariant few
  refine ⟨?_, invariant.intact, ?_, ?_⟩
  · refine ⟨threads.pushed.drop threads.popped.length, ?_, ?_⟩
    · have split := List.take_append_drop threads.popped.length threads.pushed
      rw [← invariant.consistent.fifo] at split
      exact split.symm
    · rw [List.length_drop]
      have fits := invariant.consistent.fits
      omega
  · intro after steps
    exact invariant.failedPush steps
  · intro after steps
    exact invariant.failedPop steps

/-- The state after a list of moves, if each is possible. -/
def run (movedFrom : T → T) (threads : Threads capacity T) :
    List (RingAction T) → Option (Threads capacity T)
  | [] => some threads
  | action :: actions =>
      match threads.step movedFrom action with
      | none => none
      | some (after, _) => after.run movedFrom actions

theorem Reachable.run {movedFrom : T → T} (reached : Reachable movedFrom threads)
    {actions : List (RingAction T)}
    (ran : threads.run movedFrom actions = some after) :
    Reachable movedFrom after := by
  induction actions generalizing threads with
  | nil =>
      cases ran
      exact reached
  | cons action actions induction =>
      unfold Threads.run at ran
      split at ran
      · cases ran
      · rename_i between event steps
        exact induction (reached.step steps) ran

/-- Two pushes and a third one that has just found the ring full, while a pop
has moved the first item out and not yet advanced `head_`. -/
def crowdedRing : Option (Threads ⟨2, by decide, by decide⟩ Nat) :=
  (start ⟨2, by decide, by decide⟩ 0 0).run (fun _ => 0)
    ([.tryEmplace 7] ++ List.replicate 4 .producer ++
      [.tryEmplace 8] ++ List.replicate 4 .producer ++
      [.tryPop 5] ++ List.replicate 6 .consumer ++
      [.tryEmplace 9] ++ List.replicate 4 .producer)

theorem fifo_of_reachable_crowded :
    ∃ threads, crowdedRing = some threads ∧ threads.pushed = [7, 8] ∧
      threads.output = 7 ∧ threads.Fifo (fun _ => 0) := by
  have ran : crowdedRing = some (crowdedRing.get (by decide)) :=
    (Option.some_get _).symm
  refine ⟨_, ran, by decide, by decide, ?_⟩
  apply fifo_of_reachable
  · exact (Reachable.start 0 0).run ran
  · decide

end Threads

end MatrixDB
