import Mathlib.Data.List.Basic

/-!
# A window of a sequence in a ring of slots

The item at position `i` of a sequence lies in slot `i % size`.  A window of at
most `size` consecutive positions fits, and writing the slot of a position next
to it disturbs none of its items.
-/

namespace MatrixDB.Lib

variable {T : Type} {size : Nat}

/-- The slot of a position. -/
def slotOf (positive : 0 < size) (position : Nat) : Fin size :=
  ⟨position % size, Nat.mod_lt position positive⟩

def setSlot (slots : Vector T size) (slot : Fin size) (item : T) :
    Vector T size :=
  slots.set slot item

/-- The items at the positions from `first` up to `last` lie in their slots. -/
def RingWindow (positive : 0 < size) (slots : Vector T size)
    (items : List T) (first last : Nat) : Prop :=
  ∀ position, first ≤ position → position < last →
    items[position]? = some (slots.get (slotOf positive position))

theorem slotOf_ne {positive : 0 < size} {left right : Nat}
    (before : left < right) (near : right < left + size) :
    slotOf positive left ≠ slotOf positive right := by
  intro same
  have equal : left % size = right % size := congrArg Fin.val same
  have leftSplit := Nat.div_add_mod left size
  have rightSplit := Nat.div_add_mod right size
  rw [equal] at leftSplit
  have smaller : size * (left / size) < size * (right / size) := by omega
  have rounds : left / size < right / size :=
    Nat.lt_of_mul_lt_mul_left smaller
  have apart : size * (left / size + 1) ≤ size * (right / size) :=
    Nat.mul_le_mul_left size rounds
  rw [Nat.mul_add, Nat.mul_one] at apart
  omega

theorem get_setSlot_self (slots : Vector T size) (slot : Fin size) (item : T) :
    (setSlot slots slot item).get slot = item :=
  Vector.getElem_set_self slot.isLt

theorem get_setSlot_ne (slots : Vector T size) {slot other : Fin size}
    (different : other ≠ slot) (item : T) :
    (setSlot slots slot item).get other = slots.get other := by
  have apart : slot.val ≠ other.val := fun same =>
    different (Fin.ext same.symm)
  exact Vector.getElem_set_ne slot.isLt other.isLt apart

variable {positive : 0 < size} {slots : Vector T size} {items : List T}
  {first last : Nat}

/-- Nothing is claimed of an empty window. -/
theorem RingWindow.empty : RingWindow positive slots items first first := by
  intro position after before
  omega

/-- A slot whose position is near the window but outside may be written. -/
theorem RingWindow.set_outside
    (window : RingWindow positive slots items first last) (position : Nat)
    (outside : ∀ inside, first ≤ inside → inside < last →
      inside < position ∧ position < inside + size ∨
        position < inside ∧ inside < position + size) (item : T) :
    RingWindow positive (setSlot slots (slotOf positive position) item) items
      first last := by
  intro inside after before
  have different : slotOf positive inside ≠ slotOf positive position := by
    rcases outside inside after before with ⟨left, near⟩ | ⟨right, near⟩
    · exact slotOf_ne left near
    · exact (slotOf_ne right near).symm
  rw [get_setSlot_ne slots different]
  exact window inside after before

/-- The slot behind the window is free as long as the window is not full. -/
theorem RingWindow.set_last
    (window : RingWindow positive slots items first last)
    (room : last < first + size) (item : T) :
    RingWindow positive (setSlot slots (slotOf positive last) item) items
      first last := by
  apply window.set_outside
  intro inside after before
  exact .inl ⟨before, by omega⟩

/-- Taking the first item out leaves the rest of the window. -/
theorem RingWindow.set_first
    (window : RingWindow positive slots items first last)
    (fits : last ≤ first + size) (item : T) :
    RingWindow positive (setSlot slots (slotOf positive first) item) items
      (first + 1) last := by
  have rest : RingWindow positive slots items (first + 1) last := by
    intro inside after before
    exact window inside (by omega) before
  apply rest.set_outside
  intro inside after before
  exact .inr ⟨after, by omega⟩

/-- The window grows over an item that lies in its slot already. -/
theorem RingWindow.append
    (window : RingWindow positive slots items first items.length)
    {item : T} (stored : slots.get (slotOf positive items.length) = item) :
    RingWindow positive slots (items ++ [item]) first
      (items ++ [item]).length := by
  intro position after before
  rw [List.length_append, List.length_singleton] at before
  by_cases old : position < items.length
  · rw [List.getElem?_append_left old]
    exact window position after old
  · obtain rfl : position = items.length := by omega
    rw [List.getElem?_concat_length, stored]

end MatrixDB.Lib
