import Mathlib.Data.BitVec

/-!
# Bitwise checksums

A reflected cyclic redundancy check takes one bit of the message a round: the bit
is added to the lowest bit of the register, and the register is shifted, with the
polynomial added when the bit shifted out is set.  The register is a linear
function of itself and the message, and no two registers are shifted to the same
one; a change of the message that is no longer than the register is therefore
always seen in the register at the end.
-/

namespace MatrixDB.Lib

variable {w : Nat} (poly : BitVec w)

/-- A shift of the register. -/
def crcShift (register : BitVec w) : BitVec w :=
  if register.getLsbD 0 then (register >>> 1) ^^^ poly else register >>> 1

/-- A bit of the message in the place of the lowest bit. -/
def bitWord (bit : Bool) : BitVec w := BitVec.setWidth w (BitVec.ofBool bit)

/-- One round. -/
def crcRound (register : BitVec w) (bit : Bool) : BitVec w :=
  crcShift poly (register ^^^ bitWord bit)

/-- The register after a message. -/
def crcRun (register : BitVec w) (message : List Bool) : BitVec w :=
  message.foldl (crcRound poly) register

/-! ## Linearity -/

theorem crcShift_xor (left right : BitVec w) :
    crcShift poly (left ^^^ right) =
      crcShift poly left ^^^ crcShift poly right := by
  unfold crcShift
  simp only [BitVec.getLsbD_xor, BitVec.ushiftRight_xor_distrib]
  cases left.getLsbD 0 <;> cases right.getLsbD 0
  · rfl
  · simp only [Bool.false_bne, if_true, Bool.false_eq_true, if_false]
    rw [BitVec.xor_assoc]
  · simp only [Bool.bne_false, if_true, Bool.false_eq_true, if_false]
    rw [BitVec.xor_assoc, BitVec.xor_assoc, BitVec.xor_comm poly]
  · simp only [bne_self_eq_false, Bool.false_eq_true, if_false, if_true]
    rw [BitVec.xor_assoc, BitVec.xor_comm poly, BitVec.xor_assoc,
      BitVec.xor_self, BitVec.xor_zero]

theorem bitWord_xor (left right : Bool) :
    (bitWord (left ^^ right) : BitVec w) = bitWord left ^^^ bitWord right := by
  cases left <;> cases right <;> simp [bitWord]

theorem crcRound_xor (left right : BitVec w) (here there : Bool) :
    crcRound poly (left ^^^ right) (here ^^ there) =
      crcRound poly left here ^^^ crcRound poly right there := by
  rw [crcRound, crcRound, crcRound, ← crcShift_xor, bitWord_xor]
  congr 1
  ac_rfl

/-- The register of a sum of messages is the sum of their registers. -/
theorem crcRun_xor {here there : List Bool}
    (size : here.length = there.length) (left right : BitVec w) :
    crcRun poly (left ^^^ right) (List.zipWith xor here there) =
      crcRun poly left here ^^^ crcRun poly right there := by
  induction here generalizing there left right with
  | nil =>
      cases there with
      | nil => rfl
      | cons _ _ => cases size
  | cons bit here induction =>
      cases there with
      | nil => cases size
      | cons other there =>
          have later := induction (Nat.succ.inj size)
            (crcRound poly left bit) (crcRound poly right other)
          rw [← crcRound_xor] at later
          exact later

/-! ## Nothing is lost -/

theorem getLsbD_bitWord (bit : Bool) (i : Nat) :
    (bitWord bit : BitVec w).getLsbD i = (decide (i < w) && decide (i = 0) && bit) := by
  unfold bitWord
  rw [BitVec.getLsbD_setWidth, BitVec.getLsbD_ofBool, Bool.and_assoc]

section
variable {poly} (top : poly.msb = true)

include top

/-- The highest bit tells which bit was shifted out. -/
theorem msb_crcShift (register : BitVec w) :
    (crcShift poly register).msb = register.getLsbD 0 := by
  unfold crcShift
  cases low : register.getLsbD 0 with
  | true => simp [BitVec.msb_xor, BitVec.msb_ushiftRight, top]
  | false => simp [BitVec.msb_ushiftRight]

/-- If the register is zero at the end of a message whose bits beyond the width
are clear, the message is what the register has held. -/
theorem getLsbD_of_crcRun_eq_zero {message : List Bool}
    (clear : ∀ i, w ≤ i → message.getD i false = false) {register : BitVec w}
    (ends : crcRun poly register message = 0#w) (i : Nat) :
    register.getLsbD i = message.getD i false := by
  induction message generalizing register i with
  | nil =>
      have zero : register = 0#w := ends
      simp [zero]
  | cons bit message induction =>
      have positive : 0 < w := by
        apply Nat.pos_of_ne_zero
        intro empty
        subst empty
        simp [BitVec.msb_eq_getLsbD_last] at top
      have beyond : ∀ i, w ≤ i + 1 → message.getD i false = false :=
        fun i large => clear (i + 1) large
      have held := induction
        (fun i large => beyond i (Nat.le_succ_of_le large)) ends
      have high : (crcRound poly register bit).msb = false := by
        rw [BitVec.msb_eq_getLsbD_last, held]
        exact beyond _ (by omega)
      rw [crcRound, msb_crcShift top] at high
      have same : register.getLsbD 0 = bit := by
        rw [BitVec.getLsbD_xor, getLsbD_bitWord] at high
        simpa [positive] using high
      cases i with
      | zero => simpa using same
      | succ i =>
          have shifted := held i
          rw [crcRound, crcShift, if_neg (by rw [high]; decide),
            BitVec.getLsbD_ushiftRight, BitVec.getLsbD_xor,
            getLsbD_bitWord] at shifted
          have later : 1 + i ≠ 0 := by omega
          simp only [later, decide_false, Bool.and_false, Bool.false_and,
            Bool.xor_false] at shifted
          rw [Nat.add_comm] at shifted
          simpa using shifted

end

theorem crcRun_clear (message : List Bool)
    (clear : ∀ bit ∈ message, bit = false) : crcRun poly 0#w message = 0#w := by
  induction message with
  | nil => rfl
  | cons bit message induction =>
      have first : bit = false := clear bit List.mem_cons_self
      have round : crcRound poly 0#w false = 0#w := by
        simp [crcRound, crcShift, bitWord]
      rw [crcRun, List.foldl_cons, first, round]
      exact induction fun other member => clear other (.tail _ member)

/-! ## Bursts -/

/-- Messages of one length that differ in at most `width` consecutive bits. -/
structure Burst (width : Nat) (before after : List Bool) : Prop where
  size : before.length = after.length
  within : ∃ start, ∀ i, i < start ∨ start + width ≤ i →
    before[i]? = after[i]?

/-- The bits in which two messages differ. -/
theorem getElem?_difference {before after : List Bool} {i : Nat} :
    (List.zipWith xor before after)[i]? = some false →
      before[i]? = after[i]? := by
  intro none
  rw [List.getElem?_zipWith] at none
  cases here : before[i]? <;> cases there : after[i]? <;>
    rw [here, there] at none <;> simp_all

/-- A burst that is no longer than the register changes what the register holds
at the end. -/
theorem crcRun_ne_of_burst {poly : BitVec w} (top : poly.msb = true)
    {before after : List Bool} (burst : Burst w before after)
    (changed : before ≠ after) (register : BitVec w) :
    crcRun poly register before ≠ crcRun poly register after := by
  intro same
  obtain ⟨start, agree⟩ := burst.within
  have sum := crcRun_xor poly burst.size register register
  rw [same, BitVec.xor_self, BitVec.xor_self] at sum
  have outside : ∀ i, i < start ∨ start + w ≤ i →
      (List.zipWith xor before after).getD i false = false := by
    intro i far
    have equal := agree i far
    rw [List.getD_eq_getElem?_getD, List.getElem?_zipWith, equal]
    cases after[i]? <;> simp
  have front : crcRun poly 0#w
      ((List.zipWith xor before after).take start) = 0#w := by
    apply crcRun_clear
    intro bit member
    obtain ⟨i, inside, here⟩ := List.mem_iff_getElem.mp member
    rw [List.length_take] at inside
    have quiet := outside i (.inl (by omega))
    rw [List.getElem_take] at here
    rw [List.getD_eq_getElem?_getD, List.getElem?_eq_getElem (by omega),
      here] at quiet
    exact quiet
  have rest : crcRun poly 0#w
      ((List.zipWith xor before after).drop start) = 0#w := by
    rw [← List.take_append_drop start (List.zipWith xor before after),
      crcRun, List.foldl_append] at sum
    change crcRun poly (crcRun poly 0#w _) _ = 0#w at sum
    rw [front] at sum
    exact sum
  have clear : ∀ i, w ≤ i →
      ((List.zipWith xor before after).drop start).getD i false = false := by
    intro i large
    have quiet := outside (start + i) (.inr (by omega))
    rw [List.getD_eq_getElem?_getD] at quiet ⊢
    rw [List.getElem?_drop]
    exact quiet
  apply changed
  apply List.ext_getElem?
  intro i
  by_cases inside : start ≤ i
  · have held := getLsbD_of_crcRun_eq_zero top clear rest (i - start)
    rw [BitVec.getLsbD_zero, List.getD_eq_getElem?_getD,
      List.getElem?_drop, Nat.add_sub_cancel' inside] at held
    by_cases small : i < before.length
    · apply getElem?_difference
      have both : i < (List.zipWith xor before after).length := by
        rw [List.length_zipWith, ← burst.size]
        omega
      rw [List.getElem?_eq_getElem both] at held ⊢
      exact congrArg some held.symm
    · have large := Nat.not_lt.mp small
      rw [List.getElem?_eq_none large,
        List.getElem?_eq_none (burst.size ▸ large)]
  · exact agree i (.inl (by omega))

/-! ## Words of a message -/

/-- Shifts without a message. -/
def crcShifts : Nat → BitVec w → BitVec w
  | 0, register => register
  | rounds + 1, register => crcShifts rounds (crcShift poly register)

/-- The lowest bits of a word, the lowest first. -/
def wordBits (count : Nat) (word : BitVec w) : List Bool :=
  (List.range count).map word.getLsbD

theorem wordBits_succ (count : Nat) (word : BitVec w) :
    wordBits (count + 1) word =
      word.getLsbD 0 :: wordBits count (word >>> 1) := by
  unfold wordBits
  rw [List.range_succ_eq_map, List.map_cons, List.map_map]
  congr 1
  apply List.map_congr_left
  intro i _
  rw [BitVec.getLsbD_ushiftRight, Nat.add_comm]
  rfl

/-- A word may be added all at once: its bits come down to the lowest place one
by one. -/
theorem crcShift_word (register word : BitVec w) :
    crcShift poly (register ^^^ word) =
      crcRound poly register (word.getLsbD 0) ^^^ (word >>> 1) := by
  have even : crcShift poly (bitWord (word.getLsbD 0) ^^^ word) =
      word >>> 1 := by
    have low : (bitWord (word.getLsbD 0) ^^^ word).getLsbD 0 = false := by
      rw [BitVec.getLsbD_xor, getLsbD_bitWord]
      by_cases positive : 0 < w
      · simp [positive]
      · simp [positive, BitVec.getLsbD_of_ge word 0 (by omega)]
    have gone : (bitWord (word.getLsbD 0) : BitVec w) >>> 1 = 0#w := by
      apply BitVec.eq_of_getLsbD_eq
      intro i _
      rw [BitVec.getLsbD_ushiftRight, getLsbD_bitWord]
      simp
    rw [crcShift, if_neg (by rw [low]; decide),
      BitVec.ushiftRight_xor_distrib, gone, BitVec.zero_xor]
  have split : register ^^^ word =
      (register ^^^ bitWord (word.getLsbD 0)) ^^^
        (bitWord (word.getLsbD 0) ^^^ word) := by
    rw [BitVec.xor_assoc, ← BitVec.xor_assoc (bitWord _), BitVec.xor_self,
      BitVec.zero_xor]
  rw [split, crcShift_xor, even, crcRound]

theorem crcShifts_word {count : Nat} {word : BitVec w}
    (short : ∀ i, count ≤ i → word.getLsbD i = false) (register : BitVec w) :
    crcShifts poly count (register ^^^ word) =
      crcRun poly register (wordBits count word) := by
  induction count generalizing word register with
  | zero =>
      have zero : word = 0#w :=
        BitVec.eq_of_getLsbD_eq fun i _ => by
          rw [short i (Nat.zero_le i), BitVec.getLsbD_zero]
      rw [zero, BitVec.xor_zero]
      rfl
  | succ count induction =>
      rw [crcShifts, crcShift_word, wordBits_succ, induction]
      · rfl
      · intro i large
        rw [BitVec.getLsbD_ushiftRight]
        exact short _ (by omega)

end MatrixDB.Lib
