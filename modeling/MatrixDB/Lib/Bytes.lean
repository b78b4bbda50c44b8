import Mathlib.Algebra.Group.Nat.Defs

/-!
# Byte strings and little-endian integers

Fixed-width integers are stored least significant byte first.  The readers
below consume the front of a byte string and fail when it is too short, as a
stream read that asks for a whole item does.
-/

namespace MatrixDB.Lib

abbrev Bytes := List UInt8

/-- The `width` low bytes of a natural number, least significant first. -/
def leBytes : Nat → Nat → Bytes
  | 0, _ => []
  | width + 1, value =>
      UInt8.ofNat (value % 256) :: leBytes width (value / 256)

/-- The natural number a little-endian byte string stands for. -/
def leNat : Bytes → Nat
  | [] => 0
  | byte :: rest => byte.toNat + 256 * leNat rest

@[simp] theorem length_leBytes (width value : Nat) :
    (leBytes width value).length = width := by
  induction width generalizing value with
  | zero => rfl
  | succ width induction => simp [leBytes, induction]

theorem leNat_lt (bytes : Bytes) : leNat bytes < 256 ^ bytes.length := by
  induction bytes with
  | nil => simp [leNat]
  | cons byte rest induction =>
      have bounded : byte.toNat < 256 := byte.toNat_lt
      simp only [leNat, List.length_cons, Nat.pow_succ]
      omega

theorem leNat_leBytes (width value : Nat) :
    leNat (leBytes width value) = value % 256 ^ width := by
  induction width generalizing value with
  | zero => simp [leBytes, leNat, Nat.mod_one]
  | succ width induction =>
      have lowByte : (UInt8.ofNat (value % 256)).toNat = value % 256 := by
        simp
      simp only [leBytes, leNat, lowByte, induction, Nat.pow_succ]
      rw [Nat.mul_comm (256 ^ width) 256, Nat.mod_mul]

theorem leBytes_leNat (bytes : Bytes) :
    leBytes bytes.length (leNat bytes) = bytes := by
  induction bytes with
  | nil => rfl
  | cons byte rest induction =>
      have bounded : byte.toNat < 256 := byte.toNat_lt
      have low : (byte.toNat + 256 * leNat rest) % 256 = byte.toNat := by omega
      have high : (byte.toNat + 256 * leNat rest) / 256 = leNat rest := by
        omega
      simp only [List.length_cons, leNat, leBytes, low, high, induction,
        UInt8.ofNat_toNat]

/-- Split off the first `count` bytes, failing when fewer are left. -/
def takeBytes (count : Nat) (bytes : Bytes) : Option (Bytes × Bytes) :=
  if count ≤ bytes.length then some (bytes.take count, bytes.drop count)
  else none

theorem takeBytes_append (front rest : Bytes) :
    takeBytes front.length (front ++ rest) = some (front, rest) := by
  simp [takeBytes]

theorem takeBytes_of_length {count : Nat} {front : Bytes} (rest : Bytes)
    (length : front.length = count) :
    takeBytes count (front ++ rest) = some (front, rest) := by
  subst length
  exact takeBytes_append front rest

theorem takeBytes_short {count : Nat} {bytes : Bytes}
    (short : bytes.length < count) : takeBytes count bytes = none := by
  simp [takeBytes, Nat.not_le.mpr short]

/-- A successful split loses no byte. -/
theorem takeBytes_eq_some {count : Nat} {bytes front rest : Bytes}
    (taken : takeBytes count bytes = some (front, rest)) :
    bytes = front ++ rest ∧ front.length = count := by
  unfold takeBytes at taken
  split at taken
  · rename_i enough
    simp only [Option.some.injEq, Prod.mk.injEq] at taken
    obtain ⟨rfl, rfl⟩ := taken
    exact ⟨(List.take_append_drop count bytes).symm, by
      simp [Nat.min_eq_left enough]⟩
  · cases taken

/-- A split does not look at what follows. -/
theorem takeBytes_more {count : Nat} {bytes front rest : Bytes}
    (taken : takeBytes count bytes = some (front, rest)) (later : Bytes) :
    takeBytes count (bytes ++ later) = some (front, rest ++ later) := by
  obtain ⟨rfl, length⟩ := takeBytes_eq_some taken
  rw [List.append_assoc]
  exact takeBytes_of_length _ length

def u32Bytes (value : UInt32) : Bytes := leBytes 4 value.toNat

def u64Bytes (value : UInt64) : Bytes := leBytes 8 value.toNat

def u32OfBytes (bytes : Bytes) : UInt32 := UInt32.ofNat (leNat bytes)

def u64OfBytes (bytes : Bytes) : UInt64 := UInt64.ofNat (leNat bytes)

@[simp] theorem length_u32Bytes (value : UInt32) :
    (u32Bytes value).length = 4 := by
  simp [u32Bytes]

@[simp] theorem length_u64Bytes (value : UInt64) :
    (u64Bytes value).length = 8 := by
  simp [u64Bytes]

@[simp] theorem u32OfBytes_u32Bytes (value : UInt32) :
    u32OfBytes (u32Bytes value) = value := by
  have bounded : value.toNat < 256 ^ 4 := value.toNat_lt
  rw [u32OfBytes, u32Bytes, leNat_leBytes, Nat.mod_eq_of_lt bounded,
    UInt32.ofNat_toNat]

@[simp] theorem u64OfBytes_u64Bytes (value : UInt64) :
    u64OfBytes (u64Bytes value) = value := by
  have bounded : value.toNat < 256 ^ 8 := value.toNat_lt
  rw [u64OfBytes, u64Bytes, leNat_leBytes, Nat.mod_eq_of_lt bounded,
    UInt64.ofNat_toNat]

/-- Read one byte from the front of a byte string. -/
def readU8 : Bytes → Option (UInt8 × Bytes)
  | [] => none
  | byte :: rest => some (byte, rest)

@[simp] theorem readU8_cons (byte : UInt8) (rest : Bytes) :
    readU8 (byte :: rest) = some (byte, rest) := rfl

/-- Read one 32-bit integer from the front of a byte string. -/
def readU32 (bytes : Bytes) : Option (UInt32 × Bytes) :=
  (takeBytes 4 bytes).map fun (front, rest) => (u32OfBytes front, rest)

/-- Read one 64-bit integer from the front of a byte string. -/
def readU64 (bytes : Bytes) : Option (UInt64 × Bytes) :=
  (takeBytes 8 bytes).map fun (front, rest) => (u64OfBytes front, rest)

@[simp] theorem readU32_u32Bytes (value : UInt32) (rest : Bytes) :
    readU32 (u32Bytes value ++ rest) = some (value, rest) := by
  simp [readU32, takeBytes_of_length rest (length_u32Bytes value)]

@[simp] theorem readU64_u64Bytes (value : UInt64) (rest : Bytes) :
    readU64 (u64Bytes value ++ rest) = some (value, rest) := by
  simp [readU64, takeBytes_of_length rest (length_u64Bytes value)]

theorem readU32_more {bytes rest : Bytes} {value : UInt32}
    (read : readU32 bytes = some (value, rest)) (later : Bytes) :
    readU32 (bytes ++ later) = some (value, rest ++ later) := by
  simp only [readU32, Option.map_eq_some_iff, Prod.exists] at read
  obtain ⟨front, remaining, taken, equal⟩ := read
  cases equal
  simp [readU32, takeBytes_more taken later]

theorem readU32_short {bytes : Bytes} (short : bytes.length < 4) :
    readU32 bytes = none := by
  simp [readU32, takeBytes_short short]

theorem readU64_short {bytes : Bytes} (short : bytes.length < 8) :
    readU64 bytes = none := by
  simp [readU64, takeBytes_short short]

theorem u32Bytes_u32OfBytes {bytes : Bytes} (width : bytes.length = 4) :
    u32Bytes (u32OfBytes bytes) = bytes := by
  have bounded : leNat bytes < 2 ^ 32 := by
    have below := leNat_lt bytes
    rw [width] at below
    exact below
  rw [u32Bytes, u32OfBytes, UInt32.toNat_ofNat_of_lt' bounded, ← width]
  exact leBytes_leNat bytes

theorem u64Bytes_u64OfBytes {bytes : Bytes} (width : bytes.length = 8) :
    u64Bytes (u64OfBytes bytes) = bytes := by
  have bounded : leNat bytes < 2 ^ 64 := by
    have below := leNat_lt bytes
    rw [width] at below
    exact below
  rw [u64Bytes, u64OfBytes, UInt64.toNat_ofNat_of_lt' bounded, ← width]
  exact leBytes_leNat bytes

/-- A byte string is read exactly when it begins with the bytes written. -/
theorem readU32_eq_some {bytes rest : Bytes} {value : UInt32} :
    readU32 bytes = some (value, rest) ↔ bytes = u32Bytes value ++ rest := by
  constructor
  · intro read
    simp only [readU32, Option.map_eq_some_iff, Prod.exists] at read
    obtain ⟨front, remaining, taken, equal⟩ := read
    cases equal
    obtain ⟨whole, width⟩ := takeBytes_eq_some taken
    rw [u32Bytes_u32OfBytes width]
    exact whole
  · rintro rfl
    exact readU32_u32Bytes value rest

theorem readU64_eq_some {bytes rest : Bytes} {value : UInt64} :
    readU64 bytes = some (value, rest) ↔ bytes = u64Bytes value ++ rest := by
  constructor
  · intro read
    simp only [readU64, Option.map_eq_some_iff, Prod.exists] at read
    obtain ⟨front, remaining, taken, equal⟩ := read
    cases equal
    obtain ⟨whole, width⟩ := takeBytes_eq_some taken
    rw [u64Bytes_u64OfBytes width]
    exact whole
  · rintro rfl
    exact readU64_u64Bytes value rest

theorem readU8_eq_some {bytes rest : Bytes} {value : UInt8} :
    readU8 bytes = some (value, rest) ↔ bytes = value :: rest := by
  cases bytes with
  | nil => simp [readU8]
  | cons byte later => simp [readU8]

/-- Enough bytes begin with some value. -/
theorem exists_u32Bytes_append {bytes : Bytes} (later : Nat)
    (length : bytes.length = 4 + later) :
    ∃ value rest, bytes = u32Bytes value ++ rest ∧ rest.length = later := by
  refine ⟨u32OfBytes (bytes.take 4), bytes.drop 4, ?_, ?_⟩
  · rw [u32Bytes_u32OfBytes, List.take_append_drop]
    rw [List.length_take]
    omega
  · rw [List.length_drop]
    omega

theorem exists_byte_cons {bytes : Bytes} (later : Nat)
    (length : bytes.length = 1 + later) :
    ∃ value rest, bytes = value :: rest ∧ rest.length = later := by
  cases bytes with
  | nil =>
      rw [List.length_nil] at length
      omega
  | cons value rest =>
      refine ⟨value, rest, rfl, ?_⟩
      rw [List.length_cons] at length
      omega

theorem exists_u64Bytes_append {bytes : Bytes} (later : Nat)
    (length : bytes.length = 8 + later) :
    ∃ value rest, bytes = u64Bytes value ++ rest ∧ rest.length = later := by
  refine ⟨u64OfBytes (bytes.take 8), bytes.drop 8, ?_, ?_⟩
  · rw [u64Bytes_u64OfBytes, List.take_append_drop]
    rw [List.length_take]
    omega
  · rw [List.length_drop]
    omega

/-! ## Items of one width laid side by side -/

theorem length_flatMap_uniform {A B : Type} {layout : A → List B}
    {width : Nat} (items : List A)
    (uniform : ∀ item ∈ items, (layout item).length = width) :
    (items.flatMap layout).length = width * items.length := by
  induction items with
  | nil => rfl
  | cons item items induction =>
      have head := uniform item List.mem_cons_self
      have tail := induction fun other member =>
        uniform other (List.mem_cons_of_mem item member)
      rw [List.flatMap_cons, List.length_append, head, tail,
        List.length_cons, Nat.mul_succ, Nat.add_comm]

/-- The item at an index is read back from its own place. -/
theorem take_drop_flatMap {A B : Type} {layout : A → List B} {width : Nat}
    (items : List A) (uniform : ∀ item ∈ items, (layout item).length = width)
    {j : Nat} {item : A} (found : items[j]? = some item) :
    ((items.flatMap layout).drop (width * j)).take width = layout item := by
  induction items generalizing j with
  | nil => simp at found
  | cons first items induction =>
      have head := uniform first List.mem_cons_self
      rw [List.flatMap_cons]
      cases j with
      | zero =>
          simp only [List.getElem?_cons_zero, Option.some.injEq] at found
          subst found
          rw [Nat.mul_zero, List.drop_zero]
          exact List.take_left' head
      | succ j =>
          have shift : width * (j + 1) = (layout first).length + width * j := by
            rw [head, Nat.mul_succ, Nat.add_comm]
          rw [shift, List.drop_length_add_append]
          apply induction
          · intro other member
            exact uniform other (List.mem_cons_of_mem first member)
          · simpa using found

/-! ## Counted sections -/

section
variable {S I : Type}

/-- Read a counted section, one item after another.  A step either aborts, or
finds the input bad and leaves its state as it is then, or goes on with the
rest of the input. -/
def readLoop (step : Bytes → S → Option (Option Bytes × S)) :
    Nat → Bytes → S → Option (Option Bytes × S)
  | 0, input, state => some (some input, state)
  | count + 1, input, state =>
      match step input state with
      | none => none
      | some (none, state) => some (none, state)
      | some (some rest, state) => readLoop step count rest state

/-- Reading back a section that was written item by item: either a step has
found an item bad, or the whole section has been read and no byte more. -/
theorem readLoop_written {step : Bytes → S → Option (Option Bytes × S)}
    {write : I → Bytes} (Read : List I → S → Prop) (Bad : S → Prop)
    {items : List I}
    (reads : ∀ before item after, items = before ++ item :: after →
      ∀ rest state out state', Read before state →
        step (write item ++ rest) state = some (out, state') →
        (out = none ∧ Bad state') ∨
          (out = some rest ∧ Read (before ++ [item]) state'))
    {rest : Bytes} {state state' : S} {out : Option Bytes}
    (start : Read [] state)
    (ran : readLoop step items.length (items.flatMap write ++ rest) state =
      some (out, state')) :
    (out = none ∧ Bad state') ∨ (out = some rest ∧ Read items state') := by
  have tail : ∀ after before state, items = before ++ after →
      Read before state →
      readLoop step after.length (after.flatMap write ++ rest) state =
        some (out, state') →
      (out = none ∧ Bad state') ∨ (out = some rest ∧ Read items state') := by
    intro after
    induction after with
    | nil =>
        intro before state whole read ran
        cases ran
        rw [List.append_nil] at whole
        exact .inr ⟨rfl, whole ▸ read⟩
    | cons item after induction =>
        intro before state whole read ran
        rw [List.flatMap_cons, List.append_assoc, List.length_cons,
          readLoop] at ran
        split at ran
        · cases ran
        · rename_i stopped
          cases ran
          have cases := reads before item after whole _ _ _ _ read stopped
          rcases cases with bad | ⟨wrong, _⟩
          · exact .inl bad
          · cases wrong
        · rename_i went
          have cases := reads before item after whole _ _ _ _ read went
          rcases cases with ⟨wrong, _⟩ | ⟨same, next⟩
          · cases wrong
          · cases same
            apply induction (before ++ [item]) _ _ next ran
            rw [whole, List.append_assoc]
            rfl
  exact tail items [] state rfl start ran

end

end MatrixDB.Lib
