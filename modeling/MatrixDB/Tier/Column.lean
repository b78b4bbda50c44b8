import MatrixDB.Lib.Bytes

/-!
# A column in exactly one tier (`tiered_column.hpp`, CPU build)

A move always stages through a host buffer.  The cold file of a column belongs
to it alone: its path holds the process id and a serial number, so the file is
part of the column.  Without a CUDA build the `DEVICE` tier can be neither read
nor written, and `none` stands for the abort.
-/

namespace MatrixDB

open Lib

/-- `max_size()` of a vector of bytes; a longer one is never allocated. -/
def MAX_VECTOR_BYTES : Nat := 9223372036854775807

inductive MemorySpace where
  | HOST
  | DEVICE
  | COLD
  | UNIFIED
  deriving DecidableEq, Repr

structure TieredColumn where
  id : UInt64
  size : Nat
  tier : MemorySpace
  host : Bytes
  coldFile : Option Bytes
  deriving DecidableEq, Repr

namespace TieredColumn

/-- The constructor: every column is born in the host tier. -/
def create (id : UInt64) (bytes : Bytes) : TieredColumn :=
  { id := id, size := bytes.length, tier := .HOST, host := bytes
    coldFile := none }

/-- Null unless the bytes are in the host tier. -/
def hostPtr (column : TieredColumn) : Option Bytes :=
  if column.tier = .HOST then some column.host else none

def readToHost (column : TieredColumn) : Option Bytes :=
  match column.tier with
  | .HOST => some column.host
  | .COLD => do
      let file ← column.coldFile
      if column.size ≤ file.length then some (file.take column.size) else none
  | _ => none

/-- `free_current` then the move into the host tier. -/
def stage (column : TieredColumn) (staged : Bytes) : TieredColumn :=
  { column with
    tier := .HOST
    host := staged
    coldFile := if column.tier = .COLD then none else column.coldFile }

def migrateTo (column : TieredColumn) (dest : MemorySpace) :
    Option TieredColumn :=
  if dest = column.tier then some column
  else do
    let staged ← column.readToHost
    let column := column.stage staged
    match dest with
    | .HOST => some column
    | .COLD =>
        some { column with
          coldFile := some column.host, host := [], tier := .COLD }
    | _ => none

def appendBytes (column : TieredColumn) (bytes : Bytes) :
    Option TieredColumn :=
  if column.tier = .HOST then
    if MAX_VECTOR_BYTES < column.host.length + bytes.length then none
    else
      some { column with
        host := column.host ++ bytes, size := column.size + bytes.length }
  else none

/-! ## Where the bytes are -/

/-- The column holds `bytes` in the host tier or in its cold file. -/
inductive Holds (bytes : Bytes) : TieredColumn → Prop where
  | host {column : TieredColumn} (tier : column.tier = .HOST)
      (host : column.host = bytes) (size : column.size = bytes.length) :
      Holds bytes column
  | cold {column : TieredColumn} (tier : column.tier = .COLD)
      (file : column.coldFile = some bytes)
      (size : column.size = bytes.length) : Holds bytes column

namespace Holds

variable {bytes : Bytes} {column : TieredColumn}

theorem size_eq (holds : Holds bytes column) : column.size = bytes.length := by
  cases holds with
  | host tier host size => exact size
  | cold tier file size => exact size

theorem readToHost_eq (holds : Holds bytes column) :
    column.readToHost = some bytes := by
  cases holds with
  | host tier host size => simp [readToHost, tier, host]
  | cold tier file size => simp [readToHost, tier, file, size]

theorem unique {other : Bytes} (holds : Holds bytes column)
    (others : Holds other column) : bytes = other :=
  Option.some.inj (holds.readToHost_eq.symm.trans others.readToHost_eq)

theorem tier_cases (holds : Holds bytes column) :
    column.tier = .HOST ∨ column.tier = .COLD := by
  cases holds with
  | host tier host size => exact .inl tier
  | cold tier file size => exact .inr tier

theorem hostPtr_eq (holds : Holds bytes column) (tier : column.tier = .HOST) :
    column.hostPtr = some bytes := by
  have read := holds.readToHost_eq
  simp only [readToHost, tier] at read
  simp [hostPtr, tier, read]

/-- A move between the host and the cold tier keeps the bytes. -/
theorem migrateTo_eq (holds : Holds bytes column) {dest : MemorySpace}
    (reachable : dest = .HOST ∨ dest = .COLD) :
    ∃ moved, column.migrateTo dest = some moved ∧ moved.tier = dest ∧
      Holds bytes moved := by
  unfold migrateTo
  by_cases there : dest = column.tier
  · rw [if_pos there]
    exact ⟨column, rfl, there.symm, holds⟩
  · rw [if_neg there, holds.readToHost_eq]
    rcases reachable with toHost | toCold
    · subst toHost
      exact ⟨column.stage bytes, rfl, rfl, .host rfl rfl holds.size_eq⟩
    · subst toCold
      exact ⟨_, rfl, rfl, .cold rfl rfl holds.size_eq⟩

theorem appendBytes_eq (holds : Holds bytes column)
    (tier : column.tier = .HOST) {more : Bytes} {grown : TieredColumn}
    (appended : column.appendBytes more = some grown) :
    grown.tier = .HOST ∧ Holds (bytes ++ more) grown ∧
      (bytes ++ more).length ≤ MAX_VECTOR_BYTES := by
  have host : column.host = bytes := by
    have pointer := holds.hostPtr_eq tier
    simpa [hostPtr, tier] using pointer
  unfold appendBytes at appended
  rw [if_pos tier, host] at appended
  split at appended
  · cases appended
  · rename_i fits
    cases appended
    refine ⟨tier, .host tier rfl ?_, ?_⟩
    · rw [List.length_append, holds.size_eq]
    · rw [List.length_append]
      exact Nat.not_lt.mp fits

end Holds

theorem holds_create (id : UInt64) (bytes : Bytes) :
    Holds bytes (create id bytes) := .host rfl rfl rfl

end TieredColumn

end MatrixDB
