import MatrixDB.Backup.Calls
import MatrixDB.Catalog.RoundTrip
import MatrixDB.Engine.Failures

/-!
# Unreported failures of a save and of a backup

`save_catalog` writes a temporary file and renames it.  It looks at what
`fopen`, `fwrite` and `rename` report but not at `fclose`, and `backup` does
not look at what `save_catalog` returns.  The outcome of every call is an
argument, as for the checkpoint.  The temporary file is not read by anyone and
is left out.
-/

namespace MatrixDB

open Lib CostArith

variable {κ : Type}

/-- How the calls of one `save_catalog` end.  An `fclose` that fails with
`some count` leaves the first `count` bytes in the file. -/
structure CatalogOutcome where
  opens : Bool
  writes : Nat → Bool
  close : Option Nat
  renames : Bool

def CatalogOutcome.success : CatalogOutcome :=
  { opens := true, writes := fun _ => true, close := none, renames := true }

/-- `fwrite` calls joined by `&&`: none follows one that fails.  The stream is
the number of calls made and the bytes they wrote. -/
def fwrites (writes : Nat → Bool) : List Bytes → Nat × Bytes →
    Option (Nat × Bytes)
  | [], stream => some stream
  | bytes :: later, (calls, written) =>
      if writes calls then fwrites writes later (calls + 1, written ++ bytes)
      else none

/-- No call is made for no bytes. -/
def unlessEmpty (bytes : Bytes) : List Bytes :=
  if bytes.isEmpty then [] else [bytes]

def stringWrites (string : Bytes) : List Bytes :=
  let len := UInt32.ofNat string.length
  u32Bytes len :: unlessEmpty (string.take len.toNat)

namespace Catalog

def headerWrites (order : WalkOrder) : List Bytes :=
  [u32Bytes MATRIX_CATALOG_MAGIC,
    u64Bytes (UInt64.ofNat order.columns.length)]

def columnWrites (catalog : Catalog κ) (id : UInt64) (bytes : Bytes) :
    List Bytes :=
  [u64Bytes id, u32Bytes (catalog.columnType id).code,
    u64Bytes (UInt64.ofNat (catalog.columnRows id))] ++
    stringWrites (catalog.columnName id) ++ unlessEmpty bytes

def dictWrites (catalog : Catalog κ) (id : UInt64) : List Bytes :=
  let dict := (catalog.stringDicts.lookup id).getD []
  [u64Bytes id, u64Bytes (UInt64.ofNat dict.length)] ++
    dict.flatMap stringWrites

def maskWrites (catalog : Catalog κ) (id : UInt64) : List Bytes :=
  let mask := (catalog.nullMasks.lookup id).getD []
  [u64Bytes id, u64Bytes (UInt64.ofNat mask.length)] ++ unlessEmpty mask

/-- The calls behind the columns. -/
def trailingWrites (catalog : Catalog κ) (order : WalkOrder) : List Bytes :=
  u64Bytes (UInt64.ofNat order.dicts.length) ::
    order.dicts.flatMap catalog.dictWrites ++
  u64Bytes (UInt64.ofNat order.masks.length) ::
    order.masks.flatMap catalog.maskWrites

/-- The loop over the columns; a borrowed column goes back also where a call
fails. -/
def fwriteColumns (writes : Nat → Bool) : List UInt64 → Nat × Bytes →
    Catalog κ → Option (Option (Nat × Bytes) × Catalog κ)
  | [], stream, catalog => some (some stream, catalog)
  | id :: ids, stream, catalog => do
      let (home, catalog) ← catalog.borrow id
      let bytes ← catalog.hostBytes id
      let stream := fwrites writes (catalog.columnWrites id bytes) stream
      let catalog ← catalog.giveBack id home
      match stream with
      | none => some (none, catalog)
      | some stream => fwriteColumns writes ids stream catalog

/-- The bytes given to the stream if every call succeeds. -/
def fwriteCatalog (writes : Nat → Bool) (order : WalkOrder)
    (catalog : Catalog κ) : Option (Option Bytes × Catalog κ) :=
  match fwrites writes (headerWrites order) (0, []) with
  | none => some (none, catalog)
  | some stream => do
      let (stream, catalog) ← fwriteColumns writes order.columns stream catalog
      let stream := stream.bind (fwrites writes (catalog.trailingWrites order))
      some (stream.map Prod.snd, catalog)

/-- `save_catalog` over a file that may be there: what it returns, and the file
at the path afterwards. -/
def saveCatalogWith (outcome : CatalogOutcome) (order : WalkOrder)
    (catalog : Catalog κ) (old : Option Bytes) :
    Option (Bool × Option Bytes × Catalog κ) :=
  if !outcome.opens then some (false, old, catalog)
  else do
    let (written, catalog) ← fwriteCatalog outcome.writes order catalog
    match written with
    | none => some (false, old, catalog)
    | some bytes =>
        if outcome.renames then
          some (true, some (letThrough outcome.close bytes), catalog)
        else some (false, old, catalog)

end Catalog

/-- `backup` goes on to the checkpoint whatever `save_catalog` returns; `none`
is an abort of `save_checkpoint`. -/
def CPUMockEngine.backupWith (engine : CPUMockEngine κ)
    (outcome : CatalogOutcome) (checkpoint : SaveOutcome)
    (order : Catalog.WalkOrder) (old : BackupFiles) :
    Option (BackupFiles × CPUMockEngine κ) := do
  let (_, file, catalog) ←
    engine.catalog.saveCatalogWith outcome order old.catalog
  let disk ← saveCheckpointWith checkpoint engine.points.engine.kv
    { wal := [], ckpt := old.kv, tmp := none }
  some ({ catalog := file, kv := disk.ckpt }, { engine with catalog })

/-! ## What is written -/

theorem fwrites_whole {writes : Nat → Bool} {calls : List Bytes} {made : Nat}
    {written : Bytes}
    (succeed : ∀ call < calls.length, writes (made + call) = true) :
    fwrites writes calls (made, written) =
      some (made + calls.length, written ++ calls.flatten) := by
  induction calls generalizing made written with
  | nil => simp [fwrites]
  | cons bytes later induction =>
      have rest : ∀ call < later.length, writes (made + 1 + call) = true := by
        intro call inside
        rw [Nat.add_assoc, Nat.add_comm 1]
        exact succeed (call + 1) (Nat.succ_lt_succ inside)
      have first : writes made = true := succeed 0 (Nat.zero_lt_succ _)
      rw [fwrites, if_pos first, induction rest, List.flatten_cons,
        List.append_assoc, List.length_cons, Nat.add_assoc, Nat.add_comm 1]

theorem fwrites_cut {writes : Nat → Bool} {calls : List Bytes} {made : Nat}
    {written : Bytes}
    (fails : ¬∀ call < calls.length, writes (made + call) = true) :
    fwrites writes calls (made, written) = none := by
  induction calls generalizing made written with
  | nil =>
      exact absurd (fun call inside => absurd inside (Nat.not_lt_zero call))
        fails
  | cons bytes later induction =>
      rw [fwrites]
      by_cases first : writes made = true
      · rw [if_pos first]
        apply induction
        intro rest
        apply fails
        intro call inside
        cases call with
        | zero => exact first
        | succ call =>
            have next := rest call (Nat.lt_of_succ_lt_succ inside)
            rwa [Nat.add_assoc, Nat.add_comm 1] at next
      · rw [if_neg first]

/-- The calls of a stream that has just been opened. -/
theorem fwrites_fresh (writes : Nat → Bool) (calls : List Bytes) :
    ((∀ call < calls.length, writes call = true) ∧
        fwrites writes calls (0, []) = some (calls.length, calls.flatten)) ∨
      ((¬∀ call < calls.length, writes call = true) ∧
        fwrites writes calls (0, []) = none) := by
  have start : ∀ call, writes (0 + call) = writes call := by
    intro call
    rw [Nat.zero_add]
  by_cases succeed : ∀ call < calls.length, writes call = true
  · left
    refine ⟨succeed, ?_⟩
    rw [fwrites_whole fun call inside =>
        (start call).trans (succeed call inside),
      Nat.zero_add, List.nil_append]
  · right
    refine ⟨succeed, fwrites_cut ?_⟩
    intro all
    exact succeed fun call inside => (start call).symm.trans (all call inside)

theorem fwrites_append (writes : Nat → Bool) (front back : List Bytes)
    (stream : Nat × Bytes) :
    fwrites writes (front ++ back) stream =
      (fwrites writes front stream).bind (fwrites writes back) := by
  induction front generalizing stream with
  | nil => rfl
  | cons bytes later induction =>
      obtain ⟨calls, written⟩ := stream
      rw [List.cons_append, fwrites, fwrites]
      split
      · exact induction _
      · rfl

theorem flatten_unlessEmpty (bytes : Bytes) :
    (unlessEmpty bytes).flatten = bytes := by
  cases bytes with
  | nil => rfl
  | cons byte rest => exact List.flatten_singleton

theorem flatten_stringWrites (string : Bytes) :
    (stringWrites string).flatten = Catalog.stringRecord string := by
  rw [stringWrites, List.flatten_cons, flatten_unlessEmpty]
  rfl

theorem flatten_calls {A : Type} {calls : A → List Bytes}
    {record : A → Bytes} (same : ∀ item, (calls item).flatten = record item)
    (items : List A) :
    (items.flatMap calls).flatten = items.flatMap record := by
  induction items with
  | nil => rfl
  | cons item items induction =>
      rw [List.flatMap_cons, List.flatten_append, same, induction,
        List.flatMap_cons]

namespace Catalog

theorem flatten_columnWrites (catalog : Catalog κ) (id : UInt64)
    (bytes : Bytes) :
    (catalog.columnWrites id bytes).flatten =
      catalog.columnRecord id bytes := by
  simp only [columnWrites, List.flatten_append, List.flatten_cons,
    List.flatten_nil, List.append_nil, flatten_stringWrites,
    flatten_unlessEmpty, columnRecord, List.append_assoc]

theorem flatten_dictWrites (catalog : Catalog κ) (id : UInt64) :
    (catalog.dictWrites id).flatten = catalog.dictRecord id := by
  simp only [dictWrites, List.flatten_append, List.flatten_cons,
    List.flatten_nil, List.append_nil, flatten_calls flatten_stringWrites,
    dictRecord]

theorem flatten_maskWrites (catalog : Catalog κ) (id : UInt64) :
    (catalog.maskWrites id).flatten = catalog.maskRecord id := by
  simp only [maskWrites, List.flatten_append, List.flatten_cons,
    List.flatten_nil, List.append_nil, flatten_unlessEmpty, maskRecord]

def savedWrites (catalog : Catalog κ) (id : UInt64) : List Bytes :=
  catalog.columnWrites id ((catalog.contents id).getD [])

/-- Every `fwrite` of a complete save. -/
def snapshotWrites (catalog : Catalog κ) (order : WalkOrder) : List Bytes :=
  headerWrites order ++
    (order.columns.flatMap catalog.savedWrites ++ catalog.trailingWrites order)

theorem flatten_snapshotWrites (catalog : Catalog κ) (order : WalkOrder) :
    (catalog.snapshotWrites order).flatten = catalog.snapshot order := by
  have columns : ∀ id, (catalog.savedWrites id).flatten =
      catalog.savedColumn id :=
    fun id => catalog.flatten_columnWrites id _
  simp only [snapshotWrites, headerWrites, trailingWrites,
    List.flatten_append, List.flatten_cons, flatten_calls columns,
    flatten_calls catalog.flatten_dictWrites,
    flatten_calls catalog.flatten_maskWrites, snapshot, List.cons_append,
    List.nil_append]

theorem Keeps.columnWrites {before after : Catalog κ}
    (wellFormed : before.WellFormed) (keeps : Keeps before after)
    (id : UInt64) (bytes : Bytes) :
    after.columnWrites id bytes = before.columnWrites id bytes := by
  unfold Catalog.columnWrites columnName
  rw [keeps.columnType, keeps.columnRows wellFormed, keeps.columnNames]

theorem Keeps.trailingWrites {before after : Catalog κ}
    (keeps : Keeps before after) (order : WalkOrder) :
    after.trailingWrites order = before.trailingWrites order := by
  have dicts : after.dictWrites = before.dictWrites := by
    funext id
    unfold dictWrites
    rw [keeps.stringDicts]
  have masks : after.maskWrites = before.maskWrites := by
    funext id
    unfold maskWrites
    rw [keeps.nullMasks]
  rw [Catalog.trailingWrites, Catalog.trailingWrites, dicts, masks]

/-- The columns are written one behind the other, and each stays where it
was. -/
theorem fwriteColumns_eq (writes : Nat → Bool) (ids : List UInt64)
    {catalog : Catalog κ} (wellFormed : catalog.WellFormed)
    (registered : ∀ id ∈ ids, (catalog.contents id).isSome)
    (stream : Nat × Bytes) :
    ∃ after, fwriteColumns writes ids stream catalog =
        some (fwrites writes (ids.flatMap catalog.savedWrites) stream,
          after) ∧
      Keeps catalog after := by
  induction ids generalizing catalog stream with
  | nil => exact ⟨catalog, rfl, .refl wellFormed⟩
  | cons id ids induction =>
      obtain ⟨home, lent, bytes, back, borrowed, host, gave, read, keeps,
        sofar⟩ := loan_eq wellFormed (registered id List.mem_cons_self)
      have calls : lent.columnWrites id bytes = catalog.savedWrites id := by
        rw [keeps.columnWrites wellFormed, savedWrites, read]
        rfl
      have saved : back.savedWrites = catalog.savedWrites := by
        funext other
        unfold savedWrites
        rw [sofar.columnWrites wellFormed, sofar.contents]
      simp only [fwriteColumns, borrowed, host, gave, calls,
        Option.bind_eq_bind, Option.bind_some, List.flatMap_cons,
        fwrites_append]
      cases fwrites writes (catalog.savedWrites id) stream with
      | none => exact ⟨back, rfl, sofar⟩
      | some stream =>
          obtain ⟨after, ran, keepsRest⟩ := induction sofar.wellFormed (by
            intro other member
            rw [sofar.contents]
            exact registered other (List.mem_cons_of_mem id member)) stream
          rw [saved] at ran
          exact ⟨after, ran, sofar.trans keepsRest⟩

theorem fwriteCatalog_eq (writes : Nat → Bool) {order : WalkOrder}
    {catalog : Catalog κ} (wellFormed : catalog.WellFormed)
    (registered : ∀ id ∈ order.columns, (catalog.contents id).isSome) :
    ∃ after, fwriteCatalog writes order catalog =
        some ((fwrites writes (catalog.snapshotWrites order) (0, [])).map
          Prod.snd, after) ∧
      Keeps catalog after := by
  rw [snapshotWrites, fwrites_append, fwriteCatalog]
  cases fwrites writes (headerWrites order) (0, []) with
  | none => exact ⟨catalog, rfl, .refl wellFormed⟩
  | some stream =>
      obtain ⟨after, ran, keeps⟩ :=
        fwriteColumns_eq writes order.columns wellFormed registered stream
      refine ⟨after, ?_, keeps⟩
      simp only [ran, keeps.trailingWrites, Option.bind_eq_bind,
        Option.bind_some, fwrites_append]

end Catalog

/-! ## What a save and a backup promise -/

/-- Every call of `save_catalog` that is looked at succeeds. -/
structure CatalogOutcome.Succeeds (outcome : CatalogOutcome) (calls : Nat) :
    Prop where
  opens : outcome.opens = true
  writes : ∀ call < calls, outcome.writes call = true
  renames : outcome.renames = true

/-- The `fclose` fails and leaves a part of the file out. -/
def CatalogOutcome.Loses (outcome : CatalogOutcome) (size : Nat) : Prop :=
  ∃ count, outcome.close = some count ∧ count < size

/-- Every call of `save_checkpoint` that is looked at succeeds. -/
structure SaveOutcome.Succeeds (outcome : SaveOutcome)
    (kv : KVStore MATRIX_STORE_SLOTS) : Prop where
  opens : outcome.opens = true
  writes : outcome.allWritten (2 + 2 * kv.forEach.length) = true
  renames : outcome.renames = true

namespace Catalog

/-- A complete snapshot, the maps walked in one order or another. -/
def IsSnapshot (catalog : Catalog κ) (file : Option Bytes) : Prop :=
  ∃ order, order.Walks catalog ∧ file = some (catalog.snapshot order)

/-- A save that returns true has written a complete snapshot, and one that
returns false has left the old file alone. -/
def SavesHonestly (catalog : Catalog κ) (outcome : CatalogOutcome)
    (order : WalkOrder) (old : Option Bytes) : Prop :=
  ∃ saved file after,
    catalog.saveCatalogWith outcome order old = some (saved, file, after) ∧
    (saved = true → catalog.IsSnapshot file) ∧ (saved = false → file = old)

end Catalog

/-- A backup that returns has written two complete files. -/
def CPUMockEngine.BacksUpHonestly (engine : CPUMockEngine κ)
    (outcome : CatalogOutcome) (checkpoint : SaveOutcome)
    (order : Catalog.WalkOrder) (old : BackupFiles) : Prop :=
  ∀ files after,
    engine.backupWith outcome checkpoint order old = some (files, after) →
      engine.catalog.IsSnapshot files.catalog ∧
      files.kv = some (encodeCheckpoint engine.points.engine.kv)

namespace Catalog

variable {catalog : Catalog κ} {order : WalkOrder}

/-- `save_catalog` returns true exactly if no call that is looked at fails. -/
theorem saveCatalogWith_eq (wellFormed : catalog.WellFormed)
    (registered : ∀ id ∈ order.columns, (catalog.contents id).isSome)
    (outcome : CatalogOutcome) (old : Option Bytes) :
    ∃ after, Keeps catalog after ∧
      ((outcome.Succeeds (catalog.snapshotWrites order).length ∧
          catalog.saveCatalogWith outcome order old =
            some (true,
              some (letThrough outcome.close (catalog.snapshot order)),
              after)) ∨
        (¬outcome.Succeeds (catalog.snapshotWrites order).length ∧
          catalog.saveCatalogWith outcome order old =
            some (false, old, after))) := by
  by_cases opens : outcome.opens = true
  swap
  · refine ⟨catalog, .refl wellFormed, .inr ⟨fun all => opens all.opens, ?_⟩⟩
    rw [saveCatalogWith, if_pos (by simpa using opens)]
  obtain ⟨after, ran, keeps⟩ :=
    fwriteCatalog_eq outcome.writes wellFormed registered
  refine ⟨after, keeps, ?_⟩
  rw [saveCatalogWith, if_neg (by simpa using opens), ran]
  rcases fwrites_fresh outcome.writes (catalog.snapshotWrites order) with
    ⟨writes, stream⟩ | ⟨fails, stream⟩
  · rw [stream, flatten_snapshotWrites]
    by_cases renames : outcome.renames = true
    · left
      refine ⟨⟨opens, writes, renames⟩, ?_⟩
      simp only [Option.bind_eq_bind, Option.bind_some, Option.map_some,
        if_pos renames]
    · right
      refine ⟨fun all => renames all.renames, ?_⟩
      simp only [Option.bind_eq_bind, Option.bind_some, Option.map_some,
        if_neg renames]
  · right
    rw [stream]
    exact ⟨fun all => fails all.writes, rfl⟩

/-- Every walk makes a file of the same length. -/
theorem length_snapshot_of_walks {other : WalkOrder}
    (walks : order.Walks catalog) (others : other.Walks catalog) :
    (catalog.snapshot other).length = (catalog.snapshot order).length := by
  have columns := others.columns.trans walks.columns.symm
  have dicts := others.dicts.trans walks.dicts.symm
  have masks := others.masks.trans walks.masks.symm
  have records := (columns.flatMap_right catalog.savedColumn).length_eq
  have dictRecords := (dicts.flatMap_right catalog.dictRecord).length_eq
  have maskRecords := (masks.flatMap_right catalog.maskRecord).length_eq
  simp only [snapshot, List.length_append, length_u32Bytes, length_u64Bytes,
    records, dictRecords, maskRecords]

/-- What an `fclose` lets through is a snapshot exactly if nothing is lost. -/
theorem isSnapshot_letThrough_iff (walks : order.Walks catalog)
    (outcome : CatalogOutcome) :
    catalog.IsSnapshot
        (some (letThrough outcome.close (catalog.snapshot order))) ↔
      ¬outcome.Loses (catalog.snapshot order).length := by
  constructor
  · rintro ⟨other, others, same⟩ ⟨count, failed, short⟩
    have length := congrArg List.length (Option.some.inj same)
    rw [length_snapshot_of_walks walks others, failed, letThrough,
      List.length_take, Nat.min_eq_left short.le] at length
    exact short.ne length
  · intro keeps
    refine ⟨order, walks, ?_⟩
    cases closed : outcome.close with
    | none => rfl
    | some count =>
        have whole : (catalog.snapshot order).length ≤ count := by
          by_contra short
          exact keeps ⟨count, closed, Nat.lt_of_not_le short⟩
        rw [letThrough, List.take_of_length_le whole]

/-- A save is honest unless its `fclose` alone fails. -/
theorem savesHonestly_iff (wellFormed : catalog.WellFormed)
    (walks : order.Walks catalog) (outcome : CatalogOutcome)
    (old : Option Bytes) :
    catalog.SavesHonestly outcome order old ↔
      ¬(outcome.Succeeds (catalog.snapshotWrites order).length ∧
        outcome.Loses (catalog.snapshot order).length) := by
  obtain ⟨after, _, ⟨succeeds, ran⟩ | ⟨fails, ran⟩⟩ :=
    saveCatalogWith_eq wellFormed
      (fun id => (mem_columns_iff wellFormed walks id).mp) outcome old
  · constructor
    · rintro ⟨saved, file, next, called, whole, _⟩ ⟨_, loses⟩
      cases called.symm.trans ran
      exact (isSnapshot_letThrough_iff walks outcome).mp (whole rfl) loses
    · intro keeps
      refine ⟨_, _, _, ran, fun _ => ?_, (nomatch ·)⟩
      exact (isSnapshot_letThrough_iff walks outcome).mpr
        fun loses => keeps ⟨succeeds, loses⟩
  · constructor
    · intro _ both
      exact fails both.1
    · intro _
      exact ⟨_, _, _, ran, (nomatch ·), fun _ => rfl⟩

end Catalog

/-- `save_checkpoint` returns exactly if no call that is looked at fails. -/
theorem saveCheckpointWith_eq (outcome : SaveOutcome)
    (kv : KVStore MATRIX_STORE_SLOTS) (disk : Disk) :
    (outcome.Succeeds kv ∧ saveCheckpointWith outcome kv disk =
        some { disk with
          ckpt := some (keptFile outcome (encodeCheckpoint kv))
          tmp := none }) ∨
      (¬outcome.Succeeds kv ∧ saveCheckpointWith outcome kv disk = none) := by
  rw [saveCheckpointWith]
  by_cases opens : outcome.opens = true
  swap
  · exact .inr ⟨fun all => opens all.opens, if_pos (by simpa using opens)⟩
  by_cases writes : outcome.allWritten (2 + 2 * kv.forEach.length) = true
  swap
  · right
    refine ⟨fun all => writes all.writes, ?_⟩
    rw [if_neg (by simpa using opens), if_pos (by simpa using writes)]
  rw [if_neg (by simpa using opens), if_neg (by simpa using writes)]
  by_cases renames : outcome.renames = true
  · exact .inl ⟨⟨opens, writes, renames⟩, if_neg (by simpa using renames)⟩
  · right
    exact ⟨fun all => renames all.renames, if_pos (by simpa using renames)⟩

/-- A checkpoint file is whole exactly if every byte is kept. -/
theorem keptFile_eq_self_iff (outcome : SaveOutcome) (bytes : Bytes) :
    keptFile outcome bytes = bytes ↔
      outcome.kept bytes.length = bytes.length := by
  rw [keptFile_eq, List.take_eq_self_iff]
  constructor
  · exact Nat.le_antisymm (kept_le outcome _)
  · exact Nat.le_of_eq ∘ Eq.symm

namespace CPUMockEngine

theorem backsUpHonestly_of_returned {engine after : CPUMockEngine κ}
    {outcome : CatalogOutcome} {checkpoint : SaveOutcome}
    {order : Catalog.WalkOrder} {old files : BackupFiles}
    (returned : engine.backupWith outcome checkpoint order old =
      some (files, after)) :
    engine.BacksUpHonestly outcome checkpoint order old ↔
      engine.catalog.IsSnapshot files.catalog ∧
      files.kv = some (encodeCheckpoint engine.points.engine.kv) := by
  constructor
  · intro honest
    exact honest files after returned
  · intro both other next called
    cases returned.symm.trans called
    exact both

/-- A backup is honest exactly if it aborts, or both files are whole. -/
theorem backsUpHonestly_iff {engine : CPUMockEngine κ}
    {order : Catalog.WalkOrder} (wellFormed : engine.catalog.WellFormed)
    (walks : order.Walks engine.catalog) (outcome : CatalogOutcome)
    (checkpoint : SaveOutcome) (old : BackupFiles) :
    engine.BacksUpHonestly outcome checkpoint order old ↔
      (checkpoint.Succeeds engine.points.engine.kv →
        checkpoint.kept (encodeCheckpoint engine.points.engine.kv).length =
            (encodeCheckpoint engine.points.engine.kv).length ∧
          (outcome.Succeeds (engine.catalog.snapshotWrites order).length ∧
              ¬outcome.Loses (engine.catalog.snapshot order).length ∨
            ¬outcome.Succeeds (engine.catalog.snapshotWrites order).length ∧
              engine.catalog.IsSnapshot old.catalog)) := by
  obtain ⟨catalog, _, saved⟩ := Catalog.saveCatalogWith_eq wellFormed
    (fun id => (Catalog.mem_columns_iff wellFormed walks id).mp) outcome
    old.catalog
  rcases saveCheckpointWith_eq checkpoint engine.points.engine.kv
      { wal := [], ckpt := old.kv, tmp := none } with
    ⟨checkpointed, disk⟩ | ⟨aborted, disk⟩
  swap
  · -- No file of an aborted backup is promised anything.
    constructor
    · intro _ checkpointed
      exact absurd checkpointed aborted
    · intro _ files after returned
      rcases saved with ⟨_, ran⟩ | ⟨_, ran⟩
      · simp only [backupWith, ran, disk, Option.bind_eq_bind,
          Option.bind_some, Option.bind_none, reduceCtorEq] at returned
      · simp only [backupWith, ran, disk, Option.bind_eq_bind,
          Option.bind_some, Option.bind_none, reduceCtorEq] at returned
  rcases saved with ⟨succeeds, ran⟩ | ⟨fails, ran⟩
  · have returned : engine.backupWith outcome checkpoint order old =
        some ({ catalog := some (letThrough outcome.close
                  (engine.catalog.snapshot order))
                kv := some (keptFile checkpoint
                  (encodeCheckpoint engine.points.engine.kv)) },
          { engine with catalog }) := by
      rw [backupWith, ran, disk]
      rfl
    rw [backsUpHonestly_of_returned returned,
      Catalog.isSnapshot_letThrough_iff walks, Option.some.injEq,
      keptFile_eq_self_iff]
    simp only [checkpointed, succeeds, true_and, not_true_eq_false, false_and,
      or_false, forall_const]
    exact And.comm
  · have returned : engine.backupWith outcome checkpoint order old =
        some ({ catalog := old.catalog
                kv := some (keptFile checkpoint
                  (encodeCheckpoint engine.points.engine.kv)) },
          { engine with catalog }) := by
      rw [backupWith, ran, disk]
      rfl
    rw [backsUpHonestly_of_returned returned, Option.some.injEq,
      keptFile_eq_self_iff]
    simp only [checkpointed, fails, false_and, not_false_eq_true, true_and,
      false_or, forall_const]
    exact And.comm

end CPUMockEngine

theorem CatalogOutcome.success_succeeds (calls : Nat) :
    CatalogOutcome.success.Succeeds calls :=
  ⟨rfl, fun _ _ => rfl, rfl⟩

theorem CatalogOutcome.not_success_loses (size : Nat) :
    ¬CatalogOutcome.success.Loses size := by
  rintro ⟨_, failed, _⟩
  cases failed

theorem SaveOutcome.success_succeeds (kv : KVStore MATRIX_STORE_SLOTS) :
    SaveOutcome.success.Succeeds kv :=
  ⟨rfl, List.all_eq_true.mpr fun _ _ => rfl, rfl⟩

/-- Without failures the files are those of `backup` on a disk with room. -/
theorem CPUMockEngine.backupWith_success {engine : CPUMockEngine κ}
    {order : Catalog.WalkOrder} (wellFormed : engine.catalog.WellFormed)
    (walks : order.Walks engine.catalog) {room : Nat}
    (enough : (engine.catalog.snapshot order).length ≤ room)
    (old : BackupFiles) :
    (engine.backupWith .success .success order old).map Prod.fst =
      (engine.backup room order old).map Prod.fst := by
  have registered : ∀ id ∈ order.columns,
      (engine.catalog.contents id).isSome :=
    fun id => (Catalog.mem_columns_iff wellFormed walks id).mp
  obtain ⟨out, _, saved, _, whole, written⟩ :=
    Catalog.saveCatalog_outcome wellFormed room registered
  obtain ⟨file, same⟩ := Option.isSome_iff_exists.mp (written enough)
  have content := whole file same
  subst same content
  have checkpointed := (saveCheckpointWith_eq .success
    engine.points.engine.kv { wal := [], ckpt := old.kv, tmp := none })
      |>.resolve_right fun failed => failed.1 (SaveOutcome.success_succeeds _)
  have kept := (keptFile_eq_self_iff .success
    (encodeCheckpoint engine.points.engine.kv)).mpr (kept_success _)
  obtain ⟨_, _, ⟨_, ran⟩ | ⟨fails, _⟩⟩ := Catalog.saveCatalogWith_eq wellFormed
    registered .success old.catalog
  · rw [backupWith, ran, checkpointed.2, kept, backup, saved]
    rfl
  · exact absurd (CatalogOutcome.success_succeeds _) fails

/-- In every state a save is honest unless its `fclose` alone fails, and a
backup is honest exactly if the checkpoint aborts it or both files are
whole. -/
theorem saves_and_backups_honest_iff [SoundCost κ]
    {strtod : Bytes → StrtodResult} {columns : Analytics κ}
    (live : Analytics.Live strtod columns) {order : Catalog.WalkOrder}
    (walks : order.Walks columns.catalog) (points : World)
    (outcome : CatalogOutcome) (checkpoint : SaveOutcome)
    (previous : Option Bytes) (old : BackupFiles) :
    (columns.catalog.SavesHonestly outcome order previous ↔
      ¬(outcome.Succeeds (columns.catalog.snapshotWrites order).length ∧
        outcome.Loses (columns.catalog.snapshot order).length)) ∧
    (({ catalog := columns.catalog, points } :
        CPUMockEngine κ).BacksUpHonestly outcome checkpoint order old ↔
      (checkpoint.Succeeds points.engine.kv →
        checkpoint.kept (encodeCheckpoint points.engine.kv).length =
            (encodeCheckpoint points.engine.kv).length ∧
          (outcome.Succeeds (columns.catalog.snapshotWrites order).length ∧
              ¬outcome.Loses (columns.catalog.snapshot order).length ∨
            ¬outcome.Succeeds (columns.catalog.snapshotWrites order).length ∧
              columns.catalog.IsSnapshot old.catalog))) := by
  constructor
  · exact Catalog.savesHonestly_iff live.settled.wellFormed walks outcome
      previous
  · exact CPUMockEngine.backsUpHonestly_iff live.settled.wellFormed walks
      outcome checkpoint old

/-- A stocked engine with a committed write, and no failure. -/
theorem saves_and_backups_honest_stocked :
    ∃ columns : Analytics ℚ, Analytics.Live Analytics.noNumber columns ∧
      Analytics.Stocked columns.catalog ∧
      columns.catalog.SavesHonestly .success ⟨[7], [7], [7]⟩ none ∧
      ({ catalog := columns.catalog
         points :=
          { engine := committedEngine, disk := .empty, notes := [] } } :
        CPUMockEngine ℚ).BacksUpHonestly .success .success ⟨[7], [7], [7]⟩
          .missing := by
  obtain ⟨columns, live, stocked⟩ := Analytics.exists_stocked
  have honest := saves_and_backups_honest_iff live stocked.walks
    { engine := committedEngine, disk := .empty, notes := [] } .success
    .success none .missing
  refine ⟨columns, live, stocked, honest.1.mpr ?_, honest.2.mpr ?_⟩
  · intro both
    exact CatalogOutcome.not_success_loses _ both.2
  · intro _
    exact ⟨kept_success _,
      .inl ⟨CatalogOutcome.success_succeeds _,
        CatalogOutcome.not_success_loses _⟩⟩

/-- The `fclose` of a full disk fails before the first byte. -/
def lostClose : CatalogOutcome :=
  { CatalogOutcome.success with close := some 0 }

/-- The temporary file cannot be opened. -/
def closedDirectory : CatalogOutcome :=
  { CatalogOutcome.success with opens := false }

/-- A save returns true over an empty file, and a backup returns with a new
checkpoint and no snapshot. -/
theorem save_and_backup_dishonest :
    Analytics.Live Analytics.noNumber (.fresh 8 : Analytics ℚ) ∧
    (∃ after, (Catalog.fresh 8 : Catalog ℚ).saveCatalogWith lostClose
      ⟨[], [], []⟩ none = some (true, some [], after)) ∧
    ¬(Catalog.fresh 8 : Catalog ℚ).IsSnapshot (some []) ∧
    ∃ engine : CPUMockEngine ℚ, engine.catalog = .fresh 8 ∧
      engine.backupWith closedDirectory .success ⟨[], [], []⟩ .missing =
        some ({ catalog := none
                kv := some (encodeCheckpoint engine.points.engine.kv) },
          engine) := by
  refine ⟨.fresh 8, ⟨_, rfl⟩, ?_, ?_⟩
  · rintro ⟨order, _, same⟩
    have length := congrArg List.length (Option.some.inj same)
    simp only [Catalog.snapshot, List.length_append, length_u32Bytes,
      List.length_nil] at length
    omega
  · have checkpointed := (saveCheckpointWith_eq .success committedEngine.kv
      { wal := [], ckpt := none, tmp := none })
        |>.resolve_right fun failed => failed.1 (SaveOutcome.success_succeeds _)
    have kept := (keptFile_eq_self_iff .success
      (encodeCheckpoint committedEngine.kv)).mpr (kept_success _)
    refine ⟨{ catalog := .fresh 8
              points :=
                { engine := committedEngine, disk := .empty, notes := [] } },
      rfl, ?_⟩
    rw [CPUMockEngine.backupWith]
    simp only [BackupFiles.missing, checkpointed.2, kept]
    rfl

end MatrixDB
