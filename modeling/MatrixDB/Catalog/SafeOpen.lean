import MatrixDB.Catalog.RoundTrip

/-!
# Opening any file

`load_catalog` makes room for a name, a column, a dictionary, a string or a
mask before it has read it, and hands a column to a load that asserts on its
id.  The loader is followed here with what it asks for; how many bytes of the
file an allocation stands for is what counts (a dictionary reserves its
strings, and each of them takes at least its length field in the file).
-/

namespace MatrixDB

open Lib CostArith

variable {κ : Type}

namespace Catalog

/-! ## What the reader asks for -/

/-- The name, and the elements of a column whose type is known. -/
def columnLengths (file : Bytes) : List Nat :=
  match readU64 file with
  | none => []
  | some (_, file) =>
  match readU32 file with
  | none => []
  | some (type, file) =>
  match readU64 file with
  | none => []
  | some (count, file) =>
  match readU32 file with
  | none => []
  | some (namelen, file) =>
      if 4096 < namelen then []
      else
        match takeBytes namelen.toNat file with
        | none => [namelen.toNat]
        | some _ =>
            match MatrixType.ofCode type with
            | none => [namelen.toNat]
            | some ty => [namelen.toNat, ty.width * count.toNat]

def stringLength (file : Bytes) : List Nat :=
  match readU32 file with
  | none => []
  | some (len, _) => if 1048576 < len then [] else [len.toNat]

def stringRest (file : Bytes) : Option Bytes := do
  let (len, file) ← readU32 file
  if 1048576 < len then none
  else
    let (_, file) ← takeBytes len.toNat file
    some file

/-- Record after record as long as they are complete: what they ask for, and
what follows the last of them. -/
def walkRecords (lengths : Bytes → List Nat) (rest : Bytes → Option Bytes) :
    Nat → Bytes → List Nat × Option Bytes
  | 0, file => ([], some file)
  | count + 1, file =>
      match rest file with
      | none => (lengths file, none)
      | some after =>
          let later := walkRecords lengths rest count after
          (lengths file ++ later.1, later.2)

/-- The strings of a dictionary are reserved before the first is read. -/
def dictWalk (file : Bytes) : List Nat × Option Bytes :=
  match readU64 file with
  | none => ([], none)
  | some (_, file) =>
  match readU64 file with
  | none => ([], none)
  | some (count, file) =>
      if 4294967296 < count then ([], none)
      else
        let strings := walkRecords stringLength stringRest count.toNat file
        (4 * count.toNat :: strings.1, strings.2)

def maskWalk (file : Bytes) : List Nat × Option Bytes :=
  match readU64 file with
  | none => ([], none)
  | some (_, file) =>
  match readU64 file with
  | none => ([], none)
  | some (length, file) =>
      if 4294967296 < length then ([], none)
      else ([length.toNat], (takeBytes length.toNat file).map Prod.snd)

/-- A section whose count is missing asks for nothing and ends the file. -/
def walkSection (record : Bytes → List Nat × Option Bytes) (file : Bytes) :
    List Nat × Option Bytes :=
  match readU64 file with
  | none => ([], some [])
  | some (count, file) =>
      walkRecords (fun file => (record file).1) (fun file => (record file).2)
        count.toNat file

def columnRest (file : Bytes) : Option Bytes :=
  (columnEntry file).map Prod.snd

def trailingLengths (file : Bytes) : List Nat :=
  let dicts := walkSection dictWalk file
  match dicts.2 with
  | none => dicts.1
  | some file => dicts.1 ++ (walkSection maskWalk file).1

/-- Every length and count in the file that the reader gets to, in bytes of
the file. -/
def fileLengths (file : Bytes) : List Nat :=
  match readU32 file with
  | none => []
  | some (magic, file) =>
      if magic ≠ MATRIX_CATALOG_MAGIC then []
      else
        match readU64 file with
        | none => []
        | some (ncols, file) =>
            let columns := walkRecords columnLengths columnRest ncols.toNat file
            match columns.2 with
            | none => columns.1
            | some file => columns.1 ++ trailingLengths file

/-! ## The loader with what it asks for -/

/-- One record, and what is asked for while it is read. -/
def asking (item : Reader (Catalog κ)) (lengths : Bytes → List Nat) :
    Reader (Catalog κ × List Nat) :=
  fun file state => (item file state.1).map fun result =>
    (result.1, result.2, state.2 ++ lengths file)

def askingSection (item : Reader (Catalog κ × List Nat)) :
    Reader (Catalog κ × List Nat) :=
  fun file state =>
    match readU64 file with
    | none => some (some [], state)
    | some (count, file) => readLoop item count.toNat file state

section
variable [CostArith κ]

/-- `load_catalog` with the sizes it asks for; `none` is an abort. -/
def openCatalog (catalog : Catalog κ) (file : Bytes) :
    Option (Bool × Catalog κ × List Nat) :=
  match readU32 file with
  | none => some (false, catalog, [])
  | some (magic, file) =>
      if magic ≠ MATRIX_CATALOG_MAGIC then some (false, catalog, [])
      else
        match readU64 file with
        | none => some (false, catalog, [])
        | some (ncols, file) =>
            match readLoop (asking loadColumn columnLengths) ncols.toNat file
                (catalog, []) with
            | none => none
            | some (none, state) => some (false, state)
            | some (some file, state) =>
                match askingSection
                    (asking loadDict fun file => (dictWalk file).1) file
                    state with
                | none => none
                | some (none, state) => some (false, state)
                | some (some file, state) =>
                    (askingSection
                      (asking loadMask fun file => (maskWalk file).1) file
                      state).map fun result => (result.1.isSome, result.2)

/-- Opening the file returns, and every allocation on the way is one that the
file could fill. -/
def OpensSafely (catalog : Catalog κ) (file : Bytes) : Prop :=
  ∃ good after asked, catalog.openCatalog file = some (good, after, asked) ∧
    ∀ size ∈ asked, size ≤ file.length

end

/-! ## The walk is the loader's -/

/-- From a good state a reader leaves what the walk leaves, and a good state. -/
def Leaves (inv : Catalog κ → Prop) (item : Reader (Catalog κ))
    (rest : Bytes → Option Bytes) : Prop :=
  ∀ file catalog out after, inv catalog →
    item file catalog = some (out, after) → out = rest file ∧ inv after

theorem Leaves.readLoop {inv : Catalog κ → Prop} {item : Reader (Catalog κ)}
    {rest : Bytes → Option Bytes} (leaves : Leaves inv item rest)
    (lengths : Bytes → List Nat) (count : Nat) :
    Leaves inv (Lib.readLoop item count) fun file =>
      (walkRecords lengths rest count file).2 := by
  induction count with
  | zero =>
      intro file catalog out after good ran
      cases ran
      exact ⟨rfl, good⟩
  | succ count induction =>
      intro file catalog out after good ran
      rw [Lib.readLoop] at ran
      simp only [walkRecords]
      split at ran
      · cases ran
      · rename_i stopped
        cases ran
        obtain ⟨same, good⟩ := leaves _ _ _ _ good stopped
        rw [← same]
        exact ⟨rfl, good⟩
      · rename_i went
        obtain ⟨same, good⟩ := leaves _ _ _ _ good went
        rw [← same]
        exact induction _ _ _ _ good ran

theorem readLoop_asking {inv : Catalog κ → Prop} {item : Reader (Catalog κ)}
    {lengths : Bytes → List Nat} {rest : Bytes → Option Bytes}
    (leaves : Leaves inv item rest) (count : Nat) (file : Bytes)
    {catalog : Catalog κ} (good : inv catalog) (asked : List Nat) :
    readLoop (asking item lengths) count file (catalog, asked) =
      (readLoop item count file catalog).map fun result =>
        (result.1, result.2,
          asked ++ (walkRecords lengths rest count file).1) := by
  induction count generalizing file catalog asked with
  | zero => simp only [readLoop, walkRecords, Option.map_some, List.append_nil]
  | succ count induction =>
      rw [readLoop, readLoop, walkRecords, asking]
      cases ran : item file catalog with
      | none => rfl
      | some result =>
          obtain ⟨out, after⟩ := result
          obtain ⟨same, good⟩ := leaves _ _ _ _ good ran
          cases out with
          | none =>
              rw [← same]
              rfl
          | some more =>
              rw [← same]
              simp only [Option.map_some, induction more good,
                List.append_assoc]

theorem leaves_loadColumn [CostArith κ] :
    Leaves WellFormed (loadColumn : Reader (Catalog κ)) columnRest := by
  intro file catalog out after wellFormed ran
  rcases loadColumn_reads wellFormed ran with
    ⟨entry, rfl, rfl⟩ | ⟨column, rest, entry, rfl, _, formed⟩
  · rw [columnRest, entry]
    exact ⟨rfl, wellFormed⟩
  · rw [columnRest, entry]
    exact ⟨rfl, formed⟩

/-- A string is read or found bad. -/
theorem loadString_eq (file : Bytes) (read : List Bytes × NameMap UInt32) :
    ∃ next, loadString file read = some (stringRest file, next) := by
  unfold loadString stringRest
  cases readU32 file with
  | none => exact ⟨read, rfl⟩
  | some header =>
      simp only [Option.bind_eq_bind, Option.bind_some]
      split
      · exact ⟨read, rfl⟩
      · cases takeBytes header.1.toNat header.2 with
        | none => exact ⟨read, rfl⟩
        | some taken => exact ⟨_, rfl⟩

theorem loadStrings_eq (count : Nat) (file : Bytes)
    (read : List Bytes × NameMap UInt32) :
    ∃ next, readLoop loadString count file read =
      some ((walkRecords stringLength stringRest count file).2, next) := by
  induction count generalizing file read with
  | zero => exact ⟨read, rfl⟩
  | succ count induction =>
      obtain ⟨next, ran⟩ := loadString_eq file read
      rw [readLoop, ran, walkRecords]
      cases stringRest file with
      | none => exact ⟨next, rfl⟩
      | some rest => exact induction rest next

theorem loadDict_eq (file : Bytes) (catalog : Catalog κ) :
    ∃ after, loadDict file catalog = some ((dictWalk file).2, after) := by
  unfold loadDict dictWalk
  cases readU64 file with
  | none => exact ⟨catalog, rfl⟩
  | some first =>
      simp only
      cases readU64 first.2 with
      | none => exact ⟨catalog, rfl⟩
      | some second =>
          simp only
          split
          · exact ⟨catalog, rfl⟩
          · obtain ⟨next, ran⟩ :=
              loadStrings_eq second.1.toNat second.2 ([], ∅)
            rw [ran]
            cases (walkRecords stringLength stringRest second.1.toNat
                second.2).2 with
            | none => exact ⟨catalog, rfl⟩
            | some rest => exact ⟨_, rfl⟩

theorem loadMask_eq (file : Bytes) (catalog : Catalog κ) :
    ∃ after, loadMask file catalog = some ((maskWalk file).2, after) := by
  unfold loadMask maskWalk
  cases readU64 file with
  | none => exact ⟨catalog, rfl⟩
  | some first =>
      simp only
      cases readU64 first.2 with
      | none => exact ⟨catalog, rfl⟩
      | some second =>
          simp only
          split
          · exact ⟨catalog, rfl⟩
          · cases takeBytes second.1.toNat second.2 with
            | none => exact ⟨catalog, rfl⟩
            | some taken => exact ⟨_, rfl⟩

/-- A reader that neither aborts nor looks at the catalog. -/
theorem readLoop_total {item : Reader (Catalog κ)}
    {record : Bytes → List Nat × Option Bytes}
    (total : ∀ file catalog, ∃ after,
      item file catalog = some ((record file).2, after))
    (count : Nat) (file : Bytes) (catalog : Catalog κ) :
    ∃ after, readLoop item count file catalog =
      some ((walkRecords (fun file => (record file).1)
        (fun file => (record file).2) count file).2, after) := by
  induction count generalizing file catalog with
  | zero => exact ⟨catalog, rfl⟩
  | succ count induction =>
      obtain ⟨next, ran⟩ := total file catalog
      rw [readLoop, ran, walkRecords]
      cases (record file).2 with
      | none => exact ⟨next, rfl⟩
      | some rest => exact induction rest next

theorem loadSection_total {item : Reader (Catalog κ)}
    {record : Bytes → List Nat × Option Bytes}
    (total : ∀ file catalog, ∃ after,
      item file catalog = some ((record file).2, after))
    (file : Bytes) (catalog : Catalog κ) :
    ∃ after, loadSection item file catalog =
      some ((walkSection record file).2, after) := by
  unfold loadSection walkSection
  cases readU64 file with
  | none => exact ⟨catalog, rfl⟩
  | some counted => exact readLoop_total total counted.1.toNat counted.2 catalog

/-- A section that is followed with what it asks for. -/
theorem askingSection_eq {item : Reader (Catalog κ)}
    {record : Bytes → List Nat × Option Bytes}
    (total : ∀ file catalog, ∃ after,
      item file catalog = some ((record file).2, after))
    (file : Bytes) (catalog : Catalog κ) (asked : List Nat) :
    askingSection (asking item fun file => (record file).1) file
        (catalog, asked) =
      (loadSection item file catalog).map fun result =>
        (result.1, result.2, asked ++ (walkSection record file).1) := by
  have leaves : Leaves (fun _ => True) item fun file => (record file).2 := by
    intro file catalog out after _ ran
    obtain ⟨_, same⟩ := total file catalog
    cases same.symm.trans ran
    exact ⟨rfl, trivial⟩
  unfold askingSection loadSection walkSection
  cases readU64 file with
  | none => simp only [Option.map_some, List.append_nil]
  | some counted =>
      exact readLoop_asking leaves counted.1.toNat counted.2 trivial asked

section
variable [CostArith κ]

/-- The loader asks for the lengths in the file. -/
theorem openCatalog_eq {catalog : Catalog κ} (wellFormed : catalog.WellFormed)
    (file : Bytes) :
    catalog.openCatalog file = (catalog.loadCatalog file).map fun result =>
      (result.1, result.2, fileLengths file) := by
  unfold openCatalog loadCatalog fileLengths
  cases readU32 file with
  | none => rfl
  | some header =>
      simp only
      split
      · rfl
      unfold loadSections
      cases readU64 header.2 with
      | none => rfl
      | some counted =>
          simp only [readLoop_asking leaves_loadColumn _ _ wellFormed,
            List.nil_append]
          cases ran : readLoop loadColumn counted.1.toNat counted.2
              catalog with
          | none => rfl
          | some result =>
              obtain ⟨out, columns⟩ := result
              have same : out = (walkRecords columnLengths columnRest
                  counted.1.toNat counted.2).2 :=
                (leaves_loadColumn.readLoop columnLengths counted.1.toNat
                  _ _ _ _ wellFormed ran).1
              rw [← same]
              cases out with
              | none => rfl
              | some rest =>
                  obtain ⟨dicts, read⟩ :=
                    loadSection_total loadDict_eq rest columns
                  simp only [Option.map_some, askingSection_eq loadDict_eq,
                    read, loadTrailing, trailingLengths]
                  cases (walkSection dictWalk rest).2 with
                  | none => rfl
                  | some rest =>
                      obtain ⟨masks, read⟩ :=
                        loadSection_total loadMask_eq rest dicts
                      simp only [askingSection_eq loadMask_eq, read,
                        Option.map_some, List.append_assoc]

/-! ## When a load aborts -/

/-- Only the reserved id, a used id and a column that no vector can hold are
not loaded. -/
theorem isSome_loadElements_iff {catalog : Catalog κ}
    (wellFormed : catalog.WellFormed) (id : UInt64) {ty : MatrixType}
    {count : Nat} (fits : ty.width * count ≤ MAX_VECTOR_BYTES)
    (bytes : Bytes) :
    (catalog.loadElements ty id count bytes).isSome ↔
      id ≠ 0 ∧ catalog.contents id = none := by
  constructor
  · intro loads
    obtain ⟨after, loaded⟩ := Option.isSome_iff_exists.mp loads
    have first : ∀ content : Bytes, (catalog.loadBytes id content).isSome →
        id ≠ 0 ∧ catalog.contents id = none := by
      intro content made
      unfold loadBytes at made
      split at made
      · cases made
      rename_i nonzero
      split at made
      · cases made
      rename_i absent
      rw [isSome_lookup_eq wellFormed] at absent
      exact ⟨nonzero, Option.not_isSome_iff_eq_none.mp absent⟩
    cases ty with
    | U32 => exact first _ loads
    | I64 =>
        obtain ⟨middle, made, _⟩ := Option.bind_eq_some_iff.mp loaded
        exact first _ (by rw [made]; rfl)
    | F64 =>
        obtain ⟨middle, made, _⟩ := Option.bind_eq_some_iff.mp loaded
        exact first _ (by rw [made]; rfl)
  · rintro ⟨nonzero, unused⟩
    obtain ⟨after, loaded⟩ :=
      loadElements_returns wellFormed nonzero unused fits bytes
    rw [loaded]
    rfl

/-- The elements and the name of a column. -/
theorem isSome_loadColumnData_iff {catalog : Catalog κ}
    (wellFormed : catalog.WellFormed) (id : UInt64) (type : UInt32)
    (count : UInt64) (name file : Bytes) :
    (catalog.loadColumnData id type count name file).isSome ↔
      (∀ ty, MatrixType.ofCode type = some ty →
        ty.width * count.toNat ≤ MAX_VECTOR_BYTES) ∧
      ∀ entry rest, dataEntry id type count file = some (entry, rest) →
        entry.1 ≠ 0 ∧ catalog.contents entry.1 = none := by
  unfold loadColumnData dataEntry
  cases MatrixType.ofCode type with
  | none => simp
  | some ty =>
      simp only [Option.some.injEq, forall_eq', Option.bind_eq_bind,
        Option.bind_some]
      split
      · rename_i long
        constructor
        · intro impossible
          cases impossible
        · intro fits
          exact absurd fits.1 (Nat.not_le.mpr long)
      · rename_i short
        have fits := Nat.not_lt.mp short
        cases taken : takeBytes (ty.width * count.toNat) file with
        | none => simp [fits]
        | some data =>
            have alone : (∀ entry rest, some ((id, data.1), data.2) =
                some (entry, rest) →
                  entry.1 ≠ 0 ∧ catalog.contents entry.1 = none) ↔
                id ≠ 0 ∧ catalog.contents id = none := by
              constructor
              · intro all
                exact all _ _ rfl
              · intro both entry rest same
                cases same
                exact both
            simp only [Option.bind_some, fits, true_and, alone]
            rw [← isSome_loadElements_iff wellFormed id fits data.1]
            cases loaded : catalog.loadElements ty id count.toNat data.1 with
            | none => simp
            | some after =>
                have loads := loadElements_bytes wellFormed
                  (Nat.le_of_eq (takeBytes_eq_some taken).2.symm) loaded
                have has : after.catalogHas id = true := by
                  rw [catalogHas_eq loads.wellFormed, loads.contents_self]
                  rfl
                simp only [Option.bind_some, Option.isSome_some, iff_true,
                  Option.isSome_map]
                split
                · rfl
                · rw [nameColumn, if_pos has]
                  rfl

theorem isSome_loadColumn_iff {catalog : Catalog κ}
    (wellFormed : catalog.WellFormed) (file : Bytes) :
    (loadColumn file catalog).isSome ↔
      (∀ length ∈ columnLengths file, length ≤ MAX_VECTOR_BYTES) ∧
      ∀ entry rest, columnEntry file = some (entry, rest) →
        entry.1 ≠ 0 ∧ catalog.contents entry.1 = none := by
  unfold loadColumn columnLengths columnEntry
  cases readU64 file with
  | none => simp
  | some id =>
  simp only [Option.bind_eq_bind, Option.bind_some]
  cases readU32 id.2 with
  | none => simp
  | some type =>
  simp only [Option.bind_some]
  cases readU64 type.2 with
  | none => simp
  | some count =>
  simp only [Option.bind_some]
  cases readU32 count.2 with
  | none => simp
  | some namelen =>
  simp only [Option.bind_some]
  split
  · simp
  rename_i short
  have named : namelen.1.toNat ≤ MAX_VECTOR_BYTES := by
    have bound := UInt32.le_iff_toNat_le.mp (UInt32.not_lt.mp short)
    exact Nat.le_trans bound (by decide)
  cases takeBytes namelen.1.toNat namelen.2 with
  | none => simp [named]
  | some name =>
      simp only [Option.bind_some, isSome_loadColumnData_iff wellFormed]
      cases known : MatrixType.ofCode type.1 with
      | none => simp [named]
      | some ty => simp [named]

/-- Ids that a catalog can be given one after another. -/
def NewIds (catalog : Catalog κ) (ids : List UInt64) : Prop :=
  ids.Nodup ∧ ∀ id ∈ ids, id ≠ 0 ∧ catalog.contents id = none

omit [CostArith κ] in
theorem newIds_cons_iff {catalog after : Catalog κ} {entry : UInt64 × Bytes}
    (adds : Adds catalog [entry] after) (ids : List UInt64) :
    catalog.NewIds (entry.1 :: ids) ↔
      (entry.1 ≠ 0 ∧ catalog.contents entry.1 = none) ∧ after.NewIds ids := by
  have left : ∀ id, after.contents id = none ↔
      catalog.contents id = none ∧ id ≠ entry.1 := by
    intro id
    rw [adds id, Option.or_eq_none_iff]
    simp [List.lookup_eq_none_iff]
  simp only [NewIds, List.nodup_cons, List.forall_mem_cons, left]
  constructor
  · rintro ⟨⟨new, nodup⟩, first, others⟩
    refine ⟨first, nodup, ?_⟩
    intro id member
    obtain ⟨nonzero, unused⟩ := others id member
    refine ⟨nonzero, unused, ?_⟩
    rintro rfl
    exact new member
  · rintro ⟨first, nodup, others⟩
    refine ⟨⟨?_, nodup⟩, first, ?_⟩
    · intro member
      exact (others _ member).2.2 rfl
    · intro id member
      exact ⟨(others id member).1, (others id member).2.1⟩

theorem isSome_loadColumns_iff {catalog : Catalog κ}
    (wellFormed : catalog.WellFormed) (count : Nat) (file : Bytes) :
    (readLoop loadColumn count file catalog).isSome ↔
      (∀ length ∈ (walkRecords columnLengths columnRest count file).1,
        length ≤ MAX_VECTOR_BYTES) ∧
      catalog.NewIds ((columnEntries count file).map Prod.fst) := by
  induction count generalizing file catalog with
  | zero => simp [readLoop, walkRecords, columnEntries, NewIds]
  | succ count induction =>
      have first := isSome_loadColumn_iff wellFormed file
      rw [readLoop, walkRecords, columnEntries, columnRest]
      cases ran : loadColumn file catalog with
      | none =>
          rw [ran] at first
          simp only [Option.isSome_none, Bool.false_eq_true, false_iff] at first
          simp only [Option.isSome_none, Bool.false_eq_true, false_iff]
          rintro ⟨lengths, fresh⟩
          apply first
          cases entry : columnEntry file with
          | none =>
              rw [entry] at lengths
              refine ⟨lengths, ?_⟩
              intro column rest same
              cases same
          | some found =>
              rw [entry] at lengths fresh
              refine ⟨?_, ?_⟩
              · intro length member
                exact lengths length (List.mem_append_left _ member)
              · intro column rest same
                cases same
                exact fresh.2 _ List.mem_cons_self
      | some result =>
          rw [ran] at first
          obtain ⟨lengths, opens⟩ := first.mp rfl
          obtain ⟨out, after⟩ := result
          rcases loadColumn_reads wellFormed ran with
            ⟨entry, rfl, rfl⟩ | ⟨column, rest, entry, rfl, adds, formed⟩
          · rw [entry]
            simp only [Option.isSome_some, true_iff]
            refine ⟨lengths, List.nodup_nil, ?_⟩
            intro id member
            cases member
          · rw [entry]
            simp only [Option.map_some, List.map_cons, List.forall_mem_append,
              newIds_cons_iff adds, induction formed rest]
            have new := opens column rest entry
            constructor
            · rintro ⟨later, ids⟩
              exact ⟨⟨lengths, later⟩, new, ids⟩
            · rintro ⟨⟨_, later⟩, _, ids⟩
              exact ⟨later, ids⟩

end

/-! ## The lengths behind the columns -/

theorem walkRecords_bounded {lengths : Bytes → List Nat} {bound : Nat}
    (bounded : ∀ file, ∀ length ∈ lengths file, length ≤ bound)
    (rest : Bytes → Option Bytes) (count : Nat) (file : Bytes) :
    ∀ length ∈ (walkRecords lengths rest count file).1, length ≤ bound := by
  induction count generalizing file with
  | zero =>
      intro length member
      cases member
  | succ count induction =>
      rw [walkRecords]
      split
      · exact bounded file
      · intro length member
        rcases List.mem_append.mp member with here | later
        · exact bounded file length here
        · exact induction _ length later

theorem stringLength_bounded (file : Bytes) :
    ∀ length ∈ stringLength file, length ≤ MAX_VECTOR_BYTES := by
  intro length member
  unfold stringLength at member
  split at member
  · cases member
  · split at member
    · cases member
    · rename_i short
      rw [List.mem_singleton.mp member]
      exact Nat.le_trans (UInt32.le_iff_toNat_le.mp (UInt32.not_lt.mp short))
        (by decide)

theorem dictWalk_bounded (file : Bytes) :
    ∀ length ∈ (dictWalk file).1, length ≤ MAX_VECTOR_BYTES := by
  intro length member
  unfold dictWalk at member
  split at member
  · cases member
  split at member
  · cases member
  split at member
  · cases member
  · rename_i count _ _ short
    rcases List.mem_cons.mp member with rfl | inside
    · have bound := UInt64.le_iff_toNat_le.mp (UInt64.not_lt.mp short)
      exact Nat.le_trans (Nat.mul_le_mul_left 4 bound) (by decide)
    · exact walkRecords_bounded stringLength_bounded _ _ _ length inside

theorem maskWalk_bounded (file : Bytes) :
    ∀ length ∈ (maskWalk file).1, length ≤ MAX_VECTOR_BYTES := by
  intro length member
  unfold maskWalk at member
  split at member
  · cases member
  split at member
  · cases member
  split at member
  · cases member
  · rename_i short
    rw [List.mem_singleton.mp member]
    exact Nat.le_trans (UInt64.le_iff_toNat_le.mp (UInt64.not_lt.mp short))
      (by decide)

theorem walkSection_bounded {record : Bytes → List Nat × Option Bytes}
    {bound : Nat} (bounded : ∀ file, ∀ length ∈ (record file).1,
      length ≤ bound) (file : Bytes) :
    ∀ length ∈ (walkSection record file).1, length ≤ bound := by
  unfold walkSection
  split
  · intro length member
    cases member
  · exact walkRecords_bounded bounded _ _ _

theorem trailingLengths_bounded (file : Bytes) :
    ∀ length ∈ trailingLengths file, length ≤ MAX_VECTOR_BYTES := by
  intro length member
  unfold trailingLengths at member
  dsimp only at member
  split at member
  · exact walkSection_bounded dictWalk_bounded file length member
  · rcases List.mem_append.mp member with dict | mask
    · exact walkSection_bounded dictWalk_bounded file length dict
    · exact walkSection_bounded maskWalk_bounded _ length mask

/-! ## Which files are opened safely -/

/-- The columns that are there in full have distinct ids other than zero, and
no length that the reader gets to exceeds the file. -/
structure FileFits (file : Bytes) : Prop where
  ids : ((snapshotColumns file).map Prod.fst).Nodup
  nonzero : ∀ entry ∈ snapshotColumns file, entry.1 ≠ 0
  lengths : ∀ length ∈ fileLengths file,
    length ≤ file.length ∧ length ≤ MAX_VECTOR_BYTES

theorem isSome_loadTrailing (file : Bytes) (catalog : Catalog κ) :
    (loadTrailing file catalog).isSome := by
  obtain ⟨dicts, read⟩ := loadSection_total loadDict_eq file catalog
  rw [loadTrailing, read]
  cases (walkSection dictWalk file).2 with
  | none => rfl
  | some rest =>
      obtain ⟨masks, read⟩ := loadSection_total loadMask_eq rest dicts
      simp only [read, Option.isSome_some]

section
variable [CostArith κ]

/-- A load aborts only on a column. -/
theorem isSome_loadCatalog_iff {catalog : Catalog κ}
    (wellFormed : catalog.WellFormed) (file : Bytes) :
    (catalog.loadCatalog file).isSome ↔
      (∀ length ∈ fileLengths file, length ≤ MAX_VECTOR_BYTES) ∧
      catalog.NewIds ((snapshotColumns file).map Prod.fst) := by
  have nothing : catalog.NewIds [] := ⟨List.nodup_nil, fun _ => nofun⟩
  unfold loadCatalog fileLengths snapshotColumns
  cases readU32 file with
  | none => simp [nothing]
  | some header =>
      simp only
      by_cases wrong : header.1 ≠ MATRIX_CATALOG_MAGIC
      · rw [if_pos wrong, if_pos wrong, if_neg wrong]
        simp [nothing]
      rw [if_neg wrong, if_neg wrong, if_pos (not_not.mp wrong)]
      unfold loadSections
      cases readU64 header.2 with
      | none => simp [nothing]
      | some counted =>
          have columns := isSome_loadColumns_iff wellFormed
            counted.1.toNat counted.2
          have all : (∀ length ∈
              (match (walkRecords columnLengths columnRest counted.1.toNat
                  counted.2).2 with
                | none => (walkRecords columnLengths columnRest
                    counted.1.toNat counted.2).1
                | some file => (walkRecords columnLengths columnRest
                    counted.1.toNat counted.2).1 ++ trailingLengths file),
              length ≤ MAX_VECTOR_BYTES) ↔
              ∀ length ∈ (walkRecords columnLengths columnRest
                counted.1.toNat counted.2).1, length ≤ MAX_VECTOR_BYTES := by
            split
            · rfl
            · rw [List.forall_mem_append]
              exact and_iff_left (trailingLengths_bounded _)
          simp only [Option.isSome_map]
          rw [all, ← columns]
          cases ran : readLoop loadColumn counted.1.toNat counted.2
              catalog with
          | none => rfl
          | some result =>
              obtain ⟨out, after⟩ := result
              cases out with
              | none => rfl
              | some rest => simp [isSome_loadTrailing rest after]

theorem opensSafely_iff {catalog : Catalog κ} (wellFormed : catalog.WellFormed)
    (empty : catalog.columns = ∅) (file : Bytes) :
    catalog.OpensSafely file ↔ FileFits file := by
  have absent : ∀ id, catalog.contents id = none := by
    intro id
    rw [contents, empty]
    rfl
  have loads := isSome_loadCatalog_iff wellFormed file
  simp only [NewIds, absent, and_true] at loads
  have opened := openCatalog_eq wellFormed file
  constructor
  · rintro ⟨good, after, asked, ran, fits⟩
    rw [opened] at ran
    obtain ⟨result, loaded, same⟩ := Option.map_eq_some_iff.mp ran
    cases same
    obtain ⟨lengths, ids, nonzero⟩ := loads.mp (by rw [loaded]; rfl)
    refine ⟨ids, ?_, ?_⟩
    · intro entry member
      exact nonzero entry.1 (List.mem_map_of_mem member)
    · intro length member
      exact ⟨fits length member, lengths length member⟩
  · rintro ⟨ids, nonzero, lengths⟩
    have returns : (catalog.loadCatalog file).isSome := by
      refine loads.mpr ⟨?_, ids, ?_⟩
      · intro length member
        exact (lengths length member).2
      · intro id member
        obtain ⟨entry, inside, rfl⟩ := List.mem_map.mp member
        exact nonzero entry inside
    obtain ⟨result, loaded⟩ := Option.isSome_iff_exists.mp returns
    refine ⟨result.1, result.2, fileLengths file, ?_, ?_⟩
    · rw [opened, loaded]
      rfl
    · intro length member
      exact (lengths length member).1

end

end Catalog

namespace Analytics

/-- A file is opened safely by an engine without columns exactly if its
columns have distinct ids other than zero, and no length in it exceeds the
file. -/
theorem opens_safely_iff [SoundCost κ] {strtod : Bytes → StrtodResult}
    {engine : Analytics κ} (live : Live strtod engine)
    (empty : engine.catalog.columns = ∅) (file : Bytes) :
    engine.catalog.OpensSafely file ↔ Catalog.FileFits file :=
  Catalog.opensSafely_iff live.settled.wellFormed empty file

/-- A snapshot with one column of 32-bit elements, without a name. -/
def columnFile (id count : UInt64) (elements : Bytes) : Bytes :=
  u32Bytes MATRIX_CATALOG_MAGIC ++ u64Bytes 1 ++ u64Bytes id ++ u32Bytes 0 ++
    u64Bytes count ++ u32Bytes 0 ++ elements

/-- A column of one row. -/
theorem opens_safely_column :
    (fresh 8 : Analytics ℚ).catalog.OpensSafely
      (columnFile 7 1 (u32Bytes 5)) := by
  have live : Live noNumber (fresh 8 : Analytics ℚ) := .fresh 8
  apply (opens_safely_iff live rfl _).mpr
  exact ⟨by decide, by decide, by decide⟩

/-- The reserved id runs into an assertion; a row count of `2 ^ 61` asks for
`2 ^ 63` bytes, and a dictionary of `2 ^ 32` strings for room for all of them,
whatever the length of the file. -/
theorem opens_unsafely :
    (Catalog.fresh 8 : Catalog ℚ).loadCatalog (columnFile 0 0 []) = none ∧
    ¬(Catalog.fresh 8 : Catalog ℚ).OpensSafely (columnFile 0 0 []) ∧
    ¬(Catalog.fresh 8 : Catalog ℚ).OpensSafely
      (columnFile 7 2305843009213693952 []) ∧
    ¬(Catalog.fresh 8 : Catalog ℚ).OpensSafely
      (u32Bytes MATRIX_CATALOG_MAGIC ++ u64Bytes 0 ++ u64Bytes 1 ++
        u64Bytes 7 ++ u64Bytes 4294967296) := by
  have fits : ∀ file, (Catalog.fresh 8 : Catalog ℚ).OpensSafely file ↔
      Catalog.FileFits file :=
    Catalog.opensSafely_iff (Catalog.wellFormed_fresh 8) rfl
  refine ⟨rfl, ?_, ?_, ?_⟩
  · intro opens
    exact absurd ((fits _).mp opens).nonzero (by decide)
  · intro opens
    exact absurd ((fits _).mp opens).lengths (by decide)
  · intro opens
    exact absurd ((fits _).mp opens).lengths (by decide)

end Analytics

end MatrixDB
