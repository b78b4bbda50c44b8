import MatrixDB.Catalog.Records

/-!
# What a fresh engine makes of a snapshot

The reader puts bounds on names, strings and masks which the writer does not
know.  A snapshot that keeps within them is read to its end and gives everything
back; any other is refused.
-/

namespace MatrixDB

open Lib

variable {κ : Type}

namespace Catalog

/-! ## The whole file -/

/-- A map has as many entries as a `size_t` can count. -/
structure WalkOrder.Counted (order : WalkOrder) : Prop where
  dicts : order.dicts.length < 18446744073709551616
  masks : order.masks.length < 18446744073709551616

/-- The three parts of a snapshot. -/
def columnsPart (catalog : Catalog κ) (order : WalkOrder) : Bytes :=
  (u32Bytes MATRIX_CATALOG_MAGIC ++
    u64Bytes (UInt64.ofNat order.columns.length)) ++
      order.columns.flatMap catalog.savedColumn

def dictsPart (catalog : Catalog κ) (order : WalkOrder) : Bytes :=
  u64Bytes (UInt64.ofNat order.dicts.length) ++
    order.dicts.flatMap catalog.dictRecord

def masksPart (catalog : Catalog κ) (order : WalkOrder) : Bytes :=
  u64Bytes (UInt64.ofNat order.masks.length) ++
    order.masks.flatMap catalog.maskRecord

theorem snapshot_eq (catalog : Catalog κ) (order : WalkOrder) :
    catalog.snapshot order = catalog.columnsPart order ++
      (catalog.dictsPart order ++ catalog.masksPart order) := by
  simp only [snapshot, columnsPart, dictsPart, masksPart, List.append_assoc]

/-- A section whose count is not there is an empty one. -/
theorem loadSection_missing
    {item : Bytes → Catalog κ → Option (Option Bytes × Catalog κ)}
    {part : Bytes} (short : part.length < 8) (catalog : Catalog κ) :
    loadSection item part catalog = some (some [], catalog) := by
  simp only [loadSection, readU64_short short]

theorem loadSection_counted
    (item : Bytes → Catalog κ → Option (Option Bytes × Catalog κ))
    {count : Nat} (fits : count < 18446744073709551616) (rest : Bytes)
    (catalog : Catalog κ) :
    loadSection item (u64Bytes (UInt64.ofNat count) ++ rest) catalog =
      readLoop item count rest catalog := by
  simp only [loadSection, readU64_u64Bytes,
    UInt64.toNat_ofNat_of_lt' fits]

/-- What follows the columns. -/
theorem loadTrailing_counted {count : Nat}
    (fits : count < 18446744073709551616) (rest : Bytes)
    (catalog : Catalog κ) :
    loadTrailing (u64Bytes (UInt64.ofNat count) ++ rest) catalog =
      match readLoop loadDict count rest catalog with
      | none => none
      | some (none, catalog) => some (none, catalog)
      | some (some file, catalog) => loadSection loadMask file catalog := by
  have whole := loadSection_counted loadDict fits rest catalog
  unfold loadTrailing
  cases ran : readLoop loadDict count rest catalog with
  | none => simp only [whole, ran]
  | some result =>
      obtain ⟨out, left⟩ := result
      cases out with
      | none => simp only [whole, ran]
      | some file => simp only [whole, ran]

/-- What follows the header. -/
theorem loadCatalog_counted [CostArith κ] {count : Nat}
    (fits : count < 18446744073709551616) (rest : Bytes)
    (catalog : Catalog κ) :
    catalog.loadCatalog ((u32Bytes MATRIX_CATALOG_MAGIC ++
      u64Bytes (UInt64.ofNat count)) ++ rest) =
      (match readLoop loadColumn count rest catalog with
      | none => none
      | some (none, catalog) => some (none, catalog)
      | some (some file, catalog) => loadTrailing file catalog).map
        fun result : Option Bytes × Catalog κ =>
          (result.1.isSome, result.2) := by
  have header : catalog.loadCatalog ((u32Bytes MATRIX_CATALOG_MAGIC ++
      u64Bytes (UInt64.ofNat count)) ++ rest) =
      (loadSections (u64Bytes (UInt64.ofNat count) ++ rest) catalog).map
        fun result => (result.1.isSome, result.2) := by
    simp only [loadCatalog, List.append_assoc, readU32_u32Bytes, ne_eq,
      not_true_eq_false, if_false]
  rw [header, loadSections]
  cases ran : readLoop loadColumn count rest catalog with
  | none =>
      simp only [readU64_u64Bytes, UInt64.toNat_ofNat_of_lt' fits, ran]
  | some result =>
      obtain ⟨out, left⟩ := result
      cases out with
      | none =>
          simp only [readU64_u64Bytes, UInt64.toNat_ofNat_of_lt' fits, ran]
      | some file =>
          simp only [readU64_u64Bytes, UInt64.toNat_ofNat_of_lt' fits, ran]

/-- The saved data is there again, but for the strings whose length did not
fit its field. -/
structure Reopened (saver : Catalog κ) (order : WalkOrder)
    (restored : Catalog κ) : Prop where
  wellFormed : restored.WellFormed
  contents : ∀ id, restored.contents id = saver.contents id
  columnType : ∀ id, restored.columnType id = saver.columnType id
  columnName : ∀ id, (saver.contents id).isSome →
    restored.columnName id = saver.savedName id
  nameToId : restored.nameToId = saver.reboundNames order.columns
  stringDicts : ∀ id, restored.stringDicts.lookup id =
    (saver.stringDicts.lookup id).map fun dict => dict.map castString
  stringEncoders : ∀ id, restored.stringEncoders.lookup id =
    (restored.stringDicts.lookup id).map encoderOf
  nullMasks : ∀ id, restored.nullMasks.lookup id = saver.nullMasks.lookup id

section
variable {saver : Catalog κ} {order : WalkOrder}

theorem mem_columns_iff (saved : saver.WellFormed)
    (walks : order.Walks saver) (id : UInt64) :
    id ∈ order.columns ↔ (saver.contents id).isSome := by
  rw [walks.columns.mem_iff]
  exact ⟨registered_of_mem_keys saved, mem_keys_of_registered⟩

theorem namesFit_iff (saved : saver.WellFormed) (walks : order.Walks saver) :
    saver.NamesFit ↔ ∀ id ∈ order.columns,
      UInt32.ofNat (saver.columnName id).length ≤ 4096 := by
  unfold NamesFit
  simp only [catalogHas_eq saved, mem_columns_iff saved walks]

theorem mem_walked_iff {V : Type} {map : IdMap V} {ids : List UInt64}
    (walks : ids.Perm map.keys) {id : UInt64} {value : V}
    (stored : map.lookup id = some value) : id ∈ ids := by
  rw [walks.mem_iff, ← AList.mem_keys, ← AList.lookup_isSome, stored]
  rfl

theorem stringsFit_iff (walks : order.Walks saver) :
    saver.StringsFit ↔ ∀ id ∈ order.dicts, ∀ dict,
      saver.stringDicts.lookup id = some dict →
        ∀ string ∈ dict, UInt32.ofNat string.length ≤ 1048576 :=
  ⟨fun fit id _ dict stored => fit id dict stored,
    fun fit id dict stored =>
      fit id (mem_walked_iff walks.dicts stored) dict stored⟩

theorem masksBounded_iff (walks : order.Walks saver) :
    saver.MasksBounded ↔ ∀ id ∈ order.masks, ∀ mask,
      saver.nullMasks.lookup id = some mask → mask.length ≤ 4294967296 :=
  ⟨fun fit id _ mask stored => fit id mask stored,
    fun fit id mask stored =>
      fit id (mem_walked_iff walks.masks stored) mask stored⟩

theorem lookup_walked {V : Type} {map : IdMap V} {ids : List UInt64}
    (walks : ids.Perm map.keys) (id : UInt64) :
    (if id ∈ ids then map.lookup id else none) = map.lookup id := by
  split
  · rfl
  · rename_i outside
    cases stored : map.lookup id with
    | none => rfl
    | some value => exact absurd (mem_walked_iff walks stored) outside

theorem columns_lt (saved : saver.WellFormed) (walks : order.Walks saver) :
    order.columns.length < 18446744073709551616 :=
  length_walked_lt saved walks.columns fun id member =>
    (mem_columns_iff saved walks id).mp member

/-! ### Section by section -/

/-- The columns are read back, or the file is bad. -/
theorem loadCatalog_columns [CostArith κ] (saved : saver.WellFormed)
    (walks : order.Walks saver) (hostCap : Nat) :
    (saver.NamesFit → ∃ columns, ColumnsBack saver order.columns columns ∧
      ∀ rest, (fresh hostCap).loadCatalog
          (saver.columnsPart order ++ rest) =
        (loadTrailing rest columns).map
          fun result : Option Bytes × Catalog κ =>
            (result.1.isSome, result.2)) ∧
    (¬ saver.NamesFit → ∀ rest, ∃ left,
      (fresh hostCap : Catalog κ).loadCatalog
        (saver.columnsPart order ++ rest) = some (false, left)) ∧
    ∀ part, part <+: saver.columnsPart order →
      part ≠ saver.columnsPart order → ∃ left,
        (fresh hostCap : Catalog κ).loadCatalog part = some (false, left) := by
  have counts := columns_lt saved walks
  have nodup := walks.columns.nodup_iff.mpr saver.columns.keys_nodup
  have reads := (loadColumns_back saved nodup
    (fun id member => (mem_columns_iff saved walks id).mp member)
    hostCap).weaken (namesFit_iff saved walks).symm fun _ _ back => back
  refine ⟨?_, ?_, ?_⟩
  · intro fit
    obtain ⟨columns, back, whole⟩ := reads.accepts fit
    refine ⟨columns, back, ?_⟩
    intro rest
    rw [columnsPart, List.append_assoc, loadCatalog_counted counts, whole]
  · intro long rest
    obtain ⟨left, bad⟩ := reads.rejects long rest
    rw [columnsPart, List.append_assoc, loadCatalog_counted counts, bad]
    exact ⟨left, rfl⟩
  · intro part cut proper
    rcases prefix_append_cases cut proper with
      ⟨within, some⟩ | ⟨more, rfl, cut, proper⟩
    · have short := length_lt_of_cut within some
      rw [List.length_append, length_u32Bytes, length_u64Bytes] at short
      refine ⟨fresh hostCap, ?_⟩
      unfold loadCatalog
      split
      · rfl
      · rename_i first
        have length := readU32_length first
        split
        · rfl
        · rw [loadSections, readU64_short (by omega)]
          rfl
    · obtain ⟨left, bad⟩ := reads.cut more cut proper
      rw [loadCatalog_counted counts, bad]
      exact ⟨left, rfl⟩

/-- The dictionaries likewise; but their count may be cut off. -/
theorem loadTrailing_dicts (coded : saver.Coded) (walks : order.Walks saver)
    (counted : order.Counted) {columns : Catalog κ}
    (back : ColumnsBack saver order.columns columns) :
    (saver.StringsFit → ∃ dicts,
      DictsBack saver columns order.dicts dicts ∧
      ∀ rest, loadTrailing (saver.dictsPart order ++ rest) columns =
        loadSection loadMask rest dicts) ∧
    (¬ saver.StringsFit → ∀ rest, ∃ left,
      loadTrailing (saver.dictsPart order ++ rest) columns =
        some (none, left)) ∧
    ∀ part, part <+: saver.dictsPart order → part ≠ saver.dictsPart order →
      (part.length < 8 → loadTrailing part columns = some (some [], columns)) ∧
      (8 ≤ part.length → ∃ left,
        loadTrailing part columns = some (none, left)) := by
  have reads := (loadDicts_back coded
    (fun id member => exists_lookup_of_walked walks.dicts member)
    back.stringDicts back.stringEncoders).weaken
      (stringsFit_iff walks).symm fun _ _ back => back
  refine ⟨?_, ?_, ?_⟩
  · intro fit
    obtain ⟨dicts, back, whole⟩ := reads.accepts fit
    refine ⟨dicts, back, ?_⟩
    intro rest
    rw [dictsPart, List.append_assoc, loadTrailing_counted counted.dicts,
      whole]
  · intro long rest
    obtain ⟨left, bad⟩ := reads.rejects long rest
    rw [dictsPart, List.append_assoc, loadTrailing_counted counted.dicts, bad]
    exact ⟨left, rfl⟩
  · intro part cut proper
    refine ⟨?_, ?_⟩
    · intro short
      rw [loadTrailing, loadSection_missing short]
      exact loadSection_missing (by decide) columns
    · intro long
      rcases prefix_append_cases cut proper with
        ⟨within, some⟩ | ⟨more, rfl, cut, proper⟩
      · have short := length_lt_of_cut within some
        rw [length_u64Bytes] at short
        exact absurd short (Nat.not_lt.mpr long)
      · obtain ⟨left, bad⟩ := reads.cut more cut proper
        rw [loadTrailing_counted counted.dicts, bad]
        exact ⟨left, rfl⟩

theorem loadSection_masks (coded : saver.Coded) (walks : order.Walks saver)
    (counted : order.Counted) {dicts : Catalog κ}
    (unmasked : dicts.nullMasks = ∅) :
    (saver.MasksBounded → ∃ masks, MasksBack saver dicts order.masks masks ∧
      loadSection loadMask (saver.masksPart order) dicts =
        some (some [], masks)) ∧
    (¬ saver.MasksBounded → ∃ left,
      loadSection loadMask (saver.masksPart order) dicts =
        some (none, left)) ∧
    ∀ part, part <+: saver.masksPart order → part ≠ saver.masksPart order →
      (part.length < 8 →
        loadSection loadMask part dicts = some (some [], dicts)) ∧
      (8 ≤ part.length → ∃ left,
        loadSection loadMask part dicts = some (none, left)) := by
  have reads := (loadMasks_back coded
    (fun id member => exists_lookup_of_walked walks.masks member)
    unmasked).weaken (masksBounded_iff walks).symm fun _ _ back => back
  refine ⟨?_, ?_, ?_⟩
  · intro fit
    obtain ⟨masks, back, whole⟩ := reads.accepts fit
    refine ⟨masks, back, ?_⟩
    have ends := whole []
    rw [List.append_nil] at ends
    rw [masksPart, loadSection_counted loadMask counted.masks, ends]
  · intro long
    obtain ⟨left, bad⟩ := reads.rejects long []
    rw [List.append_nil] at bad
    rw [masksPart, loadSection_counted loadMask counted.masks, bad]
    exact ⟨left, rfl⟩
  · intro part cut proper
    refine ⟨fun short => loadSection_missing short dicts, ?_⟩
    intro long
    rcases prefix_append_cases cut proper with
      ⟨within, some⟩ | ⟨more, rfl, cut, proper⟩
    · have short := length_lt_of_cut within some
      rw [length_u64Bytes] at short
      exact absurd short (Nat.not_lt.mpr long)
    · obtain ⟨left, bad⟩ := reads.cut more cut proper
      rw [loadSection_counted loadMask counted.masks, bad]
      exact ⟨left, rfl⟩

theorem DictsBack.nullMasks {columns dicts : Catalog κ}
    (columnsBack : ColumnsBack saver order.columns columns)
    (dictsBack : DictsBack saver columns order.dicts dicts) :
    dicts.nullMasks = ∅ := by
  rw [dictsBack.beside]
  exact columnsBack.nullMasks

/-- The three sections together. -/
theorem Reopened.of_parts (saved : saver.WellFormed)
    (walks : order.Walks saver) {columns dicts masks : Catalog κ}
    (columnsBack : ColumnsBack saver order.columns columns)
    (dictsBack : DictsBack saver columns order.dicts dicts)
    (masksBack : MasksBack saver dicts order.masks masks) :
    Reopened saver order masks := by
  have beside : masks = { columns with
      stringDicts := dicts.stringDicts
      stringEncoders := dicts.stringEncoders
      nullMasks := masks.nullMasks } := by
    rw [masksBack.beside, dictsBack.beside]
  have contents : ∀ id, masks.contents id = saver.contents id := by
    intro id
    have same : masks.contents id = columns.contents id := by
      rw [beside]
      rfl
    rw [same, columnsBack.contents]
    simp only [mem_columns_iff saved walks]
    split
    · rfl
    · rename_i absent
      exact (Option.not_isSome_iff_eq_none.mp absent).symm
  have dictsFormed : dicts.WellFormed := by
    rw [dictsBack.beside]
    exact wellFormed_dicts columnsBack.wellFormed _ _
  have wellFormed : masks.WellFormed := by
    rw [masksBack.beside]
    exact wellFormed_nullMasks dictsFormed _
  refine ⟨wellFormed, contents, ?_, ?_, ?_, ?_, ?_, ?_⟩
  · intro id
    have same : masks.columnType id = columns.columnType id := by
      rw [beside]
      rfl
    by_cases here : id ∈ order.columns
    · rw [same, columnsBack.columnType id here]
    · have absent : saver.contents id = none := by
        rw [mem_columns_iff saved walks] at here
        exact Option.not_isSome_iff_eq_none.mp here
      rw [Catalog.columnType, Catalog.columnType, wellFormed.typed id (by
        rw [contents, absent]), saved.typed id absent]
  · intro id registered
    have same : masks.columnName id = columns.columnName id := by
      rw [beside]
      rfl
    rw [same, columnsBack.columnName,
      if_pos ((mem_columns_iff saved walks id).mpr registered)]
  · rw [beside]
    exact columnsBack.nameToId
  · intro id
    have same : masks.stringDicts = dicts.stringDicts := by
      rw [beside]
    rw [same, dictsBack.stringDicts, ← lookup_walked walks.dicts id]
    split
    · rfl
    · rfl
  · intro id
    have same : masks.stringDicts = dicts.stringDicts ∧
        masks.stringEncoders = dicts.stringEncoders := by
      rw [beside]
      exact ⟨rfl, rfl⟩
    rw [same.1, same.2]
    exact dictsBack.stringEncoders id
  · intro id
    rw [masksBack.nullMasks, lookup_walked walks.masks]

/-- A snapshot is read back by a fresh engine exactly if it keeps within the
bounds of the reader. -/
theorem loadCatalog_snapshot [CostArith κ] (saved : saver.WellFormed)
    (coded : saver.Coded) (walks : order.Walks saver)
    (counted : order.Counted) (hostCap : Nat) :
    (saver.Readable → ∃ restored, Reopened saver order restored ∧
      (fresh hostCap).loadCatalog (saver.snapshot order) =
        some (true, restored)) ∧
    (¬ saver.Readable → ∃ left : Catalog κ,
      (fresh hostCap).loadCatalog (saver.snapshot order) =
        some (false, left)) := by
  obtain ⟨named, unnamed, _⟩ := loadCatalog_columns saved walks hostCap
  rw [snapshot_eq]
  by_cases names : saver.NamesFit
  · obtain ⟨columns, columnsBack, columnsRead⟩ := named names
    obtain ⟨short, long, _⟩ :=
      loadTrailing_dicts coded walks counted columnsBack
    rw [columnsRead]
    by_cases strings : saver.StringsFit
    · obtain ⟨dicts, dictsBack, dictsRead⟩ := short strings
      obtain ⟨bounded, beyond, _⟩ := loadSection_masks coded walks counted
        (dictsBack.nullMasks columnsBack)
      rw [dictsRead]
      refine ⟨?_, ?_⟩
      · intro readable
        obtain ⟨masks, masksBack, masksRead⟩ := bounded readable.masks
        rw [masksRead]
        exact ⟨masks, .of_parts saved walks columnsBack dictsBack masksBack,
          rfl⟩
      · intro unreadable
        obtain ⟨left, bad⟩ := beyond fun masks =>
          unreadable ⟨names, strings, masks⟩
        rw [bad]
        exact ⟨left, rfl⟩
    · refine ⟨fun readable => absurd readable.strings strings, fun _ => ?_⟩
      obtain ⟨left, bad⟩ := long strings (saver.masksPart order)
      rw [bad]
      exact ⟨left, rfl⟩
  · exact ⟨fun readable => absurd readable.names names,
      fun _ => unnamed names _⟩

end

end Catalog

end MatrixDB
