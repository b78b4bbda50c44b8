import MatrixDB.Catalog.SafeOpen
import MatrixDB.Cli.Repl
import MatrixDB.Cli.Steady

/-!
# The ids of loaded columns

`.load` takes its id from a counter.  What a line can do to the columns and to
the counter is said once; the counter stays ahead of the columns as long as no
bad snapshot leaves columns behind and the ids do not run out.
-/

namespace MatrixDB

open Lib CostArith

namespace Catalog

/-- The file is read to its end. -/
def isSnapshot (file : Bytes) : Bool :=
  match readU32 file with
  | none => false
  | some (magic, file) =>
      if magic ≠ MATRIX_CATALOG_MAGIC then false
      else
        match readU64 file with
        | none => false
        | some (ncols, file) =>
        match (walkRecords columnLengths columnRest ncols.toNat file).2 with
        | none => false
        | some file =>
        match (walkSection dictWalk file).2 with
        | none => false
        | some file => (walkSection maskWalk file).2.isSome

/-- The answer of a load depends on the file alone. -/
theorem loadCatalog_good {κ : Type} [CostArith κ] {catalog after : Catalog κ}
    (wellFormed : catalog.WellFormed) {file : Bytes} {good : Bool}
    (ran : catalog.loadCatalog file = some (good, after)) :
    good = isSnapshot file := by
  unfold loadCatalog at ran
  unfold isSnapshot
  cases magic : readU32 file with
  | none =>
      rw [magic] at ran
      cases ran
      rfl
  | some header =>
      simp only [magic] at ran ⊢
      by_cases wrong : header.1 ≠ MATRIX_CATALOG_MAGIC
      · rw [if_pos wrong] at ran ⊢
        cases ran
        rfl
      rw [if_neg wrong] at ran ⊢
      obtain ⟨⟨out, last⟩, loaded, same⟩ := Option.map_eq_some_iff.mp ran
      cases same
      unfold loadSections at loaded
      cases counted : readU64 header.2 with
      | none =>
          rw [counted] at loaded
          cases loaded
          rfl
      | some ncols =>
          simp only [counted] at loaded ⊢
          have columns : ∀ out after, readLoop loadColumn ncols.1.toNat ncols.2
              catalog = some (out, after) → out = (walkRecords columnLengths
                columnRest ncols.1.toNat ncols.2).2 := by
            intro out after read
            exact (leaves_loadColumn.readLoop columnLengths _ _ _ _ _
              wellFormed read).1
          split at loaded
          · cases loaded
          · rename_i stopped
            cases loaded
            rw [← columns _ _ stopped]
            rfl
          · rename_i rest middle went
            rw [← columns _ _ went]
            obtain ⟨dicts, read⟩ := loadSection_total loadDict_eq rest middle
            simp only [loadTrailing, read] at loaded ⊢
            cases reached : (walkSection dictWalk rest).2 with
            | none =>
                rw [reached] at loaded
                cases loaded
                rfl
            | some rest =>
                obtain ⟨masks, read⟩ := loadSection_total loadMask_eq rest dicts
                simp only [reached, read] at loaded
                cases loaded
                rfl

end Catalog

/-! ## What a load line does -/

section
variable {κ : Type} [SoundCost κ] {strtod : Bytes → StrtodResult}

/-- What `.load` finds in its file, for the column it makes. -/
def LoadLine.column (strtod : Bytes → StrtodResult) (load : LoadLine)
    (files : Bytes → Option Bytes) (id : UInt64) : List (UInt64 × Bytes) :=
  (load.call files id).loads strtod

omit [SoundCost κ] in
/-- A CSV load is refused with nothing changed, or answers true. -/
theorem loadParsed_cases {A : Type} {engine after : Analytics κ}
    {data : Option A} {load : A → Option (Catalog κ)} {bytes : A → Bytes}
    {id : UInt64} {result : CallResult}
    (ran : engine.withCatalog .flag (engine.catalog.loadParsed data load) =
      some (result, after)) :
    (result = .flag false ∧ after = engine) ∨
      (result = .flag true ∧ ∃ content,
        (data.toList.map fun data => (id, bytes data)) = [(id, content)]) := by
  obtain ⟨⟨ok, catalog⟩, loaded, same⟩ := Option.map_eq_some_iff.mp ran
  cases same
  cases data with
  | none =>
      cases loaded
      exact .inl ⟨rfl, rfl⟩
  | some data =>
      obtain ⟨made, _, same⟩ := Option.map_eq_some_iff.mp loaded
      cases same
      exact .inr ⟨rfl, bytes data, rfl⟩

theorem LoadLine.run_cases {load : LoadLine} {files : Bytes → Option Bytes}
    {id : UInt64} {ns : Nat → UInt64} {engine after : Analytics κ}
    {result : CallResult}
    (ran : (load.call files id).run strtod ns engine = some (result, after)) :
    (result = .flag false ∧ after = engine) ∨
      (result = .flag true ∧
        ∃ content, load.column strtod files id = [(id, content)]) := by
  unfold LoadLine.column
  unfold LoadLine.call at ran ⊢
  cases type : load.type with
  | u32 =>
      simp only [type] at ran ⊢
      exact loadParsed_cases ran
  | i64 =>
      simp only [type] at ran ⊢
      exact loadParsed_cases ran
  | f64 =>
      simp only [type] at ran ⊢
      exact loadParsed_cases ran
  | str =>
      simp only [type] at ran ⊢
      exact loadParsed_cases ran

theorem LoadLine.call_appends (load : LoadLine) (files : Bytes → Option Bytes)
    (id : UInt64) : (load.call files id).appends = [] := by
  unfold LoadLine.call
  cases load.type <;> rfl

/-- The columns behind a load are those before it and the ones it found. -/
theorem LoadLine.run_adds {load : LoadLine} {files : Bytes → Option Bytes}
    {id : UInt64} {ns : Nat → UInt64} {engine after : Analytics κ}
    {result : CallResult} (settled : engine.catalog.Settled)
    (ran : (load.call files id).run strtod ns engine = some (result, after)) :
    Catalog.Adds engine.catalog (load.column strtod files id)
      after.catalog ∧ after.catalog.Settled := by
  have twin : Twin (Analytics.Grown strtod (load.call files id)
      engine.catalog) _ _ :=
    (Analytics.alike_self settled).run ns ns (load.call files id)
  have grown := twin.ensures _ _ ran
  refine ⟨?_, grown.catalog.left⟩
  intro other
  rw [grown.bytes other]
  cases engine.catalog.contents other with
  | none => simp [CatalogCall.extend, LoadLine.column]
  | some bytes => simp [CatalogCall.extend, load.call_appends]

omit [SoundCost κ] in
/-- A name changes no data. -/
theorem Catalog.Settled.nameColumn {catalog after : Catalog κ}
    (settled : catalog.Settled) {id : UInt64} {name : Bytes}
    (named : catalog.nameColumn id name = some after) :
    after.contents = catalog.contents ∧ after.Settled := by
  have related := settled.alike.nameColumn id name
  rw [named] at related
  cases related with
  | some alike =>
      refine ⟨?_, alike.left⟩
      cases Catalog.nameColumn_eq named
      rfl

end

/-! ## What a line does -/

namespace ReplState

variable {κ : Type} [SoundCost κ] {strtod : Bytes → StrtodResult}
  {printDouble : UInt64 → Bytes} {outside : Outside}
  {state next : ReplState κ} {raw out : Bytes}

def contents (state : ReplState κ) (id : UInt64) : Option Bytes :=
  state.engine.catalog.contents id

/-- A line that touches neither the columns nor the counter. -/
structure Same (state next : ReplState κ) : Prop where
  contents : next.contents = state.contents
  nextId : next.nextId = state.nextId

/-- A `.load` that made a column under the next id. -/
structure Loaded (strtod : Bytes → StrtodResult) (outside : Outside)
    (raw : Bytes) (state next : ReplState κ) : Prop where
  line : ∃ tk load, replLine raw = .command (ascii ".load" :: tk) ∧
    loadLine (ascii ".load" :: tk) = .ok load ∧ ∃ content,
      load.column strtod outside.files state.nextId =
        [(state.nextId, content)] ∧
      ∀ id, next.contents id =
        (state.contents id).or ([(state.nextId, content)].lookup id)
  nextId : next.nextId = state.nextId + 1

/-- An `.open` of a file without columns before it. -/
structure Opened (outside : Outside) (raw : Bytes)
    (state next : ReplState κ) : Prop where
  line : ∃ path more file, replLine raw =
      .command (ascii ".open" :: path :: more) ∧
    state.engine.catalog.columns.keys = [] ∧
    outside.files path = some file ∧
    (∀ id, next.contents id =
      (state.contents id).or ((snapshotColumns file).lookup id)) ∧
    next.nextId =
      if Catalog.isSnapshot file then
        past state.nextId (next.columnIds outside)
      else state.nextId

/-- What a line can do to the columns and the counter. -/
def Changes (strtod : Bytes → StrtodResult) (outside : Outside) (raw : Bytes)
    (state next : ReplState κ) : Prop :=
  Same state next ∨ Loaded strtod outside raw state next ∨
    Opened outside raw state next

theorem runLoad_changes (settled : state.engine.catalog.Settled)
    {tk : List Bytes} (line : replLine raw = .command (ascii ".load" :: tk))
    (ran : state.runLoad outside strtod (ascii ".load" :: tk) =
      some (out, next)) :
    Changes strtod outside raw state next ∧ next.engine.catalog.Settled := by
  unfold runLoad at ran
  split at ran
  · cases ran
    exact ⟨.inl ⟨rfl, rfl⟩, settled⟩
  rename_i load parsed
  obtain ⟨⟨loaded, engine⟩, called, ran⟩ := Option.bind_eq_some_iff.mp ran
  obtain ⟨adds, after⟩ := LoadLine.run_adds settled called
  rcases LoadLine.run_cases called with ⟨rfl, rfl⟩ | ⟨rfl, content, found⟩
  · cases ran
    exact ⟨.inl ⟨rfl, rfl⟩, settled⟩
  · obtain ⟨catalog, named, ran⟩ := Option.bind_eq_some_iff.mp ran
    obtain ⟨same, after⟩ := after.nameColumn named
    cases ran
    refine ⟨.inr (.inl ⟨⟨tk, load, line, parsed, content, found, ?_⟩, rfl⟩),
      after⟩
    intro id
    rw [← found]
    exact (congrFun same id).trans (adds id)

theorem runOpen_changes (settled : state.engine.catalog.Settled)
    {tk : List Bytes} (line : replLine raw = .command (ascii ".open" :: tk))
    (ran : state.runOpen outside (ascii ".open" :: tk) = some (out, next)) :
    Changes strtod outside raw state next ∧ next.engine.catalog.Settled := by
  cases tk with
  | nil =>
      cases ran
      exact ⟨.inl ⟨rfl, rfl⟩, settled⟩
  | cons path more =>
      simp only [runOpen] at ran
      split at ran
      · cases ran
        exact ⟨.inl ⟨rfl, rfl⟩, settled⟩
      rename_i empty
      split at ran
      · cases ran
        exact ⟨.inl ⟨rfl, rfl⟩, settled⟩
      rename_i file there
      obtain ⟨⟨good, catalog⟩, loaded, ran⟩ := Option.bind_eq_some_iff.mp ran
      have adds := Catalog.loadCatalog_adds settled.wellFormed loaded
      have answer := Catalog.loadCatalog_good settled.wellFormed loaded
      have after : catalog.Settled :=
        ((settled.alike.loadCatalog file).ensures _ _ loaded).left
      have opened : ∀ next : ReplState κ,
          next.engine.catalog = catalog →
          next.nextId = (if Catalog.isSnapshot file then
            past state.nextId (next.columnIds outside) else state.nextId) →
          Opened outside raw state next := by
        rintro next rfl counted
        exact ⟨path, more, file, line, not_not.mp empty, there, adds, counted⟩
      dsimp only at ran
      split at ran
      · rename_i whole
        cases ran
        refine ⟨.inr (.inr (opened _ rfl ?_)), after⟩
        rw [if_pos (answer.symm.trans whole)]
        rfl
      · rename_i bad
        cases ran
        refine ⟨.inr (.inr (opened _ rfl ?_)), after⟩
        rw [if_neg (by rw [← answer]; exact bad)]

omit [SoundCost κ] in
theorem runSave_same (settled : state.engine.catalog.Settled)
    {tk : List Bytes} (ran : state.runSave outside tk = some (out, next)) :
    Same state next ∧ next.engine.catalog.Settled := by
  unfold runSave at ran
  split at ran
  · obtain ⟨⟨file, catalog⟩, saved, ran⟩ := Option.bind_eq_some_iff.mp ran
    cases ran
    have walks : Catalog.WalkOrder.Walks
        { columns := outside.ids.order state.engine.catalog.columns.keys
          dicts := outside.ids.order state.engine.catalog.stringDicts.keys
          masks := outside.ids.order state.engine.catalog.nullMasks.keys }
        state.engine.catalog :=
      ⟨outside.ids.perm _, outside.ids.perm _, outside.ids.perm _⟩
    obtain ⟨_, _, other, keeps, _⟩ := Catalog.saveCatalog_eq
      settled.wellFormed outside.room (fun id member =>
        Catalog.registered_of_mem_keys settled.wellFormed
          (walks.columns.mem_iff.mp member))
    cases saved.symm.trans other
    exact ⟨⟨funext keeps.contents, rfl⟩, settled.saveCatalog walks _ _ saved⟩
  · cases ran
    exact ⟨⟨rfl, rfl⟩, settled⟩

omit [SoundCost κ] in
theorem runMode_same (tk : List Bytes) : Same state (state.runMode tk).2 ∧
    (state.runMode tk).2.engine = state.engine := by
  unfold runMode
  dsimp only
  split
  · exact ⟨⟨rfl, rfl⟩, rfl⟩
  · exact ⟨⟨rfl, rfl⟩, rfl⟩

theorem runQuery_same (settled : state.engine.catalog.Settled) {line : Bytes}
    (ran : state.runQuery outside strtod printDouble line = some (out, next)) :
    Same state next ∧ next.engine.catalog.Settled := by
  obtain ⟨⟨lines, catalog⟩, queried, ran⟩ := Option.bind_eq_some_iff.mp ran
  obtain ⟨same, after⟩ := settled.runSql queried
  cases ran
  exact ⟨⟨funext fun id => (same.contents id).symm, rfl⟩, after⟩

/-- Every command is one of these. -/
theorem runLine_changes (settled : state.engine.catalog.Settled)
    (ran : state.runLine outside strtod printDouble raw = some (out, next)) :
    Changes strtod outside raw state next ∧ next.engine.catalog.Settled := by
  have unchanged : ∀ {text : Bytes}, some (text, state) = some (out, next) →
      Changes strtod outside raw state next ∧
        next.engine.catalog.Settled := by
    intro text same
    cases same
    exact ⟨.inl ⟨rfl, rfl⟩, settled⟩
  unfold runLine at ran
  split at ran
  · exact unchanged ran
  · obtain ⟨same, after⟩ := runQuery_same settled ran
    exact ⟨.inl same, after⟩
  rename_i tk line
  cases tk with
  | nil => cases ran
  | cons cmd tk =>
      simp only [runCommand] at ran
      split at ran
      · exact unchanged ran
      split at ran
      · exact unchanged ran
      split at ran
      · exact unchanged ran
      split at ran
      · exact unchanged ran
      split at ran
      · rename_i named
        rw [named] at line ran
        exact runLoad_changes settled line ran
      split at ran
      · obtain ⟨same, after⟩ := runSave_same settled ran
        exact ⟨.inl same, after⟩
      split at ran
      · rename_i named
        rw [named] at line ran
        exact runOpen_changes settled line ran
      split at ran
      · cases ran
        exact ⟨.inl ⟨rfl, rfl⟩, settled⟩
      split at ran
      · have kept : Same state (state.runMode (cmd :: tk)).2 ∧
            (state.runMode (cmd :: tk)).2.engine = state.engine :=
          runMode_same (cmd :: tk)
        rw [Option.some.inj ran] at kept
        obtain ⟨same, engine⟩ := kept
        refine ⟨.inl same, ?_⟩
        rw [engine]
        exact settled
      · exact unchanged ran

/-! ## Which lines keep the counter ahead -/

/-- A snapshot without the last id, or a file with no complete column. -/
def OpensCleanly (file : Bytes) : Prop :=
  if Catalog.isSnapshot file then
    ∀ entry ∈ snapshotColumns file, entry.1 ≠ 0xFFFFFFFFFFFFFFFF
  else snapshotColumns file = []

/-- What is opened leaves no columns behind the counter, and the last id is not
used up. -/
structure Careful (strtod : Bytes → StrtodResult) (state : ReplState κ)
    (outside : Outside) (raw : Bytes) : Prop where
  opens : ∀ path more file,
    replLine raw = .command (ascii ".open" :: path :: more) →
    state.engine.catalog.columns.keys = [] →
    outside.files path = some file → OpensCleanly file
  loads : ∀ tk load, replLine raw = .command (ascii ".load" :: tk) →
    loadLine (ascii ".load" :: tk) = .ok load →
    load.column strtod outside.files state.nextId ≠ [] →
    state.nextId ≠ 0xFFFFFFFFFFFFFFFF

/-- Every line that is run meets a condition in the state before it. -/
def EveryLine (strtod : Bytes → StrtodResult) (printDouble : UInt64 → Bytes)
    (meets : ReplState κ → Outside → Bytes → Prop) :
    List (Outside × Bytes) → ReplState κ → Prop
  | [], _ => True
  | (outside, raw) :: lines, state =>
      isQuit raw = true ∨
        (meets state outside raw ∧ ∀ out next,
          state.runLine outside strtod printDouble raw = some (out, next) →
          EveryLine strtod printDouble meets lines next)

/-- The counter is ahead of every column. -/
structure Ahead (state : ReplState κ) : Prop where
  settled : state.engine.catalog.Settled
  nonzero : state.nextId ≠ 0
  below : ∀ id, (state.contents id).isSome → id < state.nextId

omit [SoundCost κ] in
theorem Ahead.start (hostCap : Nat) :
    Ahead (start (.fresh hostCap : Analytics κ)) where
  settled := Catalog.settled_fresh hostCap
  nonzero := (by decide : (1 : UInt64) ≠ 0)
  below := by
    intro id registered
    cases registered

theorem lt_add_one {id : UInt64} (notLast : id ≠ 0xFFFFFFFFFFFFFFFF) :
    id < id + 1 := by
  have below := id.toNat_lt
  have small : id.toNat ≠ 18446744073709551615 := by
    intro same
    exact notLast (UInt64.toNat_inj.mp same)
  rw [UInt64.lt_iff_toNat_lt, UInt64.toNat_add]
  have one : (1 : UInt64).toNat = 1 := rfl
  rw [one, Nat.mod_eq_of_lt (by omega)]
  exact Nat.lt_succ_self _

/-- The counter does not go back, and is behind every id it has passed. -/
theorem past_spec (ids : List UInt64) (next : UInt64)
    (notLast : ∀ id ∈ ids, id ≠ 0xFFFFFFFFFFFFFFFF) :
    next ≤ past next ids ∧ ∀ id ∈ ids, id < past next ids := by
  induction ids generalizing next with
  | nil =>
      refine ⟨UInt64.le_refl next, ?_⟩
      intro id member
      cases member
  | cons first ids induction =>
      obtain ⟨here, others⟩ := List.forall_mem_cons.mp notLast
      have beyond : next ≤ (if next ≤ first then first + 1 else next) ∧
          first < (if next ≤ first then first + 1 else next) := by
        split
        · rename_i within
          have step := lt_add_one here
          exact ⟨UInt64.le_of_lt (UInt64.lt_of_le_of_lt within step), step⟩
        · rename_i behind
          exact ⟨UInt64.le_refl next, UInt64.not_le.mp behind⟩
      obtain ⟨grows, passes⟩ := induction
        (if next ≤ first then first + 1 else next) others
      refine ⟨UInt64.le_trans beyond.1 grows, ?_⟩
      intro id member
      rcases List.mem_cons.mp member with rfl | later
      · exact UInt64.lt_of_lt_of_le beyond.2 grows
      · exact passes id later

theorem ne_zero_of_le {a b : UInt64} (nonzero : a ≠ 0) (above : a ≤ b) :
    b ≠ 0 := by
  rintro rfl
  exact nonzero (UInt64.le_zero_iff.mp above)

omit [SoundCost κ] in
theorem Loaded.ahead (ahead : Ahead state)
    (careful : Careful strtod state outside raw)
    (loaded : Loaded strtod outside raw state next)
    (settled : next.engine.catalog.Settled) : Ahead next := by
  obtain ⟨⟨tk, load, line, parsed, content, found, contents⟩, counted⟩ := loaded
  have notLast := careful.loads tk load line parsed (by
    rw [found]
    exact List.cons_ne_nil _ _)
  have step := lt_add_one notLast
  refine ⟨settled, ?_, ?_⟩
  · rw [counted]
    exact ne_zero_of_le ahead.nonzero (UInt64.le_of_lt step)
  · intro id registered
    rw [counted]
    rw [contents id] at registered
    by_cases own : id = state.nextId
    · rw [own]
      exact step
    · have other : (id == state.nextId) = false := by
        simpa using own
      have before : (state.contents id).isSome := by
        simpa [List.lookup, other] using registered
      exact UInt64.lt_trans (ahead.below id before) step

omit [SoundCost κ] in
theorem Opened.ahead (ahead : Ahead state)
    (careful : Careful strtod state outside raw)
    (opened : Opened outside raw state next)
    (settled : next.engine.catalog.Settled) : Ahead next := by
  obtain ⟨path, more, file, line, empty, there, contents, counted⟩ :=
    opened.line
  have clean := careful.opens path more file line empty there
  have nothing : ∀ id, state.contents id = none := by
    intro id
    apply Option.not_isSome_iff_eq_none.mp
    intro registered
    have member := Catalog.mem_keys_of_registered registered
    rw [empty] at member
    cases member
  have restored : ∀ id, next.contents id =
      (snapshotColumns file).lookup id := by
    intro id
    rw [contents id, nothing id]
    rfl
  unfold OpensCleanly at clean
  split at clean
  · rename_i whole
    rw [if_pos whole] at counted
    have listed : ∀ id, id ∈ next.columnIds outside ↔
        id ∈ next.engine.catalog.columns.keys := by
      intro id
      exact (outside.ids.perm _).mem_iff
    have notLast : ∀ id ∈ next.columnIds outside,
        id ≠ 0xFFFFFFFFFFFFFFFF := by
      rintro id member rfl
      have registered := Catalog.registered_of_mem_keys settled.wellFormed
        ((listed _).mp member)
      obtain ⟨content, held⟩ := Option.isSome_iff_exists.mp registered
      rw [← ReplState.contents, restored] at held
      obtain ⟨front, back, parts, _⟩ := List.lookup_eq_some_iff.mp held
      have member : ((0xFFFFFFFFFFFFFFFF : UInt64), content) ∈
          snapshotColumns file := by
        rw [parts]
        exact List.mem_append_right front List.mem_cons_self
      exact clean _ member rfl
    obtain ⟨grows, passes⟩ := past_spec _ state.nextId notLast
    rw [← counted] at grows passes
    refine ⟨settled, ne_zero_of_le ahead.nonzero grows, ?_⟩
    intro id registered
    exact passes id ((listed id).mpr
      (Catalog.mem_keys_of_registered registered))
  · rename_i bad
    rw [if_neg bad] at counted
    refine ⟨settled, ?_, ?_⟩
    · rw [counted]
      exact ahead.nonzero
    · intro id registered
      rw [restored, clean] at registered
      cases registered

/-- One line. -/
theorem Ahead.runLine (ahead : Ahead state)
    (careful : Careful strtod state outside raw)
    (ran : state.runLine outside strtod printDouble raw = some (out, next)) :
    Ahead next := by
  obtain ⟨same | loaded | opened, settled⟩ :=
    runLine_changes ahead.settled ran
  · refine ⟨settled, ?_, ?_⟩
    · rw [same.nextId]
      exact ahead.nonzero
    · rw [same.nextId, same.contents]
      exact ahead.below
  · exact loaded.ahead ahead careful settled
  · exact opened.ahead ahead careful settled

/-- All lines. -/
theorem Ahead.matrixRepl {lines : List (Outside × Bytes)} (ahead : Ahead state)
    (careful : EveryLine strtod printDouble (Careful strtod) lines state)
    (ran : matrixRepl strtod printDouble lines state = some (out, next)) :
    Ahead next := by
  induction lines generalizing state out with
  | nil =>
      cases ran
      exact ahead
  | cons line lines induction =>
      obtain ⟨outside, raw⟩ := line
      rw [MatrixDB.matrixRepl] at ran
      split at ran
      · cases ran
        exact ahead
      · rename_i goes
        obtain ⟨⟨_, middle⟩, ranLine, ran⟩ := Option.bind_eq_some_iff.mp ran
        obtain ⟨⟨_, last⟩, rest, ran⟩ := Option.bind_eq_some_iff.mp ran
        cases ran
        rcases careful with quits | ⟨meets, later⟩
        · exact absurd quits goes
        · exact induction (ahead.runLine meets ranLine)
            (later _ _ ranLine) rest

/-- In a session on an empty engine whose lines are all careful, the next id
is not zero and no column has it. -/
theorem nextId_fresh {hostCap : Nat} {lines : List (Outside × Bytes)}
    (careful : EveryLine strtod printDouble (Careful strtod) lines
      (start (.fresh hostCap : Analytics κ)))
    (ran : matrixRepl strtod printDouble lines (start (.fresh hostCap)) =
      some (out, next)) :
    next.nextId ≠ 0 ∧ next.engine.catalog.catalogHas next.nextId = false := by
  have ahead := (Ahead.start hostCap).matrixRepl careful ran
  refine ⟨ahead.nonzero, ?_⟩
  rw [Catalog.catalogHas_eq ahead.settled.wellFormed]
  apply Bool.not_eq_true _ |>.mp
  intro registered
  exact UInt64.lt_irrefl _ (ahead.below _ registered)

/-- Two snapshots, one of them cut off behind its columns, and a CSV file. -/
def shelf : Outside where
  files := fun path =>
    if path = ascii "kept" then some (Analytics.columnFile 7 1 (u32Bytes 5))
    else if path = ascii "cut" then
      some (Analytics.columnFile 1 1 (u32Bytes 5) ++ u64Bytes 1)
    else if path = ascii "rows" then some (ascii "5")
    else none
  room := 0
  ns := fun _ => 0
  micros := 0
  ids := ⟨id, .refl⟩
  names := ⟨id, .refl⟩

def typed (lines : List String) : List (Outside × Bytes) :=
  lines.map fun line => (shelf, ascii line)

/-- A session that is typed in, on an empty engine. -/
def session (lines : List String) : Option (Bytes × ReplState ℚ) :=
  matrixRepl Analytics.noNumber (fun _ => []) (typed lines)
    (start (.fresh 8))

/-- Behind a snapshot with the column 7. -/
theorem nextId_fresh_opened :
    ∃ out last, session [".help", ".open kept"] = some (out, last) ∧
      last.nextId = 8 ∧ last.nextId ≠ 0 ∧
      last.engine.catalog.catalogHas last.nextId = false := by
  have counted : (session [".help", ".open kept"]).map
      (fun result => result.2.nextId) = some 8 := by decide +kernel
  obtain ⟨⟨out, last⟩, ran, same⟩ := Option.map_eq_some_iff.mp counted
  refine ⟨out, last, ran, same, nextId_fresh ?_ ran⟩
  have first : replLine (ascii ".help") = .command [ascii ".help"] := by
    decide +kernel
  have second : replLine (ascii ".open kept") =
      .command [ascii ".open", ascii "kept"] := by decide +kernel
  have different : ascii ".help" ≠ ascii ".open" ∧
      ascii ".help" ≠ ascii ".load" ∧ ascii ".open" ≠ ascii ".load" := by
    decide +kernel
  refine .inr ⟨⟨?_, ?_⟩, ?_⟩
  · intro path more file line
    rw [first] at line
    exact absurd (List.cons.inj (ReplLine.command.inj line)).1 different.1
  · intro tk load line
    rw [first] at line
    exact absurd (List.cons.inj (ReplLine.command.inj line)).1 different.2.1
  intro _ middle _
  refine .inr ⟨⟨?_, ?_⟩, fun _ _ _ => trivial⟩
  · intro path more file line _ there
    rw [second] at line
    obtain ⟨rfl, _⟩ := List.cons.inj
      (List.cons.inj (ReplLine.command.inj line)).2
    cases there.symm.trans (by decide +kernel : shelf.files (ascii "kept") =
      some (Analytics.columnFile 7 1 (u32Bytes 5)))
    have clean : ∀ entry ∈ snapshotColumns
        (Analytics.columnFile 7 1 (u32Bytes 5)),
        entry.1 ≠ 0xFFFFFFFFFFFFFFFF := by decide +kernel
    rw [OpensCleanly, if_pos (by decide +kernel)]
    exact clean
  · intro tk load line
    rw [second] at line
    exact absurd (List.cons.inj (ReplLine.command.inj line)).1 different.2.2

/-- A snapshot that ends behind its columns is refused and leaves column 1,
and the next `.load` asks for that id again. -/
theorem nextId_taken :
    (session [".open cut"]).map (fun result =>
      (result.2.nextId,
        result.2.engine.catalog.catalogHas result.2.nextId)) =
      some (1, true) ∧
    session [".open cut", ".load rows a u32 noheader"] = none := by
  constructor
  · decide +kernel
  · rfl

end ReplState

end MatrixDB
