import MatrixDB.Cli.Returns

/-!
# Sessions of the shell

A session returns exactly if every line that it runs does.  Which lines return
is said of the line, the files that it names, and the columns before it.
-/

namespace MatrixDB

open Lib CostArith Catalog

/-! ## Commands -/

theorem splitWs_cons {c : UInt8} (visible : isSpace c = false) (rest : Bytes) :
    ∃ token tokens, splitWs (c :: rest) = token :: tokens := by
  unfold splitWs
  rw [List.splitOnP_cons_eq_if_modifyHead,
    if_neg (Bool.eq_false_iff.mp visible)]
  cases split : rest.splitOnP isSpace with
  | nil => exact absurd split (List.splitOnP_ne_nil _ _)
  | cons first others => exact ⟨c :: first, _, rfl⟩

/-- `tk[0]` is there. -/
theorem replLine_command {raw : Bytes} {tk : List Bytes}
    (read : replLine raw = .command tk) :
    ∃ cmd more, tk = cmd :: more := by
  unfold replLine at read
  split at read
  · cases read
  rename_i c rest _
  split at read
  · cases read
  split at read
  · rename_i dot
    cases read
    rw [dot]
    exact splitWs_cons (by decide) rest
  · cases read

variable {κ : Type} [SoundCost κ] {strtod : Bytes → StrtodResult}
  {printDouble : UInt64 → Bytes}

/-- The id is new and the bytes fit a vector. -/
def Catalog.Storable (catalog : Catalog κ) (id : UInt64) (bytes : Bytes) :
    Prop :=
  id ≠ 0 ∧ catalog.contents id = none ∧ bytes.length ≤ MAX_VECTOR_BYTES

/-- What is found in the file is storable, and 32 bits count its strings. -/
structure LoadReturns (strtod : Bytes → StrtodResult) (catalog : Catalog κ)
    (nextId : UInt64) (files : Bytes → Option Bytes) (load : LoadLine) :
    Prop where
  column : ∀ entry ∈ load.column strtod files nextId,
    catalog.Storable nextId entry.2
  strings : load.type = .str → ∀ data,
    (load.source files).read matrixReadCsvColumnStr = some data →
      (sortedDict data).length < 2 ^ 32

theorem isSome_loadBytes_iff {catalog : Catalog κ}
    (wellFormed : catalog.WellFormed) {id : UInt64} {bytes : Bytes} :
    (catalog.loadBytes id bytes).isSome ↔ catalog.Storable id bytes := by
  unfold loadBytes
  rw [isSome_lookup_eq wellFormed]
  split
  · rename_i zero
    exact iff_of_false Bool.false_ne_true fun all => all.1 zero
  rename_i nonzero
  split
  · rename_i used
    refine iff_of_false Bool.false_ne_true ?_
    rintro ⟨_, unused, _⟩
    rw [unused] at used
    cases used
  rename_i unused
  split
  · rename_i long
    refine iff_of_false Bool.false_ne_true ?_
    rintro ⟨_, _, fits⟩
    exact absurd fits (Nat.not_le.mpr long)
  · rename_i short
    exact iff_of_true rfl ⟨nonzero, Option.not_isSome_iff_eq_none.mp unused,
      Nat.not_lt.mp short⟩

/-- What is done to the columns behind a load always returns. -/
theorem isSome_wideLoad_iff {catalog : Catalog κ}
    (wellFormed : catalog.WellFormed) {id : UInt64} {bytes : Bytes}
    (change : Catalog κ → Catalog κ) :
    ((catalog.loadBytes id bytes).bind fun catalog =>
      some (change catalog)).isSome ↔ catalog.Storable id bytes := by
  rw [← isSome_loadBytes_iff wellFormed]
  cases catalog.loadBytes id bytes with
  | none => exact Iff.rfl
  | some catalog => exact Iff.rfl

theorem isSome_loadStringColumnDict_iff {catalog : Catalog κ}
    (wellFormed : catalog.WellFormed) {id : UInt64} {data : List Bytes} :
    (catalog.loadStringColumnDict id data).isSome ↔
      catalog.Storable id (codeBytes data) ∧
        (sortedDict data).length < 2 ^ 32 := by
  unfold loadStringColumnDict
  dsimp only
  split
  · rename_i many
    refine iff_of_false Bool.false_ne_true fun all => ?_
    exact absurd all.2 (Nat.not_lt.mpr many)
  · rename_i few
    refine (isSome_wideLoad_iff wellFormed _).trans ?_
    exact (and_iff_left (Nat.not_le.mp few)).symm

omit [SoundCost κ] in
/-- A refused file returns, and what is read is loaded. -/
theorem isSome_loadParsed_iff {A : Type} {engine : Analytics κ}
    {data : Option A} {load : A → Option (Catalog κ)} :
    (engine.withCatalog .flag (engine.catalog.loadParsed data load)).isSome ↔
      ∀ value, data = some value → (load value).isSome := by
  unfold Analytics.withCatalog loadParsed
  rw [Option.isSome_map]
  cases data with
  | none => exact iff_of_true rfl fun _ => nofun
  | some value => simp

omit [SoundCost κ] in
/-- The column of a file, and the values that it is made of. -/
theorem forall_column_iff {A : Type} {data : Option A} {bytes : A → Bytes}
    {id : UInt64} {P : Bytes → Prop} :
    (∀ entry ∈ data.toList.map fun value => (id, bytes value), P entry.2) ↔
      ∀ value, data = some value → P (bytes value) := by
  simp

omit [SoundCost κ] in
theorem isSome_parsedLoad_iff {A : Type} {engine : Analytics κ}
    {data : Option A} {load : A → Option (Catalog κ)} {bytes : A → Bytes}
    {id : UInt64}
    (loads : ∀ value, (load value).isSome ↔
      engine.catalog.Storable id (bytes value)) :
    (engine.withCatalog .flag (engine.catalog.loadParsed data load)).isSome ↔
      ∀ entry ∈ data.toList.map fun value => (id, bytes value),
        engine.catalog.Storable id entry.2 := by
  rw [isSome_loadParsed_iff, forall_column_iff]
  apply forall₂_congr
  intro value _
  exact loads value

theorem isSome_call_iff (strtod : Bytes → StrtodResult)
    {engine : Analytics κ}
    (wellFormed : engine.catalog.WellFormed) (load : LoadLine)
    (files : Bytes → Option Bytes) (id : UInt64) (ns : Nat → UInt64) :
    ((load.call files id).run strtod ns engine).isSome ↔
      LoadReturns strtod engine.catalog id files load := by
  have plain : load.type ≠ .str →
      (LoadReturns strtod engine.catalog id files load ↔
        ∀ entry ∈ (load.call files id).loads strtod,
          engine.catalog.Storable id entry.2) := by
    intro other
    constructor
    · intro returns
      exact returns.column
    · intro column
      exact ⟨column, fun type => absurd type other⟩
  unfold LoadLine.call at plain ⊢
  cases type : load.type with
  | u32 =>
      simp only [type] at plain ⊢
      rw [plain nofun]
      apply isSome_parsedLoad_iff
      intro data
      exact isSome_loadBytes_iff wellFormed
  | i64 =>
      simp only [type] at plain ⊢
      rw [plain nofun]
      apply isSome_parsedLoad_iff
      intro data
      exact isSome_wideLoad_iff wellFormed _
  | f64 =>
      simp only [type] at plain ⊢
      rw [plain nofun]
      apply isSome_parsedLoad_iff
      intro data
      exact isSome_wideLoad_iff wellFormed _
  | str =>
      have column : load.column strtod files id =
          ((load.source files).read matrixReadCsvColumnStr).toList.map
            fun data => (id, codeBytes data) := by
        unfold LoadLine.column LoadLine.call
        simp only [type]
        rfl
      refine isSome_loadParsed_iff.trans ?_
      simp only [isSome_loadStringColumnDict_iff wellFormed]
      constructor
      · intro loads
        refine ⟨?_, fun _ data read => (loads data read).2⟩
        rw [column, forall_column_iff]
        exact fun data read => (loads data read).1
      · intro returns data read
        have stored := returns.column
        rw [column, forall_column_iff] at stored
        exact ⟨stored data read, returns.strings type data read⟩

/-- The lengths in the file fit a vector, and its columns have ids of their
own. -/
structure SnapshotReturns (file : Bytes) : Prop where
  lengths : ∀ length ∈ fileLengths file, length ≤ MAX_VECTOR_BYTES
  distinct : ((snapshotColumns file).map Prod.fst).Nodup
  nonzero : ∀ entry ∈ snapshotColumns file, entry.1 ≠ 0

theorem isSome_loadCatalog_empty {catalog : Catalog κ}
    (wellFormed : catalog.WellFormed) (empty : catalog.columns.keys = [])
    (file : Bytes) :
    (catalog.loadCatalog file).isSome ↔ SnapshotReturns file := by
  have unused : ∀ id, catalog.contents id = none := by
    intro id
    apply Option.not_isSome_iff_eq_none.mp
    intro registered
    have member := mem_keys_of_registered registered
    rw [empty] at member
    cases member
  rw [isSome_loadCatalog_iff wellFormed]
  constructor
  · rintro ⟨lengths, distinct, new⟩
    refine ⟨lengths, distinct, ?_⟩
    intro entry member
    exact (new entry.1 (List.mem_map_of_mem member)).1
  · intro returns
    refine ⟨returns.lengths, returns.distinct, ?_⟩
    intro id member
    obtain ⟨entry, inside, rfl⟩ := List.mem_map.mp member
    exact ⟨returns.nonzero entry inside, unused entry.1⟩

namespace ReplState

variable {outside : Outside} {state next : ReplState κ} {raw out : Bytes}

theorem isSome_runLoad_iff (settled : state.engine.catalog.Settled)
    (tk : List Bytes) :
    (state.runLoad outside strtod tk).isSome ↔
      ∀ load, loadLine tk = .ok load →
        LoadReturns strtod state.engine.catalog state.nextId outside.files
          load := by
  unfold runLoad
  cases loadLine tk with
  | error message => exact iff_of_true rfl fun _ => nofun
  | ok load =>
      have calls := isSome_call_iff strtod settled.wellFormed load
        outside.files state.nextId outside.ns
      have own : (∀ other, Except.ok (ε := Bytes) load = .ok other →
          LoadReturns strtod state.engine.catalog state.nextId outside.files
            other) ↔ LoadReturns strtod state.engine.catalog state.nextId
          outside.files load := by simp
      rw [own, ← calls]
      simp only [Option.bind_eq_bind]
      cases called : (load.call outside.files state.nextId).run strtod
          outside.ns state.engine with
      | none => exact Iff.rfl
      | some result =>
          refine iff_of_true ?_ rfl
          obtain ⟨result, engine⟩ := result
          rcases LoadLine.run_cases called with
            ⟨rfl, rfl⟩ | ⟨rfl, content, found⟩
          · rfl
          have returns := calls.mp (by rw [called]; rfl)
          have stored := returns.column (state.nextId, content)
            (by simp [found])
          obtain ⟨adds, after⟩ := LoadLine.run_adds settled called
          have there : engine.catalog.catalogHas state.nextId = true := by
            rw [catalogHas_eq after.wellFormed, adds state.nextId, found,
              stored.2.1]
            simp
          have named : ∃ catalog, engine.catalog.nameColumn state.nextId
              load.name = some catalog :=
            ⟨_, if_pos there⟩
          obtain ⟨catalog, named⟩ := named
          simp only [Option.bind_some, named]
          rfl

omit [SoundCost κ] in
theorem runSave_eq (wellFormed : state.engine.catalog.WellFormed)
    (outside : Outside) (tk : List Bytes) :
    ∃ out next, state.runSave outside tk = some (out, next) ∧
      Keeps state.engine.catalog next.engine.catalog := by
  unfold runSave
  split
  · let order : WalkOrder :=
      { columns := outside.ids.order state.engine.catalog.columns.keys
        dicts := outside.ids.order state.engine.catalog.stringDicts.keys
        masks := outside.ids.order state.engine.catalog.nullMasks.keys }
    have columns : ∀ id ∈ order.columns,
        (state.engine.catalog.contents id).isSome := by
      intro id member
      exact registered_of_mem_keys wellFormed
        ((outside.ids.perm _).mem_iff.mp member)
    obtain ⟨file, after, saved, keeps, _⟩ :=
      saveCatalog_eq wellFormed outside.room columns
    dsimp only [order] at saved ⊢
    rw [saved]
    exact ⟨_, _, rfl, keeps⟩
  · exact ⟨_, _, rfl, .refl wellFormed⟩

theorem isSome_runOpen_iff (wellFormed : state.engine.catalog.WellFormed)
    (cmd : Bytes) (tk : List Bytes) :
    (state.runOpen outside (cmd :: tk)).isSome ↔
      ∀ path more file, tk = path :: more →
        state.engine.catalog.columns.keys = [] →
        outside.files path = some file → SnapshotReturns file := by
  cases tk with
  | nil => exact iff_of_true rfl nofun
  | cons path more =>
      simp only [runOpen]
      split
      · rename_i used
        refine iff_of_true rfl ?_
        intro _ _ _ _ empty
        exact absurd empty used
      rename_i unused
      have empty := not_not.mp unused
      cases there : outside.files path with
      | none =>
          refine iff_of_true rfl ?_
          intro path' _ file words _ found
          cases words
          cases there.symm.trans found
      | some file =>
          have loads := isSome_loadCatalog_empty wellFormed empty file
          have own : (∀ path' more' file', path :: more = path' :: more' →
              state.engine.catalog.columns.keys = [] →
              outside.files path' = some file' → SnapshotReturns file') ↔
              SnapshotReturns file := by
            constructor
            · intro every
              exact every path more file rfl empty there
            · intro returns path' _ file' words _ found
              cases words
              cases there.symm.trans found
              exact returns
          rw [own, ← loads]
          simp only [Option.bind_eq_bind]
          cases state.engine.catalog.loadCatalog file with
          | none => exact Iff.rfl
          | some result =>
              refine iff_of_true ?_ rfl
              rw [Option.bind_some]
              split <;> rfl

theorem isSome_runQuery_iff (settled : state.engine.catalog.Settled)
    (named : state.engine.catalog.Named) (line : Bytes) :
    (state.runQuery outside strtod printDouble line).isSome ↔
      state.engine.catalog.SqlReturns strtod line := by
  rw [← isSome_runSql_iff settled.wellFormed named]
  exact iff_of_eq (congrArg (· = true) (isSome_bind_some _ _))

/-! ## Lines -/

/-- The query stays within its columns and masks, and what is loaded or opened
gets new ids and fits a vector. -/
structure LineReturns (strtod : Bytes → StrtodResult) (state : ReplState κ)
    (outside : Outside) (raw : Bytes) : Prop where
  sql : ∀ line, replLine raw = .sql line →
    state.engine.catalog.SqlReturns strtod line
  loads : ∀ tk load, replLine raw = .command (ascii ".load" :: tk) →
    loadLine (ascii ".load" :: tk) = .ok load →
    LoadReturns strtod state.engine.catalog state.nextId outside.files load
  opens : ∀ path more file,
    replLine raw = .command (ascii ".open" :: path :: more) →
    state.engine.catalog.columns.keys = [] →
    outside.files path = some file → SnapshotReturns file

theorem isSome_runCommand_other
    (wellFormed : state.engine.catalog.WellFormed) {cmd : Bytes}
    (tk : List Bytes) (load : cmd ≠ ascii ".load")
    (opens : cmd ≠ ascii ".open") :
    (state.runCommand outside strtod (cmd :: tk)).isSome := by
  simp only [runCommand, if_neg load, if_neg opens]
  split
  · rfl
  split
  · rfl
  split
  · rfl
  split
  · rfl
  split
  · obtain ⟨_, _, saved, _⟩ := runSave_eq wellFormed outside (cmd :: tk)
    rw [saved]
    rfl
  split
  · rfl
  split
  · rfl
  · rfl

theorem runCommand_load (tk : List Bytes) :
    state.runCommand outside strtod (ascii ".load" :: tk) =
      state.runLoad outside strtod (ascii ".load" :: tk) := by
  have others : ascii ".load" ≠ ascii ".help" ∧
      ascii ".load" ≠ ascii ".tables" ∧ ascii ".load" ≠ ascii ".columns" ∧
      ascii ".load" ≠ ascii ".stats" := by decide +kernel
  obtain ⟨help, tables, columns, stats⟩ := others
  simp only [runCommand, if_neg help, if_neg tables, if_neg columns,
    if_neg stats, if_pos]

theorem runCommand_open (tk : List Bytes) :
    state.runCommand outside strtod (ascii ".open" :: tk) =
      state.runOpen outside (ascii ".open" :: tk) := by
  have others : ascii ".open" ≠ ascii ".help" ∧
      ascii ".open" ≠ ascii ".tables" ∧ ascii ".open" ≠ ascii ".columns" ∧
      ascii ".open" ≠ ascii ".stats" ∧ ascii ".open" ≠ ascii ".load" ∧
      ascii ".open" ≠ ascii ".save" := by decide +kernel
  obtain ⟨help, tables, columns, stats, load, save⟩ := others
  simp only [runCommand, if_neg help, if_neg tables, if_neg columns,
    if_neg stats, if_neg load, if_neg save, if_pos]

theorem command_inj {cmd cmd' : Bytes} {tk tk' : List Bytes}
    (line : replLine raw = .command (cmd :: tk))
    (same : replLine raw = .command (cmd' :: tk')) : cmd = cmd' ∧ tk = tk' :=
  List.cons.inj (ReplLine.command.inj (line.symm.trans same))

theorem isSome_runLine_iff (printDouble : UInt64 → Bytes)
    (settled : state.engine.catalog.Settled)
    (named : state.engine.catalog.Named) :
    (state.runLine outside strtod printDouble raw).isSome ↔
      LineReturns strtod state outside raw := by
  unfold runLine
  cases line : replLine raw with
  | skip =>
      refine iff_of_true rfl ⟨?_, ?_, ?_⟩
      all_goals simp [line]
  | sql query =>
      rw [isSome_runQuery_iff settled named]
      constructor
      · intro returns
        refine ⟨?_, ?_, ?_⟩
        · intro query' same
          cases line.symm.trans same
          exact returns
        · simp [line]
        · simp [line]
      · intro returns
        exact returns.sql query line
  | command tk =>
      obtain ⟨cmd, tk, rfl⟩ := replLine_command line
      by_cases load : cmd = ascii ".load"
      · subst load
        simp only [runCommand_load]
        rw [isSome_runLoad_iff settled]
        constructor
        · intro returns
          refine ⟨by simp [line], ?_, ?_⟩
          · intro tk' load same
            cases line.symm.trans same
            exact returns load
          · intro path more file same
            have other : ascii ".load" ≠ ascii ".open" := by decide +kernel
            exact absurd (command_inj line same).1 other
        · intro returns load
          exact returns.loads tk load line
      by_cases opens : cmd = ascii ".open"
      · subst opens
        simp only [runCommand_open]
        rw [isSome_runOpen_iff settled.wellFormed]
        constructor
        · intro returns
          refine ⟨by simp [line], ?_, ?_⟩
          · intro tk' other same
            exact absurd (command_inj line same).1 load
          · intro path more file same
            exact returns path more file (command_inj line same).2
        · intro returns path more file words
          subst words
          exact returns.opens path more file line
      · refine iff_of_true
          (isSome_runCommand_other settled.wellFormed tk load opens)
          ⟨by simp [line], ?_, ?_⟩
        · intro tk' other same
          exact absurd (command_inj line same).1 load
        · intro path more file same
          exact absurd (command_inj line same).1 opens

/-! ## Sessions -/

section
variable {P : Catalog κ → Prop} (lasting : Lasting P)
  (settled : state.engine.catalog.Settled) (holds : P state.engine.catalog)

include lasting settled holds

theorem runLoad_lasting (tk : List Bytes) :
    Ensures (fun next => P next.engine.catalog)
      (state.runLoad outside strtod tk) := by
  unfold runLoad
  split
  · exact .pure holds
  · rename_i load _
    refine Ensures.bind (Analytics.run_lasting lasting settled holds
      outside.ns (load.call outside.files state.nextId)) ?_
    intro result engine kept
    dsimp only
    split
    · intro out next ran
      obtain ⟨catalog, named, ran⟩ := Option.bind_eq_some_iff.mp ran
      cases ran
      exact lasting.nameColumn kept named
    · exact .pure kept

omit settled in
theorem runOpen_lasting (tk : List Bytes) :
    Ensures (fun next => P next.engine.catalog)
      (state.runOpen outside tk) := by
  unfold runOpen
  split
  · split
    · exact .pure holds
    split
    · exact .pure holds
    · rename_i file _
      refine Ensures.bind (lasting.loadCatalog file holds) ?_
      intro good catalog kept
      dsimp only
      split
      · exact .pure kept
      · exact .pure kept
  · exact .pure holds

omit [SoundCost κ] in
theorem runSave_lasting (tk : List Bytes) :
    Ensures (fun next => P next.engine.catalog)
      (state.runSave outside tk) := by
  intro out next ran
  obtain ⟨_, _, saved, keeps⟩ := runSave_eq settled.wellFormed outside tk
  cases saved.symm.trans ran
  exact lasting.elsewhere holds
    (keeps.sameData.elsewhere settled.wellFormed keeps.wellFormed)

theorem runQuery_lasting (line : Bytes) :
    Ensures (fun next => P next.engine.catalog)
      (state.runQuery outside strtod printDouble line) := by
  intro out next ran
  obtain ⟨⟨lines, catalog⟩, queried, ran⟩ := Option.bind_eq_some_iff.mp ran
  obtain ⟨same, after⟩ := settled.runSql queried
  cases ran
  exact lasting.elsewhere holds
    (same.elsewhere settled.wellFormed after.wellFormed)

/-- One line. -/
theorem runLine_lasting (raw : Bytes) :
    Ensures (fun next => P next.engine.catalog)
      (state.runLine outside strtod printDouble raw) := by
  unfold runLine
  split
  · exact .pure holds
  · exact runQuery_lasting lasting settled holds _
  · unfold runCommand
    split
    · exact .none
    split
    · exact .pure holds
    split
    · exact .pure holds
    split
    · exact .pure holds
    split
    · exact .pure holds
    split
    · exact runLoad_lasting lasting settled holds _
    split
    · exact runSave_lasting lasting settled holds _
    split
    · exact runOpen_lasting lasting holds _
    split
    · exact .pure holds
    split
    · intro out next ran
      have chosen := congrArg Prod.snd (Option.some.inj ran)
      dsimp only at chosen
      rw [← chosen, (runMode_same _).2]
      exact holds
    · exact .pure holds

end

theorem isSome_matrixRepl_iff {lines : List (Outside × Bytes)}
    (settled : state.engine.catalog.Settled)
    (named : state.engine.catalog.Named) :
    (matrixRepl strtod printDouble lines state).isSome ↔
      EveryLine strtod printDouble (LineReturns strtod) lines state := by
  induction lines generalizing state with
  | nil => exact iff_of_true rfl trivial
  | cons line lines induction =>
      obtain ⟨outside, raw⟩ := line
      rw [matrixRepl]
      split
      · rename_i quits
        exact iff_of_true rfl (.inl quits)
      rename_i goes
      rw [EveryLine, or_iff_right goes,
        ← isSome_runLine_iff printDouble settled named]
      cases ran : state.runLine outside strtod printDouble raw with
      | none => simp
      | some result =>
          obtain ⟨out, next⟩ := result
          obtain ⟨_, after⟩ := runLine_changes settled ran
          have kept := runLine_lasting lasting_named settled named raw _ _ ran
          have own : (∀ out' next', some (out, next) = some (out', next') →
              EveryLine strtod printDouble (LineReturns strtod) lines next') ↔
              EveryLine strtod printDouble (LineReturns strtod) lines next := by
            simp
          rw [own, ← induction after kept]
          simp only [Option.bind_eq_bind, Option.bind_some, Option.isSome_some,
            true_and]
          exact iff_of_eq (congrArg (· = true) (isSome_bind_some _ _))

/-- From any engine a session returns exactly if each line that it runs asks
for nothing beyond the columns, ids and files before it. -/
theorem matrixRepl_returns_iff {engine : Analytics κ}
    (live : Analytics.Live strtod engine) (lines : List (Outside × Bytes)) :
    (matrixRepl strtod printDouble lines (start engine)).isSome ↔
      EveryLine strtod printDouble (LineReturns strtod) lines
        (start engine) :=
  isSome_matrixRepl_iff live.settled live.named

/-- A join that is shown, and one that cannot be counted. -/
theorem matrixRepl_returns_joined :
    EveryLine Analytics.noNumber (fun _ => []) (LineReturns Analytics.noNumber)
      (typed [".load rows a u32 noheader", "SELECT a, a JOIN a = a"])
      (start (.fresh 8 : Analytics ℚ)) ∧
    ¬EveryLine Analytics.noNumber (fun _ => [])
      (LineReturns Analytics.noNumber)
      (typed [".load rows a i64 noheader", "SELECT COUNT(*) JOIN a = a"])
      (start (.fresh 8 : Analytics ℚ)) := by
  constructor
  · apply (matrixRepl_returns_iff (.fresh 8) _).mp
    decide +kernel
  · intro every
    have returns := (matrixRepl_returns_iff (.fresh 8) _).mpr every
    revert returns
    decide +kernel

/-- Counting a join of `int64` keys aborts, and so do a join that gathers from
a column with too few rows and a second column with the first one's id. -/
theorem matrixRepl_aborts :
    session [".load rows a i64 noheader", "SELECT COUNT(*) JOIN a = a"] =
      none ∧
    session [".load rows a u32 noheader", ".load rows c u32",
      "SELECT SUM(c) JOIN a = a"] = none ∧
    session [".open cut", ".load rows a u32 noheader"] = none := by
  refine ⟨?_, ?_, ?_⟩
  · rfl
  · rfl
  · rfl

end ReplState

end MatrixDB
