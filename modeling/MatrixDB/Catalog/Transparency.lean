import MatrixDB.Catalog.Lockstep
import Mathlib.Data.Option.Basic

/-!
# Two engines with the same data

Where a column is kept depends on budgets and on the heat of past queries, and
no call of the engine shows it.  Two settled engines with the same data answer
every call alike and have the same data afterwards.  Each call is followed down
to the loans it takes; a loan shows the same bytes on both sides.
-/

namespace MatrixDB

open Lib

variable {κ : Type}

namespace Catalog

/-! ## Settled engines -/

/-- What every call of the engine leaves behind. -/
structure Settled (catalog : Catalog κ) : Prop where
  wellFormed : catalog.WellFormed
  lockstep : catalog.Lockstep

theorem settled_fresh (hostCap : Nat) : (fresh hostCap : Catalog κ).Settled :=
  ⟨wellFormed_fresh hostCap, lockstep_fresh hostCap⟩

theorem Settled.keeps {catalog after : Catalog κ} (settled : catalog.Settled)
    (keeps : Keeps catalog after) (same : SamePlaces catalog after) :
    after.Settled :=
  ⟨keeps.wellFormed, settled.lockstep.same same⟩

/-- A change of the fields beside the columns and the manager. -/
theorem Settled.beside {catalog after : Catalog κ} (settled : catalog.Settled)
    (wellFormed : after.WellFormed) (columns : after.columns = catalog.columns)
    (manager : after.tierMgr = catalog.tierMgr) : after.Settled :=
  ⟨wellFormed, settled.lockstep.same (.of_eq columns manager)⟩

/-! ## The same data -/

structure SameData (left right : Catalog κ) : Prop where
  contents : ∀ id, left.contents id = right.contents id
  colTypes : left.colTypes = right.colTypes
  nullMasks : left.nullMasks = right.nullMasks
  stringDicts : left.stringDicts = right.stringDicts
  stringEncoders : left.stringEncoders = right.stringEncoders
  columnNames : left.columnNames = right.columnNames
  nameToId : left.nameToId = right.nameToId
  maxQueryGroups : left.maxQueryGroups = right.maxQueryGroups

/-- What the calls of an engine show of its data.  Maps that were filled in
different orders, or that record a default, are not told apart. -/
structure SameShown (left right : Catalog κ) : Prop where
  contents : ∀ id, left.contents id = right.contents id
  columnType : ∀ id, left.columnType id = right.columnType id
  nullMasks : ∀ id, left.nullMasks.lookup id = right.nullMasks.lookup id
  stringDicts : ∀ id, left.stringDicts.lookup id = right.stringDicts.lookup id
  stringEncoders : ∀ id,
    left.stringEncoders.lookup id = right.stringEncoders.lookup id
  columnId : ∀ name, left.columnId name = right.columnId name
  maxQueryGroups : left.maxQueryGroups = right.maxQueryGroups

structure Alike (left right : Catalog κ) : Prop where
  same : SameShown left right
  left : left.Settled
  right : right.Settled

theorem SameData.refl (catalog : Catalog κ) : SameData catalog catalog :=
  ⟨fun _ => rfl, rfl, rfl, rfl, rfl, rfl, rfl, rfl⟩

/-- Moving columns on one side changes nothing. -/
theorem SameData.moved {left right after : Catalog κ}
    (same : SameData left right) (keeps : Keeps right after) :
    SameData left after where
  contents id := (same.contents id).trans (keeps.contents id).symm
  colTypes := same.colTypes.trans keeps.colTypes.symm
  nullMasks := same.nullMasks.trans keeps.nullMasks.symm
  stringDicts := same.stringDicts.trans keeps.stringDicts.symm
  stringEncoders := same.stringEncoders.trans keeps.stringEncoders.symm
  columnNames := same.columnNames.trans keeps.columnNames.symm
  nameToId := same.nameToId.trans keeps.nameToId.symm
  maxQueryGroups := same.maxQueryGroups.trans keeps.maxQueryGroups.symm

theorem SameData.shown {left right : Catalog κ} (same : SameData left right) :
    SameShown left right where
  contents := same.contents
  columnType id := by
    rw [Catalog.columnType, same.colTypes]
    rfl
  nullMasks id := congrArg (AList.lookup id) same.nullMasks
  stringDicts id := congrArg (AList.lookup id) same.stringDicts
  stringEncoders id := congrArg (AList.lookup id) same.stringEncoders
  columnId name := by
    rw [Catalog.columnId, same.nameToId]
    rfl
  maxQueryGroups := same.maxQueryGroups

theorem SameShown.symm {left right : Catalog κ} (shown : SameShown left right) :
    SameShown right left :=
  ⟨fun id => (shown.contents id).symm, fun id => (shown.columnType id).symm,
    fun id => (shown.nullMasks id).symm, fun id => (shown.stringDicts id).symm,
    fun id => (shown.stringEncoders id).symm,
    fun name => (shown.columnId name).symm, shown.maxQueryGroups.symm⟩

theorem SameShown.trans {left middle right : Catalog κ}
    (first : SameShown left middle) (second : SameShown middle right) :
    SameShown left right :=
  ⟨fun id => (first.contents id).trans (second.contents id),
    fun id => (first.columnType id).trans (second.columnType id),
    fun id => (first.nullMasks id).trans (second.nullMasks id),
    fun id => (first.stringDicts id).trans (second.stringDicts id),
    fun id => (first.stringEncoders id).trans (second.stringEncoders id),
    fun name => (first.columnId name).trans (second.columnId name),
    first.maxQueryGroups.trans second.maxQueryGroups⟩

theorem Keeps.shown {before after : Catalog κ} (keeps : Keeps before after) :
    SameShown before after :=
  ((SameData.refl before).moved keeps).shown

theorem SameShown.moved {left right after : Catalog κ}
    (shown : SameShown left right) (keeps : Keeps right after) :
    SameShown left after := shown.trans keeps.shown

theorem Settled.alike {catalog : Catalog κ} (settled : catalog.Settled) :
    Alike catalog catalog :=
  ⟨(SameData.refl catalog).shown, settled, settled⟩

theorem Alike.symm {left right : Catalog κ} (alike : Alike left right) :
    Alike right left :=
  ⟨alike.same.symm, alike.right, alike.left⟩

namespace Alike

variable {left right : Catalog κ}

theorem columnType (alike : Alike left right) (id : UInt64) :
    left.columnType id = right.columnType id := alike.same.columnType id

theorem sizeBytes (alike : Alike left right) (id : UInt64) :
    left.sizeBytes id = right.sizeBytes id := by
  rw [sizeBytes_eq alike.left.wellFormed, sizeBytes_eq alike.right.wellFormed,
    alike.same.contents]

theorem columnRows (alike : Alike left right) (id : UInt64) :
    left.columnRows id = right.columnRows id := by
  rw [Catalog.columnRows, alike.sizeBytes, alike.columnType]
  rfl

theorem catalogHas (alike : Alike left right) (id : UInt64) :
    left.catalogHas id = right.catalogHas id := by
  rw [catalogHas_eq alike.left.wellFormed, catalogHas_eq alike.right.wellFormed,
    alike.same.contents]

theorem columnId (alike : Alike left right) (name : Bytes) :
    left.columnId name = right.columnId name := alike.same.columnId name

theorem stringEncode (alike : Alike left right) (id : UInt64)
    (value : Bytes) :
    left.stringEncode id value = right.stringEncode id value := by
  rw [Catalog.stringEncode, alike.same.stringEncoders]
  rfl

end Alike

/-- Both sides know the same ids. -/
theorem isSome_lookup_eq {catalog : Catalog κ}
    (wellFormed : catalog.WellFormed) (id : UInt64) :
    (catalog.columns.lookup id).isSome = (catalog.contents id).isSome := by
  cases found : catalog.columns.lookup id with
  | none => simp [contents, contentsOf, found]
  | some column =>
      obtain ⟨bytes, holds⟩ := wellFormed.held id column found
      rw [contents, contentsOf_eq found holds]
      rfl

/-! ## Loans -/

/-- What two reductions find when their columns are lent to them. -/
structure Sees (ids : List UInt64) (one two : Catalog κ) : Prop where
  hostBytes : ∀ id ∈ ids, one.hostBytes id = two.hostBytes id
  sizeBytes : ∀ id, one.sizeBytes id = two.sizeBytes id
  columnType : ∀ id, one.columnType id = two.columnType id
  nullMasks : ∀ id, one.nullMasks.lookup id = two.nullMasks.lookup id

namespace Sees

variable {ids : List UInt64} {one two : Catalog κ}

theorem valueNulls (sees : Sees ids one two) (id : UInt64) (n : Nat) :
    one.valueNulls id n = two.valueNulls id n := by
  rw [Catalog.valueNulls, sees.nullMasks]
  rfl

end Sees

theorem Alike.sees {left right one two : Catalog κ} {ids : List UInt64}
    (alike : Alike left right) (lent : Lent left ids one)
    (lent' : Lent right ids two) : Sees ids one two where
  hostBytes id member := by
    rw [lent.hostBytes id member, lent'.hostBytes id member,
      alike.same.contents]
  sizeBytes id := by
    rw [lent.keeps.sizeBytes alike.left.wellFormed,
      lent'.keeps.sizeBytes alike.right.wellFormed, alike.sizeBytes]
  columnType id := by
    rw [← lent.keeps.shown.columnType, ← lent'.keeps.shown.columnType,
      alike.same.columnType]
  nullMasks id := by
    rw [lent.keeps.nullMasks, lent'.keeps.nullMasks, alike.same.nullMasks]

/-- A call that reduces columns lent to it.  It aborts where one of them does
not exist, and otherwise the reduction decides. -/
structure Loan {A : Type} (catalog : Catalog κ) (ids : List UInt64)
    (call : (Catalog κ → Option A) → Option (A × Catalog κ)) : Prop where
  refused : ∀ id ∈ ids, catalog.contents id = none →
    ∀ reduce, call reduce = none
  granted : (∀ id ∈ ids, (catalog.contents id).isSome) →
    ∃ lent after, Lent catalog ids lent ∧ Keeps catalog after ∧
      after.Settled ∧
      ∀ reduce, call reduce = (reduce lent).map fun result => (result, after)

/-- Whatever the reduction does, the engine is settled afterwards. -/
theorem Loan.settles {A : Type} {catalog : Catalog κ} {ids : List UInt64}
    {call : (Catalog κ → Option A) → Option (A × Catalog κ)}
    (loan : Loan catalog ids call) (reduce : Catalog κ → Option A) :
    Ensures Settled (call reduce) := by
  by_cases registered : ∀ id ∈ ids, (catalog.contents id).isSome
  · obtain ⟨lent, after, _, _, settled, ran⟩ := loan.granted registered
    rw [ran]
    cases reduce lent with
    | none => exact .none
    | some result => exact .pure settled
  · simp only [not_forall, Option.not_isSome_iff_eq_none] at registered
    obtain ⟨id, member, absent⟩ := registered
    rw [loan.refused id member absent]
    exact .none

/-- Alike engines that still have the data of some earlier state. -/
structure Kept (data one two : Catalog κ) : Prop extends Alike one two where
  data : SameData data one

theorem Kept.shown {data one two : Catalog κ} (kept : Kept data one two) :
    SameShown data two := kept.data.shown.trans kept.same

theorem Settled.kept {catalog : Catalog κ} (settled : catalog.Settled) :
    Kept catalog catalog catalog :=
  ⟨settled.alike, .refl catalog⟩

theorem Kept.moved {data left right left' right' : Catalog κ}
    (kept : Kept data left right) (keeps : Keeps left left')
    (keeps' : Keeps right right') (settled : left'.Settled)
    (settled' : right'.Settled) : Kept data left' right' where
  same := ((kept.same.moved keeps').symm.moved keeps).symm
  left := settled
  right := settled'
  data := kept.data.moved keeps

theorem Kept.further {data left right after : Catalog κ}
    (kept : Kept data left right) (keeps : Keeps right after)
    (settled : after.Settled) : Kept data left after :=
  kept.moved (.refl kept.left.wellFormed) keeps kept.left settled

/-- Two loans of the same columns show the same. -/
theorem Kept.loan {A : Type} {data left right : Catalog κ} {ids : List UInt64}
    {call call' : (Catalog κ → Option A) → Option (A × Catalog κ)}
    (kept : Kept data left right) (loan : Loan left ids call)
    (loan' : Loan right ids call') {reduce reduce' : Catalog κ → Option A}
    (agree : ∀ one two, Sees ids one two → reduce one = reduce' two) :
    Twin (Kept data) (call reduce) (call' reduce') := by
  by_cases registered : ∀ id ∈ ids, (left.contents id).isSome
  · obtain ⟨one, after, lent, keeps, settled, ran⟩ := loan.granted registered
    obtain ⟨two, after', lent', keeps', settled', ran'⟩ :=
      loan'.granted fun id member => by
        rw [← kept.same.contents]
        exact registered id member
    rw [ran, ran', agree one two (kept.sees lent lent')]
    cases reduce' two with
    | none => exact Twin.none
    | some result =>
        exact .pure (kept.moved keeps keeps' settled settled')
  · simp only [not_forall, Option.not_isSome_iff_eq_none] at registered
    obtain ⟨id, member, absent⟩ := registered
    rw [loan.refused id member absent, loan'.refused id member (by
      rw [← kept.same.contents]
      exact absent)]
    exact Twin.none

theorem registered_of_borrow {catalog lent : Catalog κ}
    (wellFormed : catalog.WellFormed) {id : UInt64} {home : MemorySpace}
    (borrowed : catalog.borrow id = some (home, lent)) :
    (catalog.contents id).isSome := by
  obtain ⟨column, found, _⟩ := Option.bind_eq_some_iff.mp borrowed
  rw [← isSome_lookup_eq wellFormed, found]
  rfl

theorem loan_withLoan {A : Type} {catalog : Catalog κ}
    (settled : catalog.Settled) (id : UInt64) :
    Loan (A := A) catalog [id] (catalog.withLoan id) := by
  have wellFormed := settled.wellFormed
  constructor
  · intro other member absent reduce
    cases List.mem_singleton.mp member
    cases borrowed : catalog.borrow id with
    | none => simp [withLoan, borrowed]
    | some found =>
        have registered := registered_of_borrow wellFormed borrowed
        rw [absent] at registered
        cases registered
  · intro registered
    have here := registered id List.mem_cons_self
    obtain ⟨home, lent, borrowed, reachable, keeps, inHost, _⟩ :=
      borrow_eq wellFormed here
    obtain ⟨after, gave, last⟩ := giveBack_eq keeps.wellFormed
      (by rw [keeps.contents]; exact here : (lent.contents id).isSome)
      reachable
    refine ⟨lent, after, ⟨keeps, ?_⟩, keeps.trans last, settled.keeps
      (keeps.trans last) (samePlaces_loan borrowed (.refl lent) gave), ?_⟩
    · intro other member
      cases List.mem_singleton.mp member
      rw [hostBytes_eq keeps.wellFormed inHost, keeps.contents]
    · intro reduce
      simp only [withLoan, borrowed, Option.bind_eq_bind, Option.bind_some]
      cases reduce lent with
      | none => rfl
      | some result => simp [gave]

theorem registered_of_borrowAll {ids : List UInt64} {catalog borrowed :
    Catalog κ} {homes : List (UInt64 × MemorySpace)}
    (wellFormed : catalog.WellFormed)
    (took : borrowAll ids catalog = some (homes, borrowed)) :
    ∀ id ∈ ids, (catalog.contents id).isSome := by
  induction ids generalizing catalog homes with
  | nil => simp
  | cons id ids induction =>
      obtain ⟨⟨home, first⟩, one, took⟩ := Option.bind_eq_some_iff.mp took
      obtain ⟨⟨others, last⟩, more, took⟩ := Option.bind_eq_some_iff.mp took
      cases took
      have recorded := keeps_recordAccess wellFormed id
      have here := registered_of_borrow recorded.wellFormed one
      obtain ⟨_, _, same, _, keeps, _⟩ := borrow_eq recorded.wellFormed here
      cases one.symm.trans same
      have sofar := recorded.trans keeps
      intro other member
      rcases List.mem_cons.mp member with rfl | later
      · exact here
      · rw [← sofar.contents]
        exact induction sofar.wellFormed more other later

theorem loan_withBorrowed {A : Type} {catalog : Catalog κ}
    (settled : catalog.Settled) (ids : List UInt64) :
    Loan (A := A) catalog ids (catalog.withBorrowed ids) := by
  have wellFormed := settled.wellFormed
  constructor
  · intro other member absent reduce
    cases borrowed : borrowAll ids catalog with
    | none => simp [withBorrowed, borrowed]
    | some found =>
        have registered :=
          registered_of_borrowAll wellFormed borrowed other member
        rw [absent] at registered
        cases registered
  · intro registered
    obtain ⟨homes, lent, took, back, keeps, inHost, _⟩ :=
      borrowAll_eq ids wellFormed registered
    obtain ⟨after, gave, last⟩ := giveBackAll_eq homes keeps.wellFormed (by
      intro entry member
      obtain ⟨within, reachable⟩ := back entry member
      rw [keeps.contents]
      exact ⟨registered entry.1 within, reachable⟩)
    refine ⟨lent, after, ⟨keeps, ?_⟩, keeps.trans last, settled.keeps
      (keeps.trans last) (samePlaces_borrowAll took gave), ?_⟩
    · intro id member
      rw [hostBytes_eq keeps.wellFormed (inHost id member), keeps.contents]
    · intro reduce
      simp only [withBorrowed, took, Option.bind_eq_bind, Option.bind_some]
      cases reduce lent with
      | none => rfl
      | some result => simp [gave]

theorem loan_scanBorrowed [SoundCost κ] {A : Type} {catalog : Catalog κ}
    (settled : catalog.Settled) (ids : List UInt64) :
    Loan (A := A) catalog ids (catalog.scanBorrowed ids) := by
  have borrows := loan_withBorrowed (A := A) settled ids
  constructor
  · intro other member absent reduce
    rw [scanBorrowed, borrows.refused other member absent]
    rfl
  · intro registered
    obtain ⟨lent, back, shown, keeps, settled, ran⟩ :=
      borrows.granted registered
    obtain ⟨after, rebalanced, last⟩ := maybeRebalance_eq keeps.wellFormed
    refine ⟨lent, after, shown, keeps.trans last,
      ⟨last.wellFormed, settled.lockstep.maybeRebalance rebalanced⟩, ?_⟩
    intro reduce
    rw [scanBorrowed, ran]
    cases reduce lent with
    | none => rfl
    | some result => simp [rebalanced]

namespace Kept

variable {data left right : Catalog κ}

theorem withLoan {A : Type} (kept : Kept data left right) (id : UInt64)
    {reduce reduce' : Catalog κ → Option A}
    (agree : ∀ one two, Sees [id] one two → reduce one = reduce' two) :
    Twin (Kept data) (left.withLoan id reduce) (right.withLoan id reduce') :=
  kept.loan (loan_withLoan kept.left id) (loan_withLoan kept.right id) agree

theorem withBorrowed {A : Type} (kept : Kept data left right)
    (ids : List UInt64) {reduce reduce' : Catalog κ → Option A}
    (agree : ∀ one two, Sees ids one two → reduce one = reduce' two) :
    Twin (Kept data) (left.withBorrowed ids reduce)
      (right.withBorrowed ids reduce') :=
  kept.loan (loan_withBorrowed kept.left ids)
    (loan_withBorrowed kept.right ids) agree

theorem scanBorrowed [SoundCost κ] {A : Type} (kept : Kept data left right)
    (ids : List UInt64) {reduce reduce' : Catalog κ → Option A}
    (agree : ∀ one two, Sees ids one two → reduce one = reduce' two) :
    Twin (Kept data) (left.scanBorrowed ids reduce)
      (right.scanBorrowed ids reduce') :=
  kept.loan (loan_scanBorrowed kept.left ids)
    (loan_scanBorrowed kept.right ids) agree

/-! ## Joins, gathers and grouped aggregates -/

theorem joinable (kept : Kept data left right) (ty : MatrixType)
    (one two : UInt64) :
    left.joinable ty one two = right.joinable ty one two := by
  simp only [Catalog.joinable, kept.catalogHas, kept.columnType]

theorem hashJoin (kept : Kept data left right) (leftKeyId rightKeyId : UInt64) :
    Twin (Kept data) (left.hashJoin leftKeyId rightKeyId)
      (right.hashJoin leftKeyId rightKeyId) := by
  apply Twin.ite (by rw [kept.joinable])
  · intro _
    apply kept.withBorrowed
    intro one two sees
    simp only [sees.sizeBytes, sees.hostBytes leftKeyId (by simp),
      sees.hostBytes rightKeyId (by simp)]
  · intro _
    exact Twin.none

theorem hashJoinCount (kept : Kept data left right)
    (leftKeyId rightKeyId : UInt64) :
    Twin (Kept data) (left.hashJoinCount leftKeyId rightKeyId)
      (right.hashJoinCount leftKeyId rightKeyId) := by
  apply Twin.ite (by rw [kept.joinable])
  · intro _
    apply kept.withBorrowed
    intro one two sees
    simp only [sees.sizeBytes, sees.hostBytes leftKeyId (by simp),
      sees.hostBytes rightKeyId (by simp)]
  · intro _
    exact Twin.none

theorem hashJoinI64 (kept : Kept data left right)
    (leftKeyId rightKeyId : UInt64) :
    Twin (Kept data) (left.hashJoinI64 leftKeyId rightKeyId)
      (right.hashJoinI64 leftKeyId rightKeyId) := by
  apply Twin.ite (by rw [kept.joinable])
  · intro _
    apply kept.withBorrowed
    intro one two sees
    simp only [sees.sizeBytes, sees.hostBytes leftKeyId (by simp),
      sees.hostBytes rightKeyId (by simp)]
  · intro _
    exact Twin.none

theorem gather (kept : Kept data left right) (id : UInt64)
    (rows : List UInt64) :
    Twin (Kept data) (left.gather id rows) (right.gather id rows) := by
  apply Twin.ite (by rw [kept.catalogHas])
  · intro _
    apply kept.withLoan
    intro one two sees
    simp only [sees.sizeBytes, sees.columnType, sees.hostBytes id (by simp)]
  · intro _
    exact Twin.none

theorem matchingRows (kept : Kept data left right) (filterCol : UInt64)
    (pred : MatrixPredicate) (limit : UInt64) :
    Twin (Kept data) (left.matchingRows filterCol pred limit)
      (right.matchingRows filterCol pred limit) := by
  apply kept.withBorrowed
  intro one two sees
  simp only [sees.sizeBytes, sees.hostBytes filterCol (by simp)]

theorem project (kept : Kept data left right) (id : UInt64) (hasFilter : Bool)
    (filterCol : UInt64) (pred : MatrixPredicate) (limit : UInt64) :
    Twin (Kept data) (left.project id hasFilter filterCol pred limit)
      (right.project id hasFilter filterCol pred limit) := by
  apply Twin.ite Iff.rfl
  · intro _
    refine .bind (kept.matchingRows filterCol pred limit) ?_
    intro rows one two kept
    exact kept.gather id rows
  · intro _
    apply Twin.ite (by
      rw [isSome_lookup_eq kept.left.wellFormed,
        isSome_lookup_eq kept.right.wellFormed, kept.same.contents])
    · intro _
      rw [kept.columnRows]
      exact kept.gather id _
    · intro _
      exact Twin.none

theorem groupedAggregate (kept : Kept data left right) (q : MatrixQuery) :
    Twin (Kept data) (left.groupedAggregate q) (right.groupedAggregate q) := by
  apply Twin.ite Iff.rfl
  · intro _
    exact Twin.none
  · intro _
    apply Twin.ite (by rw [kept.sizeBytes, kept.sizeBytes])
    · intro _
      exact Twin.none
    · intro _
      apply kept.withBorrowed
      intro one two sees
      simp only [sees.sizeBytes, sees.valueNulls,
        sees.hostBytes q.keyCol (by simp),
        sees.hostBytes q.valueCol (by simp)]

theorem groupedAggregateWide (kept : Kept data left right) (ty : MatrixType)
    (q : MatrixQuery) :
    Twin (Kept data) (left.groupedAggregateWide ty q)
      (right.groupedAggregateWide ty q) := by
  apply kept.withBorrowed
  intro one two sees
  simp only [sees.sizeBytes, sees.valueNulls,
    sees.hostBytes q.keyCol (by simp), sees.hostBytes q.valueCol (by simp)]

theorem saveColumn (kept : Kept data left right) (id : UInt64) :
    Twin (Kept data) (left.saveColumn id) (right.saveColumn id) := by
  apply kept.withLoan
  intro one two sees
  simp only [sees.columnType, sees.hostBytes id (by simp)]

/-! ## Parsing -/

theorem deriveNumGroupsU32 (kept : Kept data left right) (kid : UInt64) :
    Twin (Kept data) (left.deriveNumGroupsU32 kid)
      (right.deriveNumGroupsU32 kid) := by
  apply kept.withLoan
  intro one two sees
  simp only [sees.sizeBytes, sees.hostBytes kid (by simp)]

theorem parseSelect (kept : Kept data left right) (tokens : List Bytes) :
    left.parseSelect tokens = right.parseSelect tokens := by
  simp only [Catalog.parseSelect, kept.columnId]

theorem parseDictFilter (kept : Kept data left right) (pcol : UInt64)
    (dict : List Bytes) (ops : Bytes) (q : MatrixQuery)
    (tokens : List Bytes) :
    left.parseDictFilter pcol dict ops q tokens =
      right.parseDictFilter pcol dict ops q tokens := by
  simp only [Catalog.parseDictFilter, kept.stringEncode]

theorem parseWhere (kept : Kept data left right)
    (strtod : Bytes → StrtodResult) (q : MatrixQuery) (tokens : List Bytes) :
    left.parseWhere strtod q tokens = right.parseWhere strtod q tokens := by
  have ids : left.columnId = right.columnId := funext kept.columnId
  have types : left.columnType = right.columnType := funext kept.columnType
  unfold Catalog.parseWhere
  rw [ids, types]
  simp only [kept.same.stringDicts, kept.parseDictFilter]

theorem parseHead (kept : Kept data left right) (strtod : Bytes → StrtodResult)
    (sql : Bytes) :
    left.parseHead strtod sql = right.parseHead strtod sql := by
  simp only [Catalog.parseHead, kept.parseSelect, kept.parseWhere]

theorem parseTail (kept : Kept data left right) (aggs : Bytes)
    (parsed : MatrixQuery × List Bytes) :
    left.parseTail aggs parsed = right.parseTail aggs parsed := by
  simp only [Catalog.parseTail, Catalog.parseOrder, kept.columnId]

theorem parseKey (kept : Kept data left right) (tokens : List Bytes) :
    left.parseKey tokens = right.parseKey tokens := by
  simp only [Catalog.parseKey, kept.columnId, kept.columnType]

theorem parseGroup (kept : Kept data left right) (q : MatrixQuery)
    (tokens : List Bytes) :
    Twin (Kept data) (left.parseGroup q tokens) (right.parseGroup q tokens) := by
  apply Twin.ite Iff.rfl
  · intro _
    rw [kept.parseKey]
    split
    · exact .pure kept
    · refine .map (kept.deriveNumGroupsU32 _) ?_
      intro groups one two kept
      exact ⟨rfl, kept⟩
  · intro _
    exact .pure kept

theorem parseQueryImpl (kept : Kept data left right)
    (strtod : Bytes → StrtodResult) (sql : Bytes) :
    Twin (Kept data) (left.parseQueryImpl strtod sql)
      (right.parseQueryImpl strtod sql) := by
  unfold Catalog.parseQueryImpl
  rw [kept.parseHead]
  split
  · exact .pure kept
  · rename_i aggs q tokens _
    refine .map (kept.parseGroup q tokens) ?_
    intro grouped one two kept
    have same : one.parseTail aggs = two.parseTail aggs :=
      funext (kept.parseTail aggs)
    exact ⟨congrArg grouped.bind same, kept⟩

/-- A status comes with a second result: the same on both sides. -/
def Beside {A : Type} (data : Catalog κ) (one two : A × Catalog κ) : Prop :=
  one.1 = two.1 ∧ Kept data one.2 two.2

theorem parseQuery (kept : Kept data left right)
    (strtod : Bytes → StrtodResult) (sql : Bytes) :
    Twin (Beside data) (left.parseQuery strtod sql)
      (right.parseQuery strtod sql) := by
  refine .map (kept.parseQueryImpl strtod sql) ?_
  intro parsed one two kept
  cases parsed with
  | ok q => exact ⟨rfl, rfl, kept⟩
  | error status => exact ⟨rfl, rfl, kept⟩

/-! ## Queries -/

theorem recordQueryLatency (kept : Kept data left right) (ns ns' : UInt64) :
    Kept data (left.recordQueryLatency ns)
      (right.recordQueryLatency ns') := by
  have keeps := keeps_recordQueryLatency kept.left.wellFormed ns
  have keeps' := keeps_recordQueryLatency kept.right.wellFormed ns'
  exact kept.moved keeps keeps'
    (kept.left.beside keeps.wellFormed rfl rfl)
    (kept.right.beside keeps'.wellFormed rfl rfl)

theorem route (kept : Kept data left right) (q : MatrixQuery) :
    left.route q = right.route q := by
  simp only [Catalog.route, routeScalarCross, routeGroupedCross,
    routeGroupedWide, routeGroupedU32, kept.catalogHas, kept.columnType,
    kept.columnRows, kept.sizeBytes, kept.same.nullMasks,
    kept.same.maxQueryGroups]

theorem single {answer answer' : Option (UInt64 × Catalog κ)}
    (twin : Twin (Kept data) answer answer') :
    Twin (Kept data) (answer.map Catalog.single) (answer'.map Catalog.single) := by
  refine .map twin ?_
  intro result one two kept
  exact ⟨rfl, kept⟩

section
variable [SoundCost κ]

theorem scanTyped (kept : Kept data left right) (ty : MatrixType)
    (q : MatrixQuery) :
    Twin (Kept data) (scanTyped ty left q) (scanTyped ty right q) := by
  apply kept.scanBorrowed
  intro one two sees
  simp only [sees.sizeBytes, sees.hostBytes q.valueCol (by simp)]

theorem scalarAggregateNullable (kept : Kept data left right)
    (q : MatrixQuery) :
    Twin (Kept data) (left.scalarAggregateNullable q)
      (right.scalarAggregateNullable q) := by
  apply kept.scanBorrowed
  intro one two sees
  simp only [sees.sizeBytes, sees.columnType, sees.nullMasks,
    sees.hostBytes q.valueCol (by simp)]

theorem scalarCrossFilter (kept : Kept data left right) (q : MatrixQuery) :
    Twin (Kept data) (left.scalarCrossFilter q) (right.scalarCrossFilter q) := by
  apply kept.scanBorrowed
  intro one two sees
  simp only [sees.sizeBytes, sees.columnType,
    sees.hostBytes q.filterCol (by simp), sees.hostBytes q.valueCol (by simp)]

theorem groupedCrossFilter (kept : Kept data left right) (q : MatrixQuery) :
    Twin (Kept data) (left.groupedCrossFilter q) (right.groupedCrossFilter q) := by
  apply kept.scanBorrowed
  intro one two sees
  simp only [sees.sizeBytes, sees.columnType,
    sees.hostBytes q.keyCol (by simp), sees.hostBytes q.filterCol (by simp),
    sees.hostBytes q.valueCol (by simp)]

theorem countDistinct (kept : Kept data left right) (id : UInt64) :
    Twin (Kept data) (left.countDistinct id) (right.countDistinct id) := by
  apply kept.scanBorrowed
  intro one two sees
  simp only [sees.sizeBytes, sees.columnType, sees.valueNulls,
    sees.hostBytes id (by simp)]

theorem follow (kept : Kept data left right) (q : MatrixQuery) (taken : Route) :
    Twin (Kept data) (left.follow q taken) (right.follow q taken) := by
  cases taken with
  | scalarCross => exact single (kept.scalarCrossFilter q)
  | groupedCross => exact kept.groupedCrossFilter q
  | nullable => exact single (kept.scalarAggregateNullable q)
  | grouped =>
      simp only [Catalog.follow, kept.columnType]
      split
      · exact kept.groupedAggregateWide .I64 q
      · exact kept.groupedAggregateWide .F64 q
      · exact kept.groupedAggregate q
  | scan =>
      simp only [Catalog.follow, kept.columnType]
      split
      · exact single (kept.scanTyped .I64 q)
      · exact single (kept.scanTyped .F64 q)
      · exact single (kept.scanTyped .U32 q)

theorem executeQuery (kept : Kept data left right) (ns ns' : UInt64)
    (q : MatrixQuery) :
    Twin (Beside data) (left.executeQuery ns q) (right.executeQuery ns' q) := by
  have impl : Twin (Beside data) (left.executeQueryImpl q)
      (right.executeQueryImpl q) := by
    unfold executeQueryImpl
    rw [kept.route]
    split
    · exact .pure ⟨rfl, kept⟩
    · refine .map (kept.follow q _) ?_
      intro out one two kept
      exact ⟨rfl, rfl, kept⟩
  refine .map impl ?_
  intro status one two answered
  exact ⟨rfl, answered.1, answered.2.recordQueryLatency ns ns'⟩

/-! ## Query strings -/

theorem groupsOf (kept : Kept data left right) (ns ns' : UInt64)
    (q : MatrixQuery) :
    Twin (Kept data) (left.groupsOf ns q) (right.groupsOf ns' q) := by
  apply Twin.ite Iff.rfl
  · intro _
    refine .map (kept.executeQuery ns ns' q) ?_
    rintro status ⟨out, one⟩ ⟨_, two⟩ ⟨rfl, kept⟩
    exact ⟨rfl, kept⟩
  · intro _
    exact .pure kept

theorem topGroups (kept : Kept data left right) (ns ns' : UInt64)
    (q : MatrixQuery) (k : Nat) :
    Twin (Kept data) (left.topGroups ns q k) (right.topGroups ns' q k) := by
  refine .map (kept.groupsOf ns ns' q) ?_
  intro pairs one two kept
  exact ⟨rfl, kept⟩

theorem having (kept : Kept data left right) (ns ns' : UInt64)
    (q : MatrixQuery) (cmp : MatrixCmp) (threshold upper : UInt64) :
    Twin (Kept data) (left.having ns q cmp threshold upper)
      (right.having ns' q cmp threshold upper) := by
  refine .map (kept.groupsOf ns ns' q) ?_
  intro pairs one two kept
  exact ⟨rfl, kept⟩

theorem average (kept : Kept data left right) (ns ns' : Nat → UInt64)
    (q : MatrixQuery) :
    Twin (Kept data) (left.average ns q) (right.average ns' q) := by
  refine .bind (kept.executeQuery (ns 0) (ns' 0) _) ?_
  rintro status ⟨sv, one⟩ ⟨_, two⟩ ⟨rfl, kept⟩
  apply Twin.ite Iff.rfl
  · intro _
    refine .bind (kept.executeQuery (ns 1) (ns' 1) _) ?_
    rintro status ⟨cv, one⟩ ⟨_, two⟩ ⟨rfl, kept⟩
    apply Twin.ite Iff.rfl
    · intro _
      simp only [kept.columnType]
      exact .pure kept
    · intro _
      exact .pure kept
  · intro _
    exact .pure kept

section
variable (strtod : Bytes → StrtodResult)

theorem avgQuery (kept : Kept data left right) (ns ns' : Nat → UInt64)
    (sql : Bytes) :
    Twin (Kept data) (left.avgQuery strtod ns sql)
      (right.avgQuery strtod ns' sql) := by
  unfold Catalog.avgQuery
  split
  · apply Twin.ite Iff.rfl
    · intro _
      refine .bind (kept.parseQuery strtod _) ?_
      rintro status ⟨q, one⟩ ⟨_, two⟩ ⟨rfl, kept⟩
      apply Twin.ite Iff.rfl
      · intro _
        exact kept.average ns ns' q
      · intro _
        exact .pure kept
    · intro _
      exact .pure kept
  · exact .pure kept

theorem queryTerms (ns ns' : Nat → UInt64) (rest : Bytes)
    (terms : List Bytes) (results : List (List UInt64))
    (kept : Kept data left right) :
    Twin (Kept data) (Catalog.queryTerms strtod ns rest terms results left)
      (Catalog.queryTerms strtod ns' rest terms results right) := by
  induction terms generalizing results left right with
  | nil => exact .pure kept
  | cons term terms induction =>
      refine .bind (kept.parseQuery strtod _) ?_
      rintro status ⟨q, one⟩ ⟨_, two⟩ ⟨rfl, kept⟩
      apply Twin.ite Iff.rfl
      · intro _
        refine .bind (kept.executeQuery _ _ q) ?_
        rintro status ⟨r, one⟩ ⟨_, two⟩ ⟨rfl, kept⟩
        apply Twin.ite Iff.rfl
        · intro _
          exact induction _ kept
        · intro _
          exact .pure kept
      · intro _
        exact .pure kept

theorem queryMulti (kept : Kept data left right) (ns ns' : Nat → UInt64)
    (sql : Bytes) :
    Twin (Kept data) (left.queryMulti strtod ns sql)
      (right.queryMulti strtod ns' sql) := by
  unfold Catalog.queryMulti
  split
  · exact .pure kept
  · exact queryTerms strtod ns ns' _ _ [] kept

theorem topQuery (kept : Kept data left right) (ns ns' : UInt64)
    (sql : Bytes) :
    Twin (Kept data) (left.topQuery strtod ns sql)
      (right.topQuery strtod ns' sql) := by
  refine .bind (kept.parseQuery strtod sql) ?_
  rintro status ⟨q, one⟩ ⟨_, two⟩ ⟨rfl, kept⟩
  apply Twin.ite Iff.rfl
  · intro _
    exact kept.topGroups ns ns' q _
  · intro _
    exact .pure kept

theorem havingQuery (kept : Kept data left right) (ns ns' : UInt64)
    (sql : Bytes) :
    Twin (Kept data) (left.havingQuery strtod ns sql)
      (right.havingQuery strtod ns' sql) := by
  unfold Catalog.havingQuery
  simp only
  split
  · refine .bind (kept.parseQuery strtod _) ?_
    rintro status ⟨q, one⟩ ⟨_, two⟩ ⟨rfl, kept⟩
    apply Twin.ite (by rw [kept.columnId])
    · intro _
      simp only
      split
      · exact kept.having ns ns' q _ _ 0
      · exact .pure kept
    · intro _
      exact .pure kept
  · exact .pure kept

end

theorem distinctQuery (kept : Kept data left right) (sql : Bytes) :
    Twin (Kept data) (left.distinctQuery sql) (right.distinctQuery sql) := by
  unfold Catalog.distinctQuery
  split
  · apply Twin.ite Iff.rfl
    · intro _
      simp only [kept.columnId]
      apply Twin.ite Iff.rfl
      · intro _
        exact .pure kept
      · intro _
        refine .map (kept.countDistinct _) ?_
        intro result one two kept
        exact ⟨rfl, kept⟩
    · intro _
      exact .pure kept
  · exact .pure kept

end

theorem projectFiltered (kept : Kept data left right)
    (strtod : Bytes → StrtodResult) (colId : UInt64) (fcol : Bytes)
    (region : List Bytes) (limit : UInt64) :
    Twin (Kept data) (left.projectFiltered strtod colId fcol region limit)
      (right.projectFiltered strtod colId fcol region limit) := by
  unfold Catalog.projectFiltered
  simp only [kept.columnId, kept.columnType]
  apply Twin.ite Iff.rfl
  · intro _
    exact .pure kept
  · intro _
    refine .bind (kept.parseQuery strtod _) ?_
    rintro status ⟨q, one⟩ ⟨_, two⟩ ⟨rfl, kept⟩
    apply Twin.ite (by rw [kept.columnRows, kept.columnRows])
    · intro _
      exact kept.project _ _ _ _ _
    · intro _
      exact .pure kept

theorem projectQuery (kept : Kept data left right)
    (strtod : Bytes → StrtodResult) (sql : Bytes) :
    Twin (Kept data) (left.projectQuery strtod sql)
      (right.projectQuery strtod sql) := by
  unfold Catalog.projectQuery
  split
  · simp only [kept.columnId]
    apply Twin.ite Iff.rfl
    · intro _
      exact .pure kept
    · intro _
      split
      · exact .pure kept
      · exact kept.project _ _ _ _ _
      · split
        · apply Twin.ite Iff.rfl
          · intro _
            exact kept.projectFiltered strtod _ _ _ _
          · intro _
            exact .pure kept
        · exact .pure kept
  · exact .pure kept

end Kept

end Catalog

end MatrixDB
