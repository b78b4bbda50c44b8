import MatrixDB.Catalog.Transparency

/-!
# Parsing where names resolve alike

The parser looks up no name but the tokens it is given and, behind the last of
them, the empty one.  Two engines that hold the same columns and agree on
those names parse the query alike, whatever other names they know.
-/

namespace MatrixDB

open Lib

variable {κ : Type}

namespace Catalog

/-- The names a parser may still look up are resolved alike. -/
def Agree (left right : Catalog κ) (tokens : List Bytes) : Prop :=
  ∀ name ∈ [] :: tokens, left.columnId name = right.columnId name

namespace Agree

variable {left right : Catalog κ} {tokens : List Bytes}

theorem next (agree : Agree left right tokens) :
    left.columnId (next tokens).1 = right.columnId (next tokens).1 := by
  cases tokens with
  | nil => exact agree [] List.mem_cons_self
  | cons token rest =>
      exact agree token (List.mem_cons_of_mem [] List.mem_cons_self)

theorem rest (agree : Agree left right tokens) :
    Agree left right (MatrixDB.next tokens).2 := by
  cases tokens with
  | nil => exact agree
  | cons token rest =>
      intro name member
      apply agree name
      rcases List.mem_cons.mp member with rfl | later
      · exact List.mem_cons_self
      · exact List.mem_cons_of_mem [] (List.mem_cons_of_mem token later)

theorem expect (agree : Agree left right tokens) (word : String) :
    SameThen (Agree left right) (expect word tokens)
      (MatrixDB.expect word tokens) :=
  .ite Iff.rfl (fun _ => .ok agree.rest) fun _ => .error _

theorem expectParen (agree : Agree left right tokens) (paren : String) :
    SameThen (Agree left right) (expectParen paren tokens)
      (MatrixDB.expectParen paren tokens) :=
  .ite Iff.rfl (fun _ => .ok agree.rest) fun _ => .error _

theorem parseNumericFilter (agree : Agree left right tokens)
    (strtod : Bytes → StrtodResult) (ty : MatrixType) (ops : Bytes)
    (q : MatrixQuery) :
    SameThen (fun parsed : MatrixQuery × List Bytes =>
        Agree left right parsed.2)
      (parseNumericFilter strtod ty ops q tokens)
      (MatrixDB.parseNumericFilter strtod ty ops q tokens) := by
  apply SameThen.ite Iff.rfl
  · intro _
    refine .bind (.of_same _) ?_
    intro q _
    refine .bind (agree.rest.expect "AND") ?_
    intro tokens agree
    refine .bind (.of_same _) ?_
    intro q _
    exact .ok agree.rest
  · intro _
    cases cmpOf ops with
    | none => exact .error _
    | some cmp =>
        refine .bind (.of_same _) ?_
        intro q _
        exact .ok agree.rest

theorem parseSelect (agree : Agree left right tokens) :
    SameThen (fun parsed : Bytes × MatrixQuery × List Bytes =>
        Agree left right parsed.2.2)
      (left.parseSelect tokens) (right.parseSelect tokens) := by
  refine .bind (agree.expect "SELECT") ?_
  intro tokens agree
  refine .bind (.of_same _) ?_
  intro agg _
  refine .bind (agree.rest.expectParen "(") ?_
  intro tokens agree
  refine .bind (agree.rest.expectParen ")") ?_
  intro rest behind
  rw [agree.next]
  exact .ite Iff.rfl (fun _ => .error _) fun _ => .ok behind

theorem parseTail (agree : Agree left right tokens) (aggs : Bytes)
    (q : MatrixQuery) :
    left.parseTail aggs (q, tokens) = right.parseTail aggs (q, tokens) := by
  have order : SameThen (fun _ => True) (left.parseOrder aggs q tokens)
      (right.parseOrder aggs q tokens) := by
    apply SameThen.ite Iff.rfl
    · intro _
      refine .bind (agree.rest.expect "BY") ?_
      intro tokens agree
      simp only [agree.next]
      exact .of_same _
    · intro _
      exact .ok trivial
  rw [Catalog.parseTail, order.1]
  rfl

end Agree

/-- The same columns and dictionaries, under whatever names. -/
structure HoldAlike (left right : Catalog κ) : Prop where
  leftSettled : left.Settled
  rightSettled : right.Settled
  contents : ∀ id, left.contents id = right.contents id
  columnType : ∀ id, left.columnType id = right.columnType id
  stringDicts : ∀ id, left.stringDicts.lookup id = right.stringDicts.lookup id
  stringEncode : ∀ id value,
    left.stringEncode id value = right.stringEncode id value

namespace HoldAlike

variable {left right : Catalog κ} {tokens : List Bytes}

theorem parseDictFilter (alike : HoldAlike left right)
    (agree : Agree left right tokens) (pcol : UInt64) (dict : List Bytes)
    (ops : Bytes) (q : MatrixQuery) :
    SameThen (fun parsed => Agree left right parsed.2)
      (left.parseDictFilter pcol dict ops q tokens)
      (right.parseDictFilter pcol dict ops q tokens) := by
  apply SameThen.ite Iff.rfl
  · intro _
    refine .bind (agree.rest.expect "AND") ?_
    intro tokens agree
    exact .ok agree.rest
  · intro _
    apply SameThen.ite Iff.rfl
    · intro _
      apply SameThen.ite Iff.rfl
      · intro _
        exact .error _
      · intro _
        rw [alike.stringEncode]
        exact .ok agree.rest
    · intro _
      have found : ∀ parsed : MatrixQuery,
          SameThen (fun parsed : MatrixQuery × List Bytes =>
              Agree left right parsed.2)
            (.ok (parsed, (MatrixDB.next tokens).2) :
              Except MatrixQueryStatus _)
            (.ok (parsed, (MatrixDB.next tokens).2)) :=
        fun parsed => .ok agree.rest
      apply SameThen.ite Iff.rfl
      · intro _
        exact .error _
      · intro _
        exact .ite Iff.rfl (fun _ => found _) fun _ =>
          .ite Iff.rfl (fun _ => found _) fun _ =>
          .ite Iff.rfl (fun _ => found _) fun _ =>
          .ite Iff.rfl (fun _ => found _) fun _ => .error _

theorem parseWhere (alike : HoldAlike left right)
    (agree : Agree left right tokens) (strtod : Bytes → StrtodResult)
    (q : MatrixQuery) :
    SameThen (fun parsed : MatrixQuery × List Bytes =>
        Agree left right parsed.2)
      (left.parseWhere strtod q tokens) (right.parseWhere strtod q tokens) := by
  apply SameThen.ite Iff.rfl
  · intro _
    have behind := agree.rest
    dsimp only
    rw [behind.next, alike.stringDicts]
    simp only [alike.columnType]
    apply SameThen.ite Iff.rfl
    · intro _
      exact .error _
    · intro _
      apply SameThen.ite Iff.rfl
      · intro _
        exact .error _
      · intro _
        cases right.stringDicts.lookup
            (right.columnId (next (next tokens).2).1) with
        | some dict =>
            exact alike.parseDictFilter behind.rest.rest _ dict _ _
        | none => exact behind.rest.rest.parseNumericFilter strtod _ _ _
  · intro _
    exact .ok agree

theorem parseHead (alike : HoldAlike left right)
    (strtod : Bytes → StrtodResult) {sql : Bytes}
    (agree : Agree left right (matrixparseTokenize sql)) :
    SameThen (fun parsed : Bytes × MatrixQuery × List Bytes =>
        Agree left right parsed.2.2)
      (left.parseHead strtod sql) (right.parseHead strtod sql) := by
  refine .bind agree.parseSelect ?_
  intro selected agree
  refine .bind (alike.parseWhere agree strtod selected.2.1) ?_
  intro filtered agree
  exact .ok agree

theorem parseKey (alike : HoldAlike left right)
    (agree : Agree left right tokens) :
    SameThen (fun parsed : UInt64 × List Bytes => Agree left right parsed.2)
      (left.parseKey tokens) (right.parseKey tokens) := by
  refine .bind (agree.expect "BY") ?_
  intro tokens agree
  simp only [agree.next, alike.columnType]
  exact .ite Iff.rfl (fun _ => .error _) fun _ =>
    .ite Iff.rfl (fun _ => .error _) fun _ => .ok agree.rest

/-- Neither engine has been given other names. -/
def NamesOf (left right one two : Catalog κ) : Prop :=
  one.columnId = left.columnId ∧ two.columnId = right.columnId

theorem deriveNumGroupsU32 (alike : HoldAlike left right) (kid : UInt64) :
    Twin (NamesOf left right) (left.deriveNumGroupsU32 kid)
      (right.deriveNumGroupsU32 kid) := by
  have loan := loan_withLoan (A := UInt32) alike.leftSettled kid
  have loan' := loan_withLoan (A := UInt32) alike.rightSettled kid
  by_cases registered : (left.contents kid).isSome
  · obtain ⟨one, after, lent, keeps, _, ran⟩ := loan.granted fun id member => by
      rw [List.mem_singleton.mp member]
      exact registered
    obtain ⟨two, after', lent', keeps', _, ran'⟩ :=
      loan'.granted fun id member => by
        rw [List.mem_singleton.mp member, ← alike.contents]
        exact registered
    have sizes : one.sizeBytes kid = two.sizeBytes kid := by
      rw [lent.keeps.sizeBytes alike.leftSettled.wellFormed,
        lent'.keeps.sizeBytes alike.rightSettled.wellFormed,
        sizeBytes_eq alike.leftSettled.wellFormed,
        sizeBytes_eq alike.rightSettled.wellFormed, alike.contents]
    have bytes : one.hostBytes kid = two.hostBytes kid := by
      rw [lent.hostBytes kid List.mem_cons_self,
        lent'.hostBytes kid List.mem_cons_self, alike.contents]
    have names : NamesOf left right after after' := by
      constructor
      · funext name
        rw [columnId, keeps.nameToId]
        rfl
      · funext name
        rw [columnId, keeps'.nameToId]
        rfl
    rw [Catalog.deriveNumGroupsU32, Catalog.deriveNumGroupsU32, ran, ran',
      sizes, bytes]
    exact .of_result names _
  · have absent := Option.not_isSome_iff_eq_none.mp registered
    rw [Catalog.deriveNumGroupsU32, Catalog.deriveNumGroupsU32,
      loan.refused kid List.mem_cons_self absent,
      loan'.refused kid List.mem_cons_self (by rw [← alike.contents, absent])]
    exact Twin.none

theorem parseGroup (alike : HoldAlike left right)
    (agree : Agree left right tokens) (q : MatrixQuery) :
    Twin (NamesOf left right) (left.parseGroup q tokens)
        (right.parseGroup q tokens) ∧
      ∀ grouped rest after, left.parseGroup q tokens =
        some (.ok (grouped, rest), after) → Agree left right rest := by
  unfold Catalog.parseGroup
  split
  · obtain ⟨same, behind⟩ := alike.parseKey agree.rest
    rw [← same]
    cases key : left.parseKey (next tokens).2 with
    | error status =>
        refine ⟨.pure ⟨rfl, rfl⟩, ?_⟩
        intro grouped rest after read
        cases read
    | ok found =>
        have twin := alike.deriveNumGroupsU32 found.1
        constructor
        · refine .map twin ?_
          intro groups one two names
          exact ⟨rfl, names⟩
        · intro grouped rest after read
          obtain ⟨_, _, pair⟩ := Option.map_eq_some_iff.mp read
          cases pair
          exact behind found key
  · refine ⟨.pure ⟨rfl, rfl⟩, ?_⟩
    intro grouped rest after read
    cases read
    exact agree

/-- What a query parses to, without what parsing it moves. -/
theorem parseQuery (alike : HoldAlike left right)
    (strtod : Bytes → StrtodResult) {sql : Bytes}
    (agree : Agree left right (matrixparseTokenize sql)) :
    (left.parseQuery strtod sql).map (fun parsed => (parsed.1, parsed.2.1)) =
      (right.parseQuery strtod sql).map
        fun parsed => (parsed.1, parsed.2.1) := by
  obtain ⟨same, behind⟩ := alike.parseHead strtod agree
  unfold Catalog.parseQuery parseQueryImpl
  rw [← same]
  cases head : left.parseHead strtod sql with
  | error status => rfl
  | ok parsed =>
      obtain ⟨aggs, q, tokens⟩ := parsed
      obtain ⟨⟨failed, failed'⟩ | ⟨grouped, one, two, ran, ran', names⟩, rest⟩ :=
        alike.parseGroup (behind _ head) q
      · simp only [failed, failed', Option.map_none]
      · have tails : grouped.bind (one.parseTail aggs) =
            grouped.bind (two.parseTail aggs) := by
          cases grouped with
          | error status => rfl
          | ok parsed =>
              have agreed := rest parsed.1 parsed.2 one ran
              have later : Agree one two parsed.2 := by
                intro name member
                rw [names.1, names.2]
                exact agreed name member
              exact later.parseTail aggs parsed.1
        simp only [ran, ran', Option.map_some, tails]
        split
        · rfl
        · rfl

end HoldAlike

end Catalog

end MatrixDB
