import MatrixDB.Catalog.Gathers
import MatrixDB.Cli.Printing

/-!
# Joins in the shell (`matrix_cli.hpp`)

A line with a `JOIN` is cut at its blanks.  It counts the pairs of rows,
aggregates a left column over them, or shows a column of each side.
-/

namespace MatrixDB

open Lib CostArith

/-- A word stands somewhere in a text. -/
def has (word : String) (text : Bytes) : Bool :=
  (findFrom (ascii word) text 0).isSome

theorem has_iff {word : String} {text : Bytes} :
    has word text = true ↔ ascii word <:+: text := by
  unfold has findFrom
  rw [List.drop_zero, List.find?_isSome]
  constructor
  · rintro ⟨position, _, stands⟩
    have front := List.isPrefixOf_iff_prefix.mp stands
    exact front.isInfix.trans (List.drop_suffix position text).isInfix
  · rintro ⟨before, after, rfl⟩
    refine ⟨before.length, ?_, ?_⟩
    · rw [List.mem_range]
      simp only [List.length_append]
      omega
    · rw [List.append_assoc, List.drop_left, List.isPrefixOf_iff_prefix]
      exact List.prefix_append _ _

/-- The search fails where there is no such word. -/
theorem findFrom_eq_none {word : String} {text : Bytes} :
    findFrom (ascii word) text 0 = none ↔ has word text = false := by
  unfold has
  cases findFrom (ascii word) text 0 <;> simp

/-- `matrixcli_detail::split_ws`. -/
def splitWs (text : Bytes) : List Bytes :=
  (text.splitOnP isSpace).filter fun token => !token.isEmpty

/-- `SELECT select JOIN lk = rk tail`. -/
structure JoinLine where
  select : Bytes
  lk : Bytes
  rk : Bytes
  tail : List Bytes
  deriving DecidableEq

def isJoin (token : Bytes) : Bool := up token == ascii "JOIN"

def joinLine (tk : List Bytes) : Option JoinLine :=
  match tk.dropWhile fun token => !isJoin token with
  | _ :: lk :: eq :: rk :: tail =>
      if eq = ascii "=" then
        let front := tk.takeWhile fun token => !isJoin token
        some { select := joinTokens (front.drop 1), lk, rk, tail }
      else none
  | _ => none

/-- What becomes of the groups. -/
inductive JoinPost where
  | plain
  | having (hop : MatrixCmp) (hthr : Float)
  | topn (n : Nat)

structure JoinAggregate where
  agg : MatrixAggOp
  lcol : UInt64
  /-- Zero without `GROUP BY`. -/
  gcol : UInt64
  post : JoinPost

/-- A line with nothing but an error. -/
def failure {C : Type} (message : Bytes) (catalog : C) :
    Option (List CliLine × C) :=
  some ([.error message], catalog)

variable {κ : Type}

namespace Catalog

section
variable (strtod : Bytes → StrtodResult) (catalog : Catalog κ)

/-! ## Reading an aggregate -/

/-- `std::strtod` of a C string, whatever follows the number. -/
def strtodOf (text : Bytes) : Float :=
  Float.ofBits (strtod (text.takeWhile fun c => c != 0)).value

def joinClauseMessage : Bytes :=
  ascii ("could not parse join GROUP BY clause " ++
    "(HAVING agg <cmp> v | ORDER BY agg DESC LIMIT n)")

def joinPost (more : List Bytes) : Except Bytes JoinPost :=
  match more with
  | [] => .ok .plain
  | [word, _, hop, v] =>
      if up word = ascii "HAVING" then
        match cmpOf hop with
        | some cmp => .ok (.having cmp (strtodOf strtod v))
        | none =>
            .error (ascii "bad HAVING comparison (use > >= < <= = !=)")
      else .error joinClauseMessage
  | [order, by', _, _, limit, n] =>
      if up order = ascii "ORDER" ∧ up by' = ascii "BY" ∧
          up limit = ascii "LIMIT" then
        .ok (.topn (strtoull n).toNat)
      else .error joinClauseMessage
  | _ => .error joinClauseMessage

/-- The column to group by, and what follows it. -/
def joinGroup (tail : List Bytes) : Except Bytes (UInt64 × JoinPost) :=
  match tail with
  | [] => .ok (0, .plain)
  | group :: by' :: g :: more =>
      if up group ≠ ascii "GROUP" ∨ up by' ≠ ascii "BY" then
        .error (ascii "could not parse join GROUP BY (... GROUP BY rcol)")
      else if catalog.columnId g = 0 then
        .error (ascii "unknown GROUP BY column in join")
      else (joinPost strtod more).map fun post => (catalog.columnId g, post)
  | _ => .error (ascii "could not parse join GROUP BY (... GROUP BY rcol)")

/-- `AGG(lcol)`, cut at the first parenthesis of either kind. -/
def joinAggregate (select : Bytes) (tail : List Bytes) :
    Except Bytes JoinAggregate := do
  let front := select.takeWhile fun c => c != '('.toUInt8
  let behind := (select.dropWhile fun c => c != '('.toUInt8).drop 1
  if front.contains ')'.toUInt8 || !behind.contains ')'.toUInt8 then
    .error (ascii "could not parse join aggregate (SELECT AGG(col) JOIN ...)")
  else
    let aggname := up (cliTrim front)
    match aggOf aggname with
    | .error _ =>
        .error (ascii "join aggregate supports COUNT/SUM/MIN/MAX (not " ++
          aggname ++ ascii ")")
    | .ok agg =>
        let lcol := catalog.columnId
          (cliTrim (behind.takeWhile fun c => c != ')'.toUInt8))
        if lcol = 0 then .error (ascii "unknown aggregate column in join")
        else
          let (gcol, post) ← catalog.joinGroup strtod tail
          .ok { agg, lcol, gcol, post }

end

/-! ## Running it -/

section
variable (printDouble : UInt64 → Bytes) (catalog : Catalog κ)

/-- The pairs of rows, for the type of the keys. -/
def joinPairs (kt : MatrixType) (lkey rkey : UInt64) :
    Option (List (UInt64 × UInt64) × Catalog κ) :=
  match kt with
  | .I64 => catalog.hashJoinI64 lkey rkey
  | _ => catalog.hashJoin lkey rkey

/-- The values of each group, by the group. -/
def joinBuckets (gv lv : List UInt64) : List (UInt64 × List UInt64) :=
  intoOrdered Prod.fst [] (fun vals row => vals ++ [row.2]) (gv.zip lv)

def JoinPost.keep {A : Type} (post : JoinPost) (order : A → Float)
    (grows : List A) : List A :=
  match post with
  | .plain => grows
  | .having hop hthr =>
      grows.filter fun r =>
        matrixPredMatchF64 (order r) { cmp := hop, a := hthr, b := hthr }
  | .topn n =>
      (grows.mergeSort fun a b => !decide (order b > order a)).take n

def runJoinAggregate (kt : MatrixType) (lkey rkey : UInt64)
    (j : JoinAggregate) : Option (List CliLine × Catalog κ) := do
  let (pr, catalog) ← catalog.joinPairs kt lkey rkey
  let (lv, catalog) ← catalog.gather j.lcol (pr.map Prod.fst)
  if j.gcol = 0 then
    some ([.row [(catalog.reduceAgg printDouble j.lcol j.agg lv).text]],
      catalog)
  else
    let (gv, catalog) ← catalog.gather j.gcol (pr.map Prod.snd)
    let grows := (joinBuckets gv lv).map fun (g, vals) =>
      (catalog.groupLabel j.gcol g,
        catalog.reduceAgg printDouble j.lcol j.agg vals)
    let kept := JoinPost.keep j.post (fun r => r.2.order) grows
    some (kept.map fun r => .row [r.1, r.2.text], catalog)

/-- The limit of a projection, zero without one. -/
def joinLimit (tail : List Bytes) : Option UInt64 :=
  match tail with
  | [] => some 0
  | [word, n] => if up word = ascii "LIMIT" then some (strtoull n) else none
  | _ => none

/-- `… (total what, showing shown)`, in a list only. -/
def moreNote (mode : OutMode) (total : Nat) (what : String) (shown : Nat) :
    List CliLine :=
  if mode = .LIST ∧ shown < total then [.more total (ascii what) shown]
  else []

def runJoinProjection (mode : OutMode) (kt : MatrixType) (lkey rkey : UInt64)
    (select : Bytes) (tail : List Bytes) :
    Option (List CliLine × Catalog κ) :=
  match joinLimit tail with
  | none => failure (ascii "could not parse join (trailing tokens)") catalog
  | some limit =>
      if !select.contains ','.toUInt8 then
        failure (ascii ("join projection needs two columns: " ++
          "SELECT lcol, rcol JOIN ...")) catalog
      else
        let lcol := catalog.columnId
          (cliTrim (select.takeWhile fun c => c != ','.toUInt8))
        let rcol := catalog.columnId
          (cliTrim ((select.dropWhile fun c => c != ','.toUInt8).drop 1))
        if lcol = 0 ∨ rcol = 0 then
          failure (ascii "unknown projected column in join") catalog
        else do
          let (pr, catalog) ← catalog.joinPairs kt lkey rkey
          let cap := if limit = 0 then 100 else limit.toNat
          let shown := pr.take cap
          let (lv, catalog) ← catalog.gather lcol (shown.map Prod.fst)
          let (rv, catalog) ← catalog.gather rcol (shown.map Prod.snd)
          let rows := List.zipWith
            (fun l r => CliLine.row [catalog.decodeProj printDouble lcol l,
              catalog.decodeProj printDouble rcol r]) lv rv
          some (rows ++ moreNote mode pr.length "matches" cap, catalog)

/-- `COUNT` and a star stand somewhere before the `JOIN`. -/
def countsPairs (select : Bytes) : Bool :=
  has "COUNT" (up select) && select.contains '*'.toUInt8

/-- Only the `uint32` join can count, whatever the type of the keys is. -/
def joinBranch (strtod : Bytes → StrtodResult) (mode : OutMode)
    (kt : MatrixType) (lkey rkey : UInt64) (select : Bytes)
    (tail : List Bytes) : Option (List CliLine × Catalog κ) :=
  if countsPairs select then
    (catalog.hashJoinCount lkey rkey).map fun (count, catalog) =>
      ([.row [decimal count.toNat]], catalog)
  else if select.contains '('.toUInt8 then
    match catalog.joinAggregate strtod select tail with
    | .error message => failure message catalog
    | .ok j => catalog.runJoinAggregate printDouble kt lkey rkey j
  else
    catalog.runJoinProjection printDouble mode kt lkey rkey select tail

def runJoin (strtod : Bytes → StrtodResult) (mode : OutMode) (line : Bytes) :
    Option (List CliLine × Catalog κ) :=
  match joinLine (splitWs line) with
  | none =>
      failure (ascii ("could not parse join " ++
          "(SELECT a, b JOIN lk = rk [LIMIT n])")) catalog
  | some { select, lk, rk, tail } =>
      let lkey := catalog.columnId lk
      let rkey := catalog.columnId rk
      let kt := catalog.columnType lkey
      if lkey = 0 ∨ rkey = 0 then
        failure (ascii "unknown column in join") catalog
      else if 0 < catalog.stringDictSize lkey ∨
          0 < catalog.stringDictSize rkey then
        failure (ascii ("cannot join on string-dictionary keys " ++
          "(independent code spaces)")) catalog
      else if kt ≠ catalog.columnType rkey ∨ kt = .F64 then
        failure (ascii "join keys must be matching u32 or i64 columns") catalog
      else
        catalog.joinBranch printDouble strtod mode kt lkey rkey select tail

end

end Catalog

end MatrixDB
