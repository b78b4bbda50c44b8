import MatrixDB.Catalog.Query

/-!
# Requests and responses on the wire (`server.hpp`)

A request is one fixed layout for every kind; a response is a status and a
counted list of words.
-/

namespace MatrixDB

open Lib

inductive ReqKind where
  | GET
  | PUT
  | QUERY
  | HEALTH
  | STATS
  deriving DecidableEq, Repr

namespace ReqKind

def code : ReqKind → UInt32
  | .GET => 1
  | .PUT => 2
  | .QUERY => 3
  | .HEALTH => 4
  | .STATS => 5

def ofCode (code : UInt32) : Option ReqKind :=
  if code = 1 then some .GET
  else if code = 2 then some .PUT
  else if code = 3 then some .QUERY
  else if code = 4 then some .HEALTH
  else if code = 5 then some .STATS
  else none

end ReqKind

namespace MatrixCmp

def code : MatrixCmp → UInt32
  | .GT => 0
  | .GE => 1
  | .LT => 2
  | .LE => 3
  | .EQ => 4
  | .NE => 5
  | .BETWEEN => 6

/-- Anything beyond `BETWEEN` is refused. -/
def ofCode (code : UInt32) : Option MatrixCmp :=
  if code = 0 then some .GT
  else if code = 1 then some .GE
  else if code = 2 then some .LT
  else if code = 3 then some .LE
  else if code = 4 then some .EQ
  else if code = 5 then some .NE
  else if code = 6 then some .BETWEEN
  else none

end MatrixCmp

/-- `static_cast<uint32_t>(status)`. -/
def MatrixQueryStatus.code : MatrixQueryStatus → UInt32
  | .OK => 0
  | .ERR_UNKNOWN_COLUMN => 1
  | .ERR_INVALID_GROUP => 2
  | .ERR_TOO_MANY_GROUPS => 3
  | .ERR_UNSUPPORTED_TYPE => 4
  | .ERR_PARSE => 5

inductive ServerStatus where
  | OK
  | ERR_BADREQUEST
  | ERR_FORBIDDEN
  | ERR_UNAUTHENTICATED
  deriving DecidableEq, Repr

def ServerStatus.code : ServerStatus → UInt32
  | .OK => 0
  | .ERR_BADREQUEST => 1000
  | .ERR_FORBIDDEN => 1001
  | .ERR_UNAUTHENTICATED => 1002

structure MatrixRequest where
  kind : ReqKind
  key : UInt64
  value : UInt64
  query : MatrixQuery
  deriving DecidableEq, Repr

structure MatrixResponse where
  status : UInt32
  results : List UInt64
  deriving DecidableEq, Repr

def boolByte (flag : Bool) : UInt8 := if flag then 1 else 0

def matrixSerializeRequest (r : MatrixRequest) : Bytes :=
  u32Bytes r.kind.code ++ (u64Bytes r.key ++ (u64Bytes r.value ++
  (u64Bytes r.query.valueCol ++ (u32Bytes r.query.agg ++
  (boolByte r.query.hasFilter :: (u32Bytes r.query.threshold ++
  (u32Bytes r.query.cmp.code ++ (u32Bytes r.query.upper ++
  (u64Bytes r.query.loI64.toUInt64 ++ (u64Bytes r.query.hiI64.toUInt64 ++
  (u64Bytes r.query.loF64 ++ (u64Bytes r.query.hiF64 ++
  (boolByte r.query.grouped :: (u64Bytes r.query.keyCol ++
  (u32Bytes r.query.numGroups ++ (u64Bytes r.query.limit ++
  u64Bytes r.query.filterCol))))))))))))))))

/-- Too few bytes, too many, or a code out of range: no request. -/
def matrixDeserializeRequest (bytes : Bytes) : Option MatrixRequest := do
  let (kind, bytes) ← readU32 bytes
  let (key, bytes) ← readU64 bytes
  let (value, bytes) ← readU64 bytes
  let (valueCol, bytes) ← readU64 bytes
  let (agg, bytes) ← readU32 bytes
  let (hasFilter, bytes) ← readU8 bytes
  let (threshold, bytes) ← readU32 bytes
  let (cmp, bytes) ← readU32 bytes
  let (upper, bytes) ← readU32 bytes
  let (loI64, bytes) ← readU64 bytes
  let (hiI64, bytes) ← readU64 bytes
  let (loF64, bytes) ← readU64 bytes
  let (hiF64, bytes) ← readU64 bytes
  let (grouped, bytes) ← readU8 bytes
  let (keyCol, bytes) ← readU64 bytes
  let (numGroups, bytes) ← readU32 bytes
  let (limit, bytes) ← readU64 bytes
  let (filterCol, bytes) ← readU64 bytes
  if bytes.isEmpty then do
    let kind ← ReqKind.ofCode kind
    let cmp ← MatrixCmp.ofCode cmp
    some
      { kind := kind
        key := key
        value := value
        query :=
          { valueCol := valueCol
            agg := agg
            hasFilter := hasFilter != 0
            threshold := threshold
            cmp := cmp
            upper := upper
            loI64 := loI64.toInt64
            hiI64 := hiI64.toInt64
            loF64 := loF64
            hiF64 := hiF64
            grouped := grouped != 0
            keyCol := keyCol
            numGroups := numGroups
            limit := limit
            filterCol := filterCol } }
  else none

def matrixSerializeResponse (r : MatrixResponse) : Bytes :=
  u32Bytes r.status ++ (u64Bytes (UInt64.ofNat r.results.length) ++
    r.results.flatMap u64Bytes)

/-! ## Round trips -/

theorem ReqKind.ofCode_code (kind : ReqKind) :
    ReqKind.ofCode kind.code = some kind := by
  cases kind <;> rfl

theorem MatrixCmp.ofCode_code (cmp : MatrixCmp) :
    MatrixCmp.ofCode cmp.code = some cmp := by
  cases cmp <;> rfl

theorem boolByte_ne_zero (flag : Bool) : (boolByte flag != 0) = flag := by
  cases flag <;> rfl

theorem bind_of_eq {A B : Type} {read : Option A} {item : A}
    {next : A → Option B} (is : read = some item) :
    (read >>= next) = next item := by
  rw [is]
  rfl

theorem deserialize_serialize (r : MatrixRequest) :
    matrixDeserializeRequest (matrixSerializeRequest r) = some r := by
  unfold matrixDeserializeRequest matrixSerializeRequest
  rw [← List.append_nil (u64Bytes r.query.filterCol)]
  -- One step for each field, in the order of the layout.
  repeat first
    | refine (bind_of_eq (readU32_u32Bytes _ _)).trans ?_
    | refine (bind_of_eq (readU64_u64Bytes _ _)).trans ?_
    | refine (bind_of_eq (readU8_cons _ _)).trans ?_
  refine (bind_of_eq (ReqKind.ofCode_code r.kind)).trans ?_
  refine (bind_of_eq (MatrixCmp.ofCode_code r.query.cmp)).trans ?_
  simp only [boolByte_ne_zero, Int64.toInt64_toUInt64]

/-- The status of a response can be read off its bytes. -/
theorem status_of_serialized {left right : MatrixResponse}
    (same : matrixSerializeResponse left = matrixSerializeResponse right) :
    left.status = right.status := by
  have read := congrArg readU32 same
  simp only [matrixSerializeResponse, readU32_u32Bytes, Option.some.injEq,
    Prod.mk.injEq] at read
  exact read.1

end MatrixDB
