import MatrixDB.Server.Wire

/-!
# Which byte strings are requests and responses (`server.hpp`)

The writer and the reader of a request are two lists of fields kept by hand.
Here both are compared with one layout, in which only the two flags can have
several spellings, and the reader of a response with what the writer writes.
-/

namespace MatrixDB

open Lib

/-! ## Requests -/

/-- A request with given codes and given bytes for its flags. -/
def codedLayout (kindCode cmpCode : UInt32) (filterFlag groupFlag : UInt8)
    (r : MatrixRequest) : Bytes :=
  u32Bytes kindCode ++ (u64Bytes r.key ++ (u64Bytes r.value ++
  (u64Bytes r.query.valueCol ++ (u32Bytes r.query.agg ++
  (filterFlag :: (u32Bytes r.query.threshold ++
  (u32Bytes cmpCode ++ (u32Bytes r.query.upper ++
  (u64Bytes r.query.loI64.toUInt64 ++ (u64Bytes r.query.hiI64.toUInt64 ++
  (u64Bytes r.query.loF64 ++ (u64Bytes r.query.hiF64 ++
  (groupFlag :: (u64Bytes r.query.keyCol ++
  (u32Bytes r.query.numGroups ++ (u64Bytes r.query.limit ++
  u64Bytes r.query.filterCol))))))))))))))))

/-- A request with given bytes for its flags. -/
def requestLayout (r : MatrixRequest) (filterFlag groupFlag : UInt8) :
    Bytes :=
  codedLayout r.kind.code r.query.cmp.code filterFlag groupFlag r

/-- The flags as the reader takes them. -/
structure Flagged (r : MatrixRequest) (filterFlag groupFlag : UInt8) : Prop where
  hasFilter : (filterFlag != 0) = r.query.hasFilter
  grouped : (groupFlag != 0) = r.query.grouped

theorem ReqKind.code_of_ofCode {code : UInt32} {kind : ReqKind}
    (is : ReqKind.ofCode code = some kind) : kind.code = code := by
  unfold ReqKind.ofCode at is
  repeat' split at is
  all_goals simp_all [ReqKind.code]
  all_goals subst is; rfl

theorem MatrixCmp.code_of_ofCode {code : UInt32} {cmp : MatrixCmp}
    (is : MatrixCmp.ofCode code = some cmp) : cmp.code = code := by
  unfold MatrixCmp.ofCode at is
  repeat' split at is
  all_goals simp_all [MatrixCmp.code]
  all_goals subst is; rfl

theorem deserialize_layout {r : MatrixRequest} {filterFlag groupFlag : UInt8}
    (flagged : Flagged r filterFlag groupFlag) :
    matrixDeserializeRequest (requestLayout r filterFlag groupFlag) =
      some r := by
  unfold matrixDeserializeRequest requestLayout codedLayout
  rw [← List.append_nil (u64Bytes r.query.filterCol)]
  -- One step for each field, in the order of the layout.
  repeat first
    | refine (bind_of_eq (readU32_u32Bytes _ _)).trans ?_
    | refine (bind_of_eq (readU64_u64Bytes _ _)).trans ?_
    | refine (bind_of_eq (readU8_cons _ _)).trans ?_
  refine (bind_of_eq (ReqKind.ofCode_code r.kind)).trans ?_
  refine (bind_of_eq (MatrixCmp.ofCode_code r.query.cmp)).trans ?_
  simp only [flagged.hasFilter, flagged.grouped, Int64.toInt64_toUInt64]

theorem layout_of_deserialize {bytes : Bytes} {r : MatrixRequest}
    (read : matrixDeserializeRequest bytes = some r) :
    ∃ filterFlag groupFlag, Flagged r filterFlag groupFlag ∧
      bytes = requestLayout r filterFlag groupFlag := by
  unfold matrixDeserializeRequest at read
  obtain ⟨⟨kind, rest⟩, kindRead, read⟩ := Option.bind_eq_some_iff.mp read
  obtain ⟨⟨key, rest⟩, keyRead, read⟩ := Option.bind_eq_some_iff.mp read
  obtain ⟨⟨value, rest⟩, valueRead, read⟩ := Option.bind_eq_some_iff.mp read
  obtain ⟨⟨valueCol, rest⟩, valueColRead, read⟩ := Option.bind_eq_some_iff.mp read
  obtain ⟨⟨agg, rest⟩, aggRead, read⟩ := Option.bind_eq_some_iff.mp read
  obtain ⟨⟨filterFlag, rest⟩, filterFlagRead, read⟩ := Option.bind_eq_some_iff.mp read
  obtain ⟨⟨threshold, rest⟩, thresholdRead, read⟩ := Option.bind_eq_some_iff.mp read
  obtain ⟨⟨cmp, rest⟩, cmpRead, read⟩ := Option.bind_eq_some_iff.mp read
  obtain ⟨⟨upper, rest⟩, upperRead, read⟩ := Option.bind_eq_some_iff.mp read
  obtain ⟨⟨loI64, rest⟩, loI64Read, read⟩ := Option.bind_eq_some_iff.mp read
  obtain ⟨⟨hiI64, rest⟩, hiI64Read, read⟩ := Option.bind_eq_some_iff.mp read
  obtain ⟨⟨loF64, rest⟩, loF64Read, read⟩ := Option.bind_eq_some_iff.mp read
  obtain ⟨⟨hiF64, rest⟩, hiF64Read, read⟩ := Option.bind_eq_some_iff.mp read
  obtain ⟨⟨groupFlag, rest⟩, groupFlagRead, read⟩ := Option.bind_eq_some_iff.mp read
  obtain ⟨⟨keyCol, rest⟩, keyColRead, read⟩ := Option.bind_eq_some_iff.mp read
  obtain ⟨⟨numGroups, rest⟩, numGroupsRead, read⟩ := Option.bind_eq_some_iff.mp read
  obtain ⟨⟨limit, rest⟩, limitRead, read⟩ := Option.bind_eq_some_iff.mp read
  obtain ⟨⟨filterCol, rest⟩, filterColRead, read⟩ := Option.bind_eq_some_iff.mp read
  cases rest with
  | cons byte later => cases read
  | nil =>
      obtain ⟨kind', known, read⟩ := Option.bind_eq_some_iff.mp read
      obtain ⟨cmp', compared, read⟩ := Option.bind_eq_some_iff.mp read
      cases read
      refine ⟨filterFlag, groupFlag, ⟨rfl, rfl⟩, ?_⟩
      rw [readU32_eq_some.mp kindRead, readU64_eq_some.mp keyRead,
        readU64_eq_some.mp valueRead, readU64_eq_some.mp valueColRead,
        readU32_eq_some.mp aggRead, readU8_eq_some.mp filterFlagRead,
        readU32_eq_some.mp thresholdRead, readU32_eq_some.mp cmpRead,
        readU32_eq_some.mp upperRead, readU64_eq_some.mp loI64Read,
        readU64_eq_some.mp hiI64Read, readU64_eq_some.mp loF64Read,
        readU64_eq_some.mp hiF64Read, readU8_eq_some.mp groupFlagRead,
        readU64_eq_some.mp keyColRead, readU32_eq_some.mp numGroupsRead,
        readU64_eq_some.mp limitRead, readU64_eq_some.mp filterColRead,
        List.append_nil]
      simp only [requestLayout, codedLayout, ReqKind.code_of_ofCode known,
        MatrixCmp.code_of_ofCode compared, UInt64.toUInt64_toInt64]

/-- The kind as the bytes give it. -/
def kindField (bytes : Bytes) : UInt32 := u32OfBytes (bytes.take 4)

/-- The comparison as the bytes give it. -/
def cmpField (bytes : Bytes) : UInt32 := u32OfBytes ((bytes.drop 37).take 4)

theorem modify_at {A : Type} {front : List A} {index : Nat} (item : A)
    (back : List A) (change : A → A) (width : front.length = index) :
    (front ++ item :: back).modify index change =
      front ++ change item :: back := by
  subst width
  induction front with
  | nil => rfl
  | cons first front induction =>
      simpa using congrArg (first :: ·) induction

/-- The two flag bytes written as the writer writes them. -/
def normalizeFlags (bytes : Bytes) : Bytes :=
  (bytes.modify 32 fun flag => boolByte (flag != 0)).modify 77
    fun flag => boolByte (flag != 0)

section
variable (kindCode cmpCode : UInt32) (filterFlag groupFlag : UInt8)
  (r : MatrixRequest)

theorem length_layout :
    (codedLayout kindCode cmpCode filterFlag groupFlag r).length = 106 := by
  simp [codedLayout]

theorem kindField_layout :
    kindField (codedLayout kindCode cmpCode filterFlag groupFlag r) =
      kindCode := by
  rw [kindField, codedLayout, List.take_left' (length_u32Bytes _),
    u32OfBytes_u32Bytes]

theorem cmpField_layout :
    cmpField (codedLayout kindCode cmpCode filterFlag groupFlag r) =
      cmpCode := by
  -- The comparison follows the first flag and the threshold.
  let front := u32Bytes kindCode ++ (u64Bytes r.key ++ (u64Bytes r.value ++
    (u64Bytes r.query.valueCol ++ (u32Bytes r.query.agg ++
    (filterFlag :: u32Bytes r.query.threshold)))))
  have width : front.length = 37 := by simp [front]
  obtain ⟨later, split⟩ : ∃ later,
      codedLayout kindCode cmpCode filterFlag groupFlag r =
        front ++ (u32Bytes cmpCode ++ later) :=
    ⟨_, by simp only [codedLayout, front, List.append_assoc,
      List.cons_append]; rfl⟩
  rw [cmpField, split, List.drop_left' width,
    List.take_left' (length_u32Bytes _), u32OfBytes_u32Bytes]

end

/-- What stands before, between and behind the flags. -/
theorem layout_split (r : MatrixRequest) :
    ∃ front middle back, front.length = 32 ∧ middle.length = 44 ∧
      ∀ filterFlag groupFlag, requestLayout r filterFlag groupFlag =
        front ++ filterFlag :: (middle ++ groupFlag :: back) := by
  refine ⟨u32Bytes r.kind.code ++ (u64Bytes r.key ++ (u64Bytes r.value ++
    (u64Bytes r.query.valueCol ++ u32Bytes r.query.agg))),
    u32Bytes r.query.threshold ++ (u32Bytes r.query.cmp.code ++
    (u32Bytes r.query.upper ++ (u64Bytes r.query.loI64.toUInt64 ++
    (u64Bytes r.query.hiI64.toUInt64 ++ (u64Bytes r.query.loF64 ++
    u64Bytes r.query.hiF64))))),
    u64Bytes r.query.keyCol ++ (u32Bytes r.query.numGroups ++
    (u64Bytes r.query.limit ++ u64Bytes r.query.filterCol)),
    by simp, by simp, ?_⟩
  intro filterFlag groupFlag
  simp only [requestLayout, codedLayout, List.append_assoc]

theorem normalizeFlags_layout (r : MatrixRequest)
    (filterFlag groupFlag : UInt8) :
    normalizeFlags (requestLayout r filterFlag groupFlag) =
      requestLayout r (boolByte (filterFlag != 0))
        (boolByte (groupFlag != 0)) := by
  obtain ⟨front, middle, back, frontWidth, middleWidth, layout⟩ :=
    layout_split r
  have regroup : ∀ flag : UInt8, front ++ flag :: (middle ++ groupFlag :: back) =
      (front ++ flag :: middle) ++ groupFlag :: back := by
    intro flag
    simp
  rw [normalizeFlags, layout, layout, modify_at _ _ _ frontWidth, regroup,
    modify_at _ _ _ (by simp [frontWidth, middleWidth])]
  simp

theorem ReqKind.code_range (kind : ReqKind) :
    1 ≤ kind.code ∧ kind.code ≤ 5 := by
  cases kind <;> decide

theorem MatrixCmp.code_range (cmp : MatrixCmp) : cmp.code ≤ 6 := by
  cases cmp <;> decide

theorem ReqKind.exists_code {code : UInt32} (least : 1 ≤ code)
    (most : code ≤ 5) : ∃ kind : ReqKind, kind.code = code := by
  have range : code = 1 ∨ code = 2 ∨ code = 3 ∨ code = 4 ∨ code = 5 := by
    simp only [UInt32.le_iff_toNat_le, ← UInt32.toNat_inj] at *
    simp at *
    omega
  rcases range with rfl | rfl | rfl | rfl | rfl
  · exact ⟨.GET, rfl⟩
  · exact ⟨.PUT, rfl⟩
  · exact ⟨.QUERY, rfl⟩
  · exact ⟨.HEALTH, rfl⟩
  · exact ⟨.STATS, rfl⟩

theorem MatrixCmp.exists_code {code : UInt32} (most : code ≤ 6) :
    ∃ cmp : MatrixCmp, cmp.code = code := by
  have range : code = 0 ∨ code = 1 ∨ code = 2 ∨ code = 3 ∨ code = 4 ∨
      code = 5 ∨ code = 6 := by
    simp only [UInt32.le_iff_toNat_le, ← UInt32.toNat_inj] at *
    simp at *
    omega
  rcases range with rfl | rfl | rfl | rfl | rfl | rfl | rfl
  · exact ⟨.GT, rfl⟩
  · exact ⟨.GE, rfl⟩
  · exact ⟨.LT, rfl⟩
  · exact ⟨.LE, rfl⟩
  · exact ⟨.EQ, rfl⟩
  · exact ⟨.NE, rfl⟩
  · exact ⟨.BETWEEN, rfl⟩

/-- Every string of the right length is a layout, up to its two codes. -/
theorem exists_codedLayout {bytes : Bytes} (length : bytes.length = 106) :
    ∃ kindCode cmpCode filterFlag groupFlag r,
      Flagged r filterFlag groupFlag ∧
      bytes = codedLayout kindCode cmpCode filterFlag groupFlag r := by
  obtain ⟨kindCode, rest, kindIs, left⟩ := exists_u32Bytes_append 102 length
  obtain ⟨key, rest, keyIs, left⟩ := exists_u64Bytes_append 94 left
  obtain ⟨value, rest, valueIs, left⟩ := exists_u64Bytes_append 86 left
  obtain ⟨valueCol, rest, valueColIs, left⟩ := exists_u64Bytes_append 78 left
  obtain ⟨agg, rest, aggIs, left⟩ := exists_u32Bytes_append 74 left
  obtain ⟨filterFlag, rest, filterFlagIs, left⟩ := exists_byte_cons 73 left
  obtain ⟨threshold, rest, thresholdIs, left⟩ := exists_u32Bytes_append 69 left
  obtain ⟨cmpCode, rest, cmpIs, left⟩ := exists_u32Bytes_append 65 left
  obtain ⟨upper, rest, upperIs, left⟩ := exists_u32Bytes_append 61 left
  obtain ⟨loI64, rest, loI64Is, left⟩ := exists_u64Bytes_append 53 left
  obtain ⟨hiI64, rest, hiI64Is, left⟩ := exists_u64Bytes_append 45 left
  obtain ⟨loF64, rest, loF64Is, left⟩ := exists_u64Bytes_append 37 left
  obtain ⟨hiF64, rest, hiF64Is, left⟩ := exists_u64Bytes_append 29 left
  obtain ⟨groupFlag, rest, groupFlagIs, left⟩ := exists_byte_cons 28 left
  obtain ⟨keyCol, rest, keyColIs, left⟩ := exists_u64Bytes_append 20 left
  obtain ⟨numGroups, rest, numGroupsIs, left⟩ := exists_u32Bytes_append 16 left
  obtain ⟨limit, rest, limitIs, left⟩ := exists_u64Bytes_append 8 left
  obtain ⟨filterCol, rest, filterColIs, left⟩ := exists_u64Bytes_append 0 left
  refine ⟨kindCode, cmpCode, filterFlag, groupFlag,
    { kind := .GET, key := key, value := value
      query :=
        { valueCol := valueCol
          agg := agg
          hasFilter := filterFlag != 0
          threshold := threshold
          upper := upper
          loI64 := loI64.toInt64
          hiI64 := hiI64.toInt64
          loF64 := loF64
          hiF64 := hiF64
          grouped := groupFlag != 0
          keyCol := keyCol
          numGroups := numGroups
          limit := limit
          filterCol := filterCol } }, ⟨rfl, rfl⟩, ?_⟩
  rw [kindIs, keyIs, valueIs, valueColIs, aggIs, filterFlagIs, thresholdIs,
    cmpIs, upperIs, loI64Is, hiI64Is, loF64Is, hiF64Is, groupFlagIs,
    keyColIs, numGroupsIs, limitIs, filterColIs,
    List.length_eq_zero_iff.mp left, List.append_nil]
  simp only [codedLayout, UInt64.toUInt64_toInt64]

/-- The reader takes exactly the strings of the right length whose two codes
it knows. -/
theorem deserialize_isSome_iff (bytes : Bytes) :
    (matrixDeserializeRequest bytes).isSome ↔
      bytes.length = 106 ∧ 1 ≤ kindField bytes ∧ kindField bytes ≤ 5 ∧
        cmpField bytes ≤ 6 := by
  constructor
  · intro accepted
    obtain ⟨r, read⟩ := Option.isSome_iff_exists.mp accepted
    obtain ⟨filterFlag, groupFlag, _, rfl⟩ := layout_of_deserialize read
    rw [requestLayout, length_layout, kindField_layout, cmpField_layout]
    exact ⟨rfl, r.kind.code_range.1, r.kind.code_range.2,
      r.query.cmp.code_range⟩
  · rintro ⟨length, kindLeast, kindMost, cmpMost⟩
    obtain ⟨kindCode, cmpCode, filterFlag, groupFlag, r, flagged, rfl⟩ :=
      exists_codedLayout length
    rw [kindField_layout] at kindLeast kindMost
    rw [cmpField_layout] at cmpMost
    obtain ⟨kind, rfl⟩ := ReqKind.exists_code kindLeast kindMost
    obtain ⟨cmp, rfl⟩ := MatrixCmp.exists_code cmpMost
    let request : MatrixRequest :=
      { r with kind := kind, query := { r.query with cmp := cmp } }
    have flagged : Flagged request filterFlag groupFlag :=
      ⟨flagged.hasFilter, flagged.grouped⟩
    have read := deserialize_layout flagged
    exact Option.isSome_iff_exists.mpr ⟨request, read⟩

theorem serialize_deserialized {bytes : Bytes} {r : MatrixRequest}
    (read : matrixDeserializeRequest bytes = some r) :
    matrixSerializeRequest r = normalizeFlags bytes := by
  obtain ⟨filterFlag, groupFlag, flagged, rfl⟩ := layout_of_deserialize read
  rw [normalizeFlags_layout, flagged.hasFilter, flagged.grouped]
  rfl

/-! ## Responses -/

/-- The counted words of a response, read one after another. -/
def readWords : Nat → Bytes → Option (List UInt64 × Bytes)
  | 0, bytes => some ([], bytes)
  | count + 1, bytes => do
      let (word, bytes) ← readU64 bytes
      let (words, bytes) ← readWords count bytes
      some (word :: words, bytes)

/-- The count is capped before it is multiplied, so the product cannot wrap. -/
def matrixDeserializeResponse (bytes : Bytes) : Option MatrixResponse := do
  let (status, bytes) ← readU32 bytes
  let (count, bytes) ← readU64 bytes
  if count > (1 : UInt64) <<< 28 then none
  else if UInt64.ofNat bytes.length ≠ count * 8 then none
  else do
    let (results, bytes) ← readWords count.toNat bytes
    if bytes.isEmpty then some { status := status, results := results }
    else none

theorem readWords_eq_some {count : Nat} {bytes rest : Bytes}
    {words : List UInt64} :
    readWords count bytes = some (words, rest) ↔
      words.length = count ∧ bytes = words.flatMap u64Bytes ++ rest := by
  induction count generalizing bytes words with
  | zero =>
      rw [readWords, List.length_eq_zero_iff, Option.some.injEq,
        Prod.mk.injEq]
      constructor
      · rintro ⟨rfl, rfl⟩
        exact ⟨rfl, rfl⟩
      · rintro ⟨rfl, rfl⟩
        exact ⟨rfl, rfl⟩
  | succ count induction =>
      constructor
      · intro read
        obtain ⟨⟨word, between⟩, first, read⟩ :=
          Option.bind_eq_some_iff.mp read
        obtain ⟨⟨later, after⟩, others, read⟩ :=
          Option.bind_eq_some_iff.mp read
        cases read
        obtain ⟨length, whole⟩ := induction.mp others
        refine ⟨by rw [List.length_cons, length], ?_⟩
        rw [readU64_eq_some.mp first, whole, List.flatMap_cons,
          List.append_assoc]
      · rintro ⟨length, rfl⟩
        cases words with
        | nil => cases length
        | cons word later =>
            have others : readWords count (later.flatMap u64Bytes ++ rest) =
                some (later, rest) :=
              induction.mpr ⟨Nat.succ.inj length, rfl⟩
            rw [List.flatMap_cons, List.append_assoc]
            refine (bind_of_eq (readU64_u64Bytes _ _)).trans ?_
            exact bind_of_eq others

/-- The reader takes exactly what the writer writes for a response with no
more words than the cap. -/
theorem deserialize_response_iff (bytes : Bytes) (r : MatrixResponse) :
    matrixDeserializeResponse bytes = some r ↔
      r.results.length ≤ 2 ^ 28 ∧ bytes = matrixSerializeResponse r := by
  constructor
  · intro read
    unfold matrixDeserializeResponse at read
    obtain ⟨⟨status, afterStatus⟩, statusRead, read⟩ :=
      Option.bind_eq_some_iff.mp read
    obtain ⟨⟨count, afterCount⟩, countRead, read⟩ :=
      Option.bind_eq_some_iff.mp read
    dsimp only at read
    split at read
    · cases read
    rename_i capped
    split at read
    · cases read
    obtain ⟨⟨results, left⟩, wordsRead, read⟩ :=
      Option.bind_eq_some_iff.mp read
    cases left with
    | cons byte later => cases read
    | nil =>
        cases read
        obtain ⟨length, words⟩ := readWords_eq_some.mp wordsRead
        have most : count.toNat ≤ 2 ^ 28 :=
          UInt64.le_iff_toNat_le.mp (UInt64.not_lt.mp capped)
        refine ⟨length ▸ most, ?_⟩
        rw [readU32_eq_some.mp statusRead, readU64_eq_some.mp countRead,
          words, List.append_nil, matrixSerializeResponse, length,
          UInt64.ofNat_toNat]
  · rintro ⟨most, rfl⟩
    have fits : r.results.length < 2 ^ 64 := by omega
    have counted : (UInt64.ofNat r.results.length).toNat = r.results.length :=
      UInt64.toNat_ofNat_of_lt' fits
    have width : (r.results.flatMap u64Bytes).length = 8 * r.results.length :=
      length_flatMap_uniform _ fun word _ => length_u64Bytes word
    have capped : ¬ UInt64.ofNat r.results.length > (1 : UInt64) <<< 28 := by
      rw [gt_iff_lt, UInt64.lt_iff_toNat_lt, counted]
      exact Nat.not_lt.mpr most
    have measured : UInt64.ofNat (r.results.flatMap u64Bytes).length =
        UInt64.ofNat r.results.length * 8 := by
      rw [width, Nat.mul_comm, UInt64.ofNat_mul]
      rfl
    have words : readWords r.results.length (r.results.flatMap u64Bytes) =
        some (r.results, []) :=
      readWords_eq_some.mpr ⟨rfl, (List.append_nil _).symm⟩
    unfold matrixDeserializeResponse matrixSerializeResponse
    refine (bind_of_eq (readU32_u32Bytes _ _)).trans ?_
    refine (bind_of_eq (readU64_u64Bytes _ _)).trans ?_
    dsimp only
    rw [if_neg capped, if_neg (not_not.mpr measured), counted]
    exact bind_of_eq words

/-- Both codecs are exact: what is written is read back, nothing else is read,
and reading a request loses no more than the spelling of its flags. -/
theorem codec_exact :
    (∀ r, matrixDeserializeRequest (matrixSerializeRequest r) = some r) ∧
    (∀ bytes, (matrixDeserializeRequest bytes).isSome ↔
      bytes.length = 106 ∧ 1 ≤ kindField bytes ∧ kindField bytes ≤ 5 ∧
        cmpField bytes ≤ 6) ∧
    (∀ bytes r, matrixDeserializeRequest bytes = some r →
      matrixSerializeRequest r = normalizeFlags bytes) ∧
    (∀ r, r.results.length ≤ 2 ^ 28 →
      matrixDeserializeResponse (matrixSerializeResponse r) = some r) ∧
    (∀ bytes, (matrixDeserializeResponse bytes).isSome ↔
      ∃ r, r.results.length ≤ 2 ^ 28 ∧ bytes = matrixSerializeResponse r) := by
  refine ⟨deserialize_serialize, deserialize_isSome_iff,
    fun _ _ => serialize_deserialized, ?_, ?_⟩
  · intro r most
    exact (deserialize_response_iff _ r).mpr ⟨most, rfl⟩
  · intro bytes
    rw [Option.isSome_iff_exists]
    exact exists_congr fun r => deserialize_response_iff bytes r

end MatrixDB
