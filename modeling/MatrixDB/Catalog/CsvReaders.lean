import Mathlib.Data.List.Forall2
import MatrixDB.Catalog.Ingest
import MatrixDB.Catalog.Loading
import MatrixDB.Lib.Separated

/-!
# What the CSV readers read (`csv_ingest.hpp`)

Four readers share one line loop.  Each takes one field out of every data line,
so two columns read from one file with the same header flag are aligned row by
row, whatever their types are.
-/

namespace MatrixDB

open Lib CostArith

/-! ## Lines and fields -/

/-- `std::getline`: the next line and what is behind its line feed. -/
def getline : Bytes → Option (Bytes × Bytes)
  | [] => none
  | c :: file =>
      some ((c :: file).takeWhile (· != 10),
        ((c :: file).dropWhile (· != 10)).drop 1)

/-- A text is its first piece, and the pieces of what follows the separator. -/
theorem splitOn_cases (c : UInt8) (text : Bytes) :
    (text.dropWhile (· != c) = [] ∧ text.splitOn c = [text] ∧
        text.takeWhile (· != c) = text) ∨
      ∃ rest, text.dropWhile (· != c) = c :: rest ∧
        text.splitOn c = text.takeWhile (· != c) :: rest.splitOn c := by
  induction text with
  | nil => exact .inl ⟨rfl, rfl, rfl⟩
  | cons d text induction =>
      by_cases own : d = c
      · subst own
        refine .inr ⟨text, by simp, ?_⟩
        rw [List.splitOn_cons_eq_if_modifyHead]
        simp
      · have other : (d != c) = true := bne_iff_ne.mpr own
        simp only [List.dropWhile_cons, List.takeWhile_cons, other, if_true]
        rw [List.splitOn_cons_eq_if_modifyHead, if_neg (by simpa using own)]
        rcases induction with ⟨none, whole, all⟩ | ⟨rest, found, pieces⟩
        · refine .inl ⟨none, ?_, by rw [all]⟩
          rw [whole]
          rfl
        · refine .inr ⟨rest, found, ?_⟩
          rw [pieces]
          rfl

/-- The lines are what `std::getline` takes until it fails. -/
theorem csvLines_getline (file : Bytes) :
    csvLines file =
      match getline file with
      | none => []
      | some (line, rest) => line :: csvLines rest := by
  cases file with
  | nil => rfl
  | cons c file =>
      rcases splitOn_cases 10 (c :: file) with
        ⟨last, whole, all⟩ | ⟨rest, found, pieces⟩
      · simp [csvLines, getline, whole, all, last]
      · obtain ⟨first, others, split⟩ :=
          List.exists_cons_of_ne_nil (List.splitOn_ne_nil 10 rest)
        simp only [getline, found, List.drop_succ_cons, List.drop_zero]
        unfold csvLines
        rw [pieces, split]
        dsimp only
        rw [List.getLast?_cons_cons]
        split
        · rw [List.dropLast_cons_of_ne_nil (List.cons_ne_nil _ _)]
        · rfl

/-- The walk to a field finds the delimiters in front of it, if there are as
many. -/
theorem csvField_eq (delim : UInt8) (k : Nat) (line : Bytes) :
    csvField delim k line =
      if k < (line.splitOn delim).length then
        some ([delim].intercalate ((line.splitOn delim).drop k))
      else none := by
  induction k generalizing line with
  | zero =>
      have some := List.length_pos_of_ne_nil (List.splitOn_ne_nil delim line)
      rw [if_pos some, List.drop_zero, List.intercalate_splitOn]
      rfl
  | succ k induction =>
      rcases splitOn_cases delim line with
        ⟨last, whole, _⟩ | ⟨rest, found, pieces⟩
      · simp [csvField, last, whole]
      · simp only [csvField, found, pieces, List.length_cons,
          List.drop_succ_cons, Nat.add_lt_add_iff_right]
        exact induction rest

/-- The field ends in front of the next delimiter. -/
theorem takeWhile_csvField {delim : UInt8} {k : Nat} {line rest : Bytes}
    (walked : csvField delim k line = some rest) :
    (line.splitOn delim)[k]? = some (rest.takeWhile (· != delim)) := by
  induction k generalizing line with
  | zero =>
      have same : line = rest := Option.some.inj walked
      subst same
      rcases splitOn_cases delim line with
        ⟨_, whole, all⟩ | ⟨_, _, pieces⟩
      · simp [whole, all]
      · simp [pieces]
  | succ k induction =>
      rcases splitOn_cases delim line with
        ⟨last, _, _⟩ | ⟨behind, found, pieces⟩
      · simp [csvField, last] at walked
      · simp only [csvField, found] at walked
        rw [pieces, List.getElem?_cons_succ]
        exact induction walked

/-! ## Integers -/

/-- A decimal number that a minus sign may precede. -/
inductive SignedNumeral : Bytes → Int → Prop where
  | plain {text : Bytes} {n : Nat} (numeral : Numeral text n) :
      SignedNumeral text n
  | minus {text : Bytes} {n : Nat} (numeral : Numeral text n) :
      SignedNumeral ('-'.toUInt8 :: text) (-n)

theorem fromCharsUnsigned_eq_some {bound n : Nat} {text : Bytes} :
    fromCharsUnsigned bound text = some n ↔ Numeral text n ∧ n < bound := by
  unfold fromCharsUnsigned
  constructor
  · intro read
    split at read
    · rename_i all
      cases read
      exact ⟨⟨all.1, all.2.1, rfl⟩, all.2.2⟩
    · cases read
  · rintro ⟨numeral, small⟩
    rw [numeral.value, if_pos ⟨numeral.present, numeral.digits, small⟩]

theorem fromCharsU32_eq_some {text : Bytes} {value : UInt32} :
    fromCharsU32 text = some value ↔ Numeral text value.toNat := by
  unfold fromCharsU32
  rw [Option.map_eq_some_iff]
  constructor
  · rintro ⟨n, read, rfl⟩
    obtain ⟨numeral, small⟩ := fromCharsUnsigned_eq_some.mp read
    rw [UInt32.toNat_ofNat_of_lt' small]
    exact numeral
  · intro numeral
    refine ⟨value.toNat, ?_, UInt32.ofNat_toNat⟩
    exact fromCharsUnsigned_eq_some.mpr ⟨numeral, value.toNat_lt⟩

/-- A number begins with a digit. -/
theorem Numeral.unsigned {rest : Bytes} {n : Nat} :
    ¬ Numeral ('-'.toUInt8 :: rest) n := by
  intro numeral
  have first := List.all_eq_true.mp numeral.digits _ List.mem_cons_self
  exact absurd first (by decide)

theorem fromCharsI64_eq_some {text : Bytes} {value : Int64} :
    fromCharsI64 text = some value ↔ SignedNumeral text value.toInt := by
  constructor
  · intro read
    cases text with
    | nil => cases read
    | cons c rest =>
        rw [fromCharsI64] at read
        split at read
        · rename_i sign
          subst sign
          obtain ⟨_, negated, rfl⟩ := Option.map_eq_some_iff.mp read
          obtain ⟨n, digits, same⟩ := Option.bind_eq_some_iff.mp negated
          cases same
          obtain ⟨numeral, small⟩ := fromCharsUnsigned_eq_some.mp digits
          rw [Int64.toInt_ofInt_of_le (by omega) (by omega)]
          exact .minus numeral
        · obtain ⟨n, digits, rfl⟩ := Option.map_eq_some_iff.mp read
          obtain ⟨numeral, small⟩ := fromCharsUnsigned_eq_some.mp digits
          rw [Int64.toInt_ofNat_of_lt small]
          exact .plain numeral
  · intro signed
    have low := value.le_toInt
    have high := value.toInt_lt
    generalize meant : value.toInt = z at signed low high
    cases signed with
    | plain numeral =>
        rename_i n
        obtain ⟨c, rest, rfl⟩ := List.exists_cons_of_ne_nil numeral.present
        have unsigned : c ≠ '-'.toUInt8 := by
          intro sign
          subst sign
          exact Numeral.unsigned numeral
        have read := fromCharsUnsigned_eq_some.mpr
          ⟨numeral, (by omega : n < 2 ^ 63)⟩
        rw [fromCharsI64, if_neg unsigned, read, Option.map_some]
        apply congrArg some
        apply Int64.toInt_inj.mp
        rw [Int64.toInt_ofNat_of_lt (by omega), meant]
    | minus numeral =>
        rename_i rest n
        have read := fromCharsUnsigned_eq_some.mpr
          ⟨numeral, (by omega : n < 2 ^ 63 + 1)⟩
        rw [fromCharsI64, if_pos rfl, read]
        apply congrArg some
        apply Int64.toInt_inj.mp
        rw [Int64.toInt_ofInt_of_le (by omega) (by omega), meant]

/-! ## The line loop -/

section
variable {A : Type} (parse : Bytes → Nat → Option A) (colIndex : Nat)
  (hasHeader : Bool) (delim : UInt8)

/-- The loop that the four readers share: what a reader returns and what `out`
holds then.  `first` is set until a line has been taken. -/
def csvLoop : Bool → List Bytes → List A → Bool × List A
  | _, [], out => (true, out)
  | first, line :: lines, out =>
      if hasHeader && first then csvLoop false lines out
      else
        match csvField delim colIndex (chomp line) with
        | none => (false, [])
        | some rest =>
            match parse rest (rest.takeWhile (· != delim)).length with
            | none => (false, [])
            | some value => csvLoop false lines (out ++ [value])

/-- What a reader returns, and `out`, when it has gathered its values or has
given up. -/
def csvAnswer : Option (List A) → Bool × List A
  | none => (false, [])
  | some values => (true, values)

/-- What the loop makes of one data line. -/
def csvRow (line : Bytes) : Option A := do
  let rest ← csvField delim colIndex line
  parse rest (rest.takeWhile (· != delim)).length

variable {parse colIndex hasHeader delim}

/-- The loop goes on for as long as every line has its value. -/
theorem csvLoop_rows {lines : List Bytes} {out : List A} :
    csvLoop parse colIndex hasHeader delim false lines out =
      csvAnswer (((lines.map chomp).mapM (csvRow parse colIndex delim)).map
        (out ++ ·)) := by
  induction lines generalizing out with
  | nil => simp [csvLoop, csvAnswer]
  | cons line lines induction =>
      rw [List.map_cons, List.mapM_cons, csvLoop]
      simp only [Bool.and_false, Bool.false_eq_true, if_false, csvRow]
      cases csvField delim colIndex (chomp line) with
      | none => rfl
      | some rest =>
          simp only [Option.bind_eq_bind, Option.bind_some]
          cases parse rest (rest.takeWhile (· != delim)).length with
          | none => rfl
          | some value =>
              simp only [induction, Option.bind_some]
              unfold csvRow
              cases (lines.map chomp).mapM fun line =>
                (csvField delim colIndex line).bind fun rest =>
                  parse rest (rest.takeWhile (· != delim)).length with
              | none => rfl
              | some values => simp [csvAnswer]

theorem csvLoop_eq (file : Bytes) :
    csvLoop parse colIndex hasHeader delim true (csvLines file) [] =
      csvAnswer
        ((csvRows hasHeader file).mapM (csvRow parse colIndex delim)) := by
  unfold csvRows
  dsimp only
  cases csvLines file with
  | nil => cases hasHeader <;> rfl
  | cons line lines =>
      cases hasHeader with
      | true =>
          rw [csvLoop, Bool.and_self, if_pos rfl, csvLoop_rows]
          simp only [List.nil_append, List.map_cons, if_true,
            List.drop_succ_cons, List.drop_zero, Option.map_id']
      | false =>
          have same :
              csvLoop parse colIndex false delim true (line :: lines) [] =
              csvLoop parse colIndex false delim false (line :: lines) [] := rfl
          rw [same, csvLoop_rows]
          simp only [List.nil_append, Bool.false_eq_true, if_false,
            Option.map_id']

end

/-- A list is run through to its end where each item has its value. -/
theorem forall₂_of_mapM {A B : Type} {f : A → Option B} {xs : List A}
    {ys : List B} (made : xs.mapM f = some ys) :
    List.Forall₂ (fun x y => f x = some y) xs ys := by
  induction xs generalizing ys with
  | nil =>
      cases made
      exact .nil
  | cons x xs induction =>
      rw [List.mapM_cons] at made
      obtain ⟨y, first, made⟩ := Option.bind_eq_some_iff.mp made
      obtain ⟨others, rest, made⟩ := Option.bind_eq_some_iff.mp made
      cases made
      exact .cons first (induction rest)

theorem exists_mapM {A B : Type} {f : A → Option B} {xs : List A}
    (each : ∀ x ∈ xs, ∃ y, f x = some y) : ∃ ys, xs.mapM f = some ys := by
  induction xs with
  | nil => exact ⟨[], rfl⟩
  | cons x xs induction =>
      obtain ⟨y, first⟩ := each x List.mem_cons_self
      obtain ⟨ys, rest⟩ :=
        induction fun other member => each other (List.mem_cons_of_mem x member)
      refine ⟨y :: ys, ?_⟩
      rw [List.mapM_cons, first, rest]
      rfl

/-! ## The readers -/

inductive CsvReader where
  | u32
  | i64
  | f64
  | str
  deriving DecidableEq, Repr

namespace CsvReader

/-- A double is given by its bits. -/
abbrev Value : CsvReader → Type
  | .u32 => UInt32
  | .i64 => Int64
  | .f64 => UInt64
  | .str => Bytes

variable (strtod : Bytes → StrtodResult)

def parse : (reader : CsvReader) → Bytes → Nat → Option reader.Value
  | .u32 => fun rest length => fromCharsU32 (rest.take length)
  | .i64 => fun rest length => fromCharsI64 (rest.take length)
  | .f64 => fun rest length =>
      let read := strtod rest
      if length = 0 ∨ read.erange ∨ read.consumed ≠ length then none
      else some read.value
  | .str => fun rest length => some (rest.take length)

/-- The reader's answer for a file that can be opened, and `out`. -/
def read (reader : CsvReader) (file : Bytes) (colIndex : Nat)
    (hasHeader : Bool) (delim : UInt8) : Bool × List reader.Value :=
  csvLoop (reader.parse strtod) colIndex hasHeader delim true (csvLines file) []

/-- What a field says.  Of the line from the field on, `rest`, only `strtod`
gets to see more than the field. -/
def Says : (reader : CsvReader) → (field rest : Bytes) → reader.Value → Prop
  | .u32, field, _, value => Numeral field value.toNat
  | .i64, field, _, value => SignedNumeral field value.toInt
  | .f64, field, rest, value =>
      field ≠ [] ∧ (strtod rest).consumed = field.length ∧
        (strtod rest).erange = false ∧ (strtod rest).value = value
  | .str, field, _, value => value = field

/-- A line whose field, the one with the given index, says a value. -/
def Row (reader : CsvReader) (colIndex : Nat) (delim : UInt8) (line : Bytes)
    (value : reader.Value) : Prop :=
  ∃ field, (line.splitOn delim)[colIndex]? = some field ∧
    reader.Says strtod field
      ([delim].intercalate ((line.splitOn delim).drop colIndex)) value

variable {strtod} {reader : CsvReader} {colIndex : Nat} {hasHeader : Bool}
  {delim : UInt8}

theorem parse_eq_some {field rest : Bytes} {value : reader.Value}
    (front : rest.take field.length = field) :
    reader.parse strtod rest field.length = some value ↔
      reader.Says strtod field rest value := by
  cases reader with
  | u32 =>
      simp only [parse, Says, front]
      exact fromCharsU32_eq_some
  | i64 =>
      simp only [parse, Says, front]
      exact fromCharsI64_eq_some
  | f64 =>
      simp only [parse, Says]
      by_cases empty : field = []
      · simp [empty]
      · have some : field.length ≠ 0 := mt List.length_eq_zero_iff.mp empty
        by_cases whole : (strtod rest).consumed = field.length
        · cases (strtod rest).erange <;> simp [empty, whole]
        · simp [whole]
  | str =>
      simp only [parse, Says, front, Option.some.injEq]
      exact eq_comm

theorem csvRow_eq_some {line : Bytes} {value : reader.Value} :
    csvRow (reader.parse strtod) colIndex delim line = some value ↔
      reader.Row strtod colIndex delim line value := by
  unfold csvRow Row
  simp only [Option.bind_eq_bind]
  constructor
  · intro made
    obtain ⟨rest, walked, parsed⟩ := Option.bind_eq_some_iff.mp made
    have front : rest.take (rest.takeWhile (· != delim)).length =
        rest.takeWhile (· != delim) :=
      List.prefix_iff_eq_take.mp (List.takeWhile_prefix _) |>.symm
    refine ⟨_, takeWhile_csvField walked, ?_⟩
    have whole := walked
    rw [csvField_eq] at whole
    split at whole
    · rw [Option.some.inj whole]
      exact (parse_eq_some front).mp parsed
    · cases whole
  · rintro ⟨field, listed, meant⟩
    obtain ⟨inside, _⟩ := List.getElem?_eq_some_iff.mp listed
    have walked := csvField_eq delim colIndex line
    rw [if_pos inside] at walked
    rw [walked, Option.bind_some]
    have taken := takeWhile_csvField walked
    rw [listed] at taken
    rw [← Option.some.inj taken]
    apply (parse_eq_some _).mpr meant
    rw [Option.some.inj taken]
    exact (List.prefix_iff_eq_take.mp (List.takeWhile_prefix _)).symm

/-! ## Exactness and alignment -/

theorem read_eq (file : Bytes) :
    reader.read strtod file colIndex hasHeader delim =
      csvAnswer ((csvRows hasHeader file).mapM
        (csvRow (reader.parse strtod) colIndex delim)) :=
  csvLoop_eq file

/-- A reader takes the field of every data line, or nothing. -/
structure Exact (strtod : Bytes → StrtodResult) (reader : CsvReader)
    (file : Bytes) (colIndex : Nat) (hasHeader : Bool) (delim : UInt8) :
    Prop where
  accepts : (reader.read strtod file colIndex hasHeader delim).1 = true ↔
    ∀ line ∈ csvRows hasHeader file,
      ∃ value, reader.Row strtod colIndex delim line value
  rows : (reader.read strtod file colIndex hasHeader delim).1 = true →
    List.Forall₂ (reader.Row strtod colIndex delim) (csvRows hasHeader file)
      (reader.read strtod file colIndex hasHeader delim).2
  refuses : (reader.read strtod file colIndex hasHeader delim).1 = false →
    (reader.read strtod file colIndex hasHeader delim).2 = []

theorem exact (strtod : Bytes → StrtodResult) (reader : CsvReader)
    (file : Bytes) (colIndex : Nat) (hasHeader : Bool) (delim : UInt8) :
    Exact strtod reader file colIndex hasHeader delim := by
  have read : reader.read strtod file colIndex hasHeader delim =
      csvAnswer ((csvRows hasHeader file).mapM
        (csvRow (reader.parse strtod) colIndex delim)) := read_eq file
  cases made : (csvRows hasHeader file).mapM
      (csvRow (reader.parse strtod) colIndex delim) with
  | none =>
      rw [made] at read
      refine ⟨?_, ?_, ?_⟩
      · rw [read]
        refine ⟨fun wrong => (nomatch wrong), ?_⟩
        intro all
        obtain ⟨values, whole⟩ := exists_mapM fun line member =>
          (all line member).imp fun value row => csvRow_eq_some.mpr row
        cases made.symm.trans whole
      · rw [read]
        exact fun wrong => nomatch wrong
      · rw [read]
        exact fun _ => rfl
  | some values =>
      rw [made] at read
      have rows := forall₂_of_mapM made
      refine ⟨?_, ?_, ?_⟩
      · rw [read]
        refine ⟨fun _ line member => ?_, fun _ => rfl⟩
        obtain ⟨value, _, row⟩ := related_right rows member
        exact ⟨value, csvRow_eq_some.mp row⟩
      · rw [read]
        exact fun _ => rows.imp fun line value row => csvRow_eq_some.mp row
      · rw [read]
        exact fun wrong => nomatch wrong

end CsvReader

theorem read_matrixReadCsvColumn (strtod : Bytes → StrtodResult) (file : Bytes)
    (colIndex : Nat) (hasHeader : Bool) (delim : UInt8) :
    CsvReader.u32.read strtod file colIndex hasHeader delim =
      csvAnswer (matrixReadCsvColumn file colIndex hasHeader delim) :=
  CsvReader.read_eq file

theorem read_matrixReadCsvColumnI64 (strtod : Bytes → StrtodResult)
    (file : Bytes) (colIndex : Nat) (hasHeader : Bool) (delim : UInt8) :
    CsvReader.i64.read strtod file colIndex hasHeader delim =
      csvAnswer (matrixReadCsvColumnI64 file colIndex hasHeader delim) :=
  CsvReader.read_eq file

theorem read_matrixReadCsvColumnF64 (strtod : Bytes → StrtodResult)
    (file : Bytes) (colIndex : Nat) (hasHeader : Bool) (delim : UInt8) :
    CsvReader.f64.read strtod file colIndex hasHeader delim =
      csvAnswer (matrixReadCsvColumnF64 strtod file colIndex hasHeader delim) :=
  CsvReader.read_eq file

theorem read_matrixReadCsvColumnStr (strtod : Bytes → StrtodResult)
    (file : Bytes) (colIndex : Nat) (hasHeader : Bool) (delim : UInt8) :
    CsvReader.str.read strtod file colIndex hasHeader delim =
      csvAnswer (matrixReadCsvColumnStr file colIndex hasHeader delim) :=
  CsvReader.read_eq file

/-! ## Loads -/

section
variable {κ : Type} [CostArith κ]

/-- The catalog's load by a reader. -/
def CsvReader.load (strtod : Bytes → StrtodResult) (catalog : Catalog κ)
    (id : UInt64) (source : Catalog.CsvSource) :
    CsvReader → Option (Bool × Catalog κ)
  | .u32 => catalog.loadColumnFromCsv id source
  | .i64 => catalog.loadColumnFromCsvI64 id source
  | .f64 => catalog.loadColumnFromCsvF64 strtod id source
  | .str => catalog.loadStringColumnFromCsv id source

end

section
variable {κ : Type} [SoundCost κ] {strtod : Bytes → StrtodResult}
  {catalog after : Catalog κ} {reader : CsvReader} {id : UInt64}
  {source : Catalog.CsvSource}

omit [SoundCost κ] in
theorem loadParsed_true {A : Type} {data : Option A}
    {load : A → Option (Catalog κ)}
    (loaded : catalog.loadParsed data load = some (true, after)) :
    ∃ values, data = some values ∧ load values = some after := by
  cases data with
  | none => cases loaded
  | some values =>
      obtain ⟨_, went, same⟩ := Option.map_eq_some_iff.mp loaded
      cases same
      exact ⟨values, rfl, went⟩

theorem CsvReader.source_reads (strtod : Bytes → StrtodResult)
    (reader : CsvReader)    {values : List reader.Value}
    (read : source.read (readCsv (reader.parse strtod)) = some values) :
    ∃ file, source.file = some file ∧
      (reader.read strtod file source.colIndex source.hasHeader
        source.delim).1 = true ∧
      values.length = (csvRows source.hasHeader file).length := by
  obtain ⟨file, opened, made⟩ := Option.bind_eq_some_iff.mp read
  refine ⟨file, opened, ?_, (forall₂_of_mapM made).length_eq.symm⟩
  rw [read_eq]
  exact congrArg (fun made => (csvAnswer made).1) made

/-- A column loaded from CSV has a row for every data line. -/
theorem CsvReader.load_rows (wellFormed : catalog.WellFormed)
    (loaded : reader.load strtod catalog id source = some (true, after)) :
    ∃ file column, source.file = some file ∧
      (reader.read strtod file source.colIndex source.hasHeader
        source.delim).1 = true ∧
      after.view id = some column ∧
      column.rows = (csvRows source.hasHeader file).length := by
  cases reader with
  | u32 =>
      obtain ⟨values, read, went⟩ := loadParsed_true loaded
      obtain ⟨file, opened, fine, rows⟩ := source_reads strtod .u32 read
      have loads := Catalog.loadScanColumn_loads wellFormed went
      refine ⟨file, _, opened, fine, loads.view_self, ?_⟩
      rw [← rows]
      simp only [ColumnView.rows, MatrixType.width,
        Catalog.length_flatMap_u32Bytes]
      exact Nat.mul_div_cancel_left _ (by decide)
  | i64 =>
      obtain ⟨values, read, went⟩ := loadParsed_true loaded
      obtain ⟨file, opened, fine, rows⟩ := source_reads strtod .i64 read
      have loads := Catalog.loadScanColumnI64_loads wellFormed went
      refine ⟨file, _, opened, fine, loads.view_self, ?_⟩
      rw [← rows]
      simp only [ColumnView.rows, MatrixType.width,
        Catalog.length_flatMap_u64Bytes]
      exact Nat.mul_div_cancel_left _ (by decide)
  | f64 =>
      obtain ⟨values, read, went⟩ := loadParsed_true loaded
      obtain ⟨file, opened, fine, rows⟩ := source_reads strtod .f64 read
      have loads := Catalog.loadScanColumnF64_loads wellFormed went
      refine ⟨file, _, opened, fine, loads.view_self, ?_⟩
      rw [← rows]
      simp only [ColumnView.rows, MatrixType.width,
        Catalog.length_flatMap_u64Bytes fun value => value]
      exact Nat.mul_div_cancel_left _ (by decide)
  | str =>
      obtain ⟨values, read, went⟩ := loadParsed_true loaded
      obtain ⟨file, opened, fine, rows⟩ := source_reads strtod .str read
      obtain ⟨_, middle, first, rfl⟩ := Catalog.loadStringColumnDict_eq went
      have loads := Catalog.loadScanColumn_loads wellFormed first
      refine ⟨file, _, opened, fine, loads.view_self, ?_⟩
      rw [← rows]
      simp only [ColumnView.rows, MatrixType.width,
        Catalog.length_flatMap_u32Bytes, List.length_map]
      exact Nat.mul_div_cancel_left _ (by decide)

/-- Two reads of one file that succeed have a row for every data line, and
each row of both comes from the same line. -/
structure CsvAligned (strtod : Bytes → StrtodResult) (left right : CsvReader)
    (file : Bytes) (leftCol rightCol : Nat) (hasHeader : Bool)
    (delim : UInt8) : Prop where
  length : (left.read strtod file leftCol hasHeader delim).2.length =
    (right.read strtod file rightCol hasHeader delim).2.length
  row : ∀ (k : Nat) (value : left.Value) (other : right.Value),
    (left.read strtod file leftCol hasHeader delim).2[k]? = some value →
    (right.read strtod file rightCol hasHeader delim).2[k]? = some other →
    ∃ line, (csvRows hasHeader file)[k]? = some line ∧
      left.Row strtod leftCol delim line value ∧
      right.Row strtod rightCol delim line other

theorem csv_aligned {left right : CsvReader} {file : Bytes}
    {leftCol rightCol : Nat} {hasHeader : Bool} {delim : UInt8}
    (first : (left.read strtod file leftCol hasHeader delim).1 = true)
    (second : (right.read strtod file rightCol hasHeader delim).1 = true) :
    CsvAligned strtod left right file leftCol rightCol hasHeader delim := by
  have leftRows := (CsvReader.exact strtod left file leftCol hasHeader
    delim).rows first
  have rightRows := (CsvReader.exact strtod right file rightCol hasHeader
    delim).rows second
  refine ⟨leftRows.length_eq.symm.trans rightRows.length_eq, ?_⟩
  intro k value other here there
  obtain ⟨inside, rfl⟩ := List.getElem?_eq_some_iff.mp here
  obtain ⟨_, rfl⟩ := List.getElem?_eq_some_iff.mp there
  have listed : k < (csvRows hasHeader file).length := by
    rw [leftRows.length_eq]
    exact inside
  exact ⟨_, List.getElem?_eq_getElem listed, leftRows.get listed inside,
    rightRows.get listed _⟩

/-- The readers are exact, two loads of one file are aligned, and so are the
columns they register. -/
theorem csv_loads_exact (strtod : Bytes → StrtodResult) (file : Bytes)
    (hasHeader : Bool) (delim : UInt8) :
    (∀ (reader : CsvReader) (colIndex : Nat),
      CsvReader.Exact strtod reader file colIndex hasHeader delim) ∧
    (∀ (left right : CsvReader) (leftCol rightCol : Nat),
      (left.read strtod file leftCol hasHeader delim).1 = true →
      (right.read strtod file rightCol hasHeader delim).1 = true →
      CsvAligned strtod left right file leftCol rightCol hasHeader delim) ∧
    (∀ (reader : CsvReader) (colIndex : Nat) (catalog after : Catalog κ)
      (id : UInt64), catalog.WellFormed →
      reader.load strtod catalog id ⟨some file, colIndex, hasHeader, delim⟩ =
        some (true, after) →
      (reader.read strtod file colIndex hasHeader delim).1 = true ∧
      ∃ column, after.view id = some column ∧
        column.rows = (csvRows hasHeader file).length) := by
  refine ⟨?_, ?_, ?_⟩
  · intro reader colIndex
    exact CsvReader.exact strtod reader file colIndex hasHeader delim
  · intro left right leftCol rightCol first second
    exact csv_aligned first second
  · intro reader colIndex catalog after id wellFormed loaded
    obtain ⟨opened, column, same, fine, view, rows⟩ :=
      CsvReader.load_rows wellFormed loaded
    cases same
    exact ⟨fine, column, view, rows⟩

end

end MatrixDB
