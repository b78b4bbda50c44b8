import MatrixDB.Lib.Bytes

/-!
# Tokens and literals (`matrixparse_tokenize` and the number parsers)

A query string is a byte string.  Characters are classified as in the "C"
locale, and `std::from_chars` and `std::lower_bound` are written out;
`std::strtod` is an argument of whatever calls it.
-/

namespace MatrixDB

open Lib

/-- The bytes of a string literal. -/
def ascii (text : String) : Bytes :=
  text.toList.map fun c => UInt8.ofNat c.toNat

/-! ## Characters -/

/-- `std::isspace`. -/
def isSpace (c : UInt8) : Bool := c == 32 || (9 ≤ c && c ≤ 13)

/-- `std::toupper`. -/
def toUpper (c : UInt8) : UInt8 := if 97 ≤ c && c ≤ 122 then c - 32 else c

def up (text : Bytes) : Bytes := text.map toUpper

def isParen (c : UInt8) : Bool := c == '('.toUInt8 || c == ')'.toUInt8

def isOperator (c : UInt8) : Bool :=
  c == '>'.toUInt8 || c == '<'.toUInt8 || c == '='.toUInt8 || c == '!'.toUInt8

/-- The characters of names and numbers. -/
def isWord (c : UInt8) : Bool := !isSpace c && !isParen c && !isOperator c

/-! ## Tokens -/

/-- The loop of `matrixparse_tokenize`; every round takes a character. -/
def tokenizeLoop : Nat → Bytes → List Bytes
  | 0, _ => []
  | _ + 1, [] => []
  | fuel + 1, c :: rest =>
      if isSpace c then tokenizeLoop fuel rest
      else if isParen c then [c] :: tokenizeLoop fuel rest
      else if isOperator c then
        match rest with
        | [] => [[c]]
        | d :: after =>
            if d = '='.toUInt8 then [c, d] :: tokenizeLoop fuel after
            else [c] :: tokenizeLoop fuel rest
      else
        (c :: rest.takeWhile isWord) ::
          tokenizeLoop fuel (rest.dropWhile isWord)

def matrixparseTokenize (s : Bytes) : List Bytes := tokenizeLoop s.length s

/-- The tokens with a blank between each two. -/
def joinTokens (tokens : List Bytes) : Bytes :=
  (tokens.intersperse [32]).flatten

/-- The next token and those after it; past the last one, the empty string. -/
def next : List Bytes → Bytes × List Bytes
  | [] => ([], [])
  | token :: tokens => (token, tokens)

/-- Lookahead in upper case. -/
def peek (tokens : List Bytes) : Bytes := up (next tokens).1

/-! ## Literals -/

def isDigit (c : UInt8) : Bool := 48 ≤ c && c ≤ 57

def digitsValue (digits : Bytes) : Nat :=
  digits.foldl (fun value c => 10 * value + (c.toNat - 48)) 0

/-- A decimal number, of any size. -/
structure Numeral (text : Bytes) (n : Nat) : Prop where
  present : text ≠ []
  digits : text.all isDigit
  value : digitsValue text = n

/-- `std::from_chars` of an unsigned type, when it takes the whole text. -/
def fromCharsUnsigned (bound : Nat) (text : Bytes) : Option Nat :=
  if text ≠ [] ∧ text.all isDigit ∧ digitsValue text < bound then
    some (digitsValue text)
  else none

def fromCharsU32 (text : Bytes) : Option UInt32 :=
  (fromCharsUnsigned (2 ^ 32) text).map UInt32.ofNat

def fromCharsU64 (text : Bytes) : Option UInt64 :=
  (fromCharsUnsigned (2 ^ 64) text).map UInt64.ofNat

/-- `std::from_chars` of a signed type, where a minus sign is allowed. -/
def fromCharsI64 : Bytes → Option Int64
  | [] => none
  | c :: rest =>
      if c = '-'.toUInt8 then
        (fromCharsUnsigned (2 ^ 63 + 1) rest).map fun value =>
          Int64.ofInt (-(value : Int))
      else (fromCharsUnsigned (2 ^ 63) (c :: rest)).map Int64.ofNat

/-- What `std::strtod` reports: the bits of the value, how many characters it
took, and whether it set `errno` to `ERANGE`. -/
structure StrtodResult where
  value : UInt64
  consumed : Nat
  erange : Bool

def singleQuote : UInt8 := 39
def doubleQuote : UInt8 := 34

/-- A literal in quotes loses them. -/
def unquote (s : Bytes) : Bytes :=
  match s.head?, s.getLast? with
  | some front, some back =>
      if 2 ≤ s.length &&
          (front == singleQuote || front == doubleQuote) && back == front
      then (s.drop 1).dropLast
      else s
  | _, _ => s

/-! ## Binary search -/

/-- The search of `std::lower_bound` and `std::upper_bound` among `len`
strings from `first` on; `right` sends it past a string. -/
def boundLoop (right : Bytes → Bool) (dict : List Bytes) :
    Nat → Nat → Nat → Nat
  | 0, first, _ => first
  | fuel + 1, first, len =>
      if len = 0 then first
      else
        let half := len / 2
        if right (dict.getD (first + half) []) then
          boundLoop right dict fuel (first + half + 1) (len - half - 1)
        else boundLoop right dict fuel first half

/-- The first code whose string is not below `x`. -/
def lowerBound (dict : List Bytes) (x : Bytes) : UInt32 :=
  UInt32.ofNat
    (boundLoop (fun s => decide (s < x)) dict dict.length 0 dict.length)

/-- The first code whose string is above `x`. -/
def upperBound (dict : List Bytes) (x : Bytes) : UInt32 :=
  UInt32.ofNat
    (boundLoop (fun s => !decide (x < s)) dict dict.length 0 dict.length)

end MatrixDB
