import MatrixDB.Query.Projection

/-!
# Queries put together from tokens

`avg_query`, `having_query` and `project_query` change some tokens of a text or
leave some out, and join what they keep with blanks.  What they hand to the
parser has exactly these tokens.
-/

namespace MatrixDB

open Lib CostArith

/-- A name or a number: characters that no other token may have. -/
def IsName (token : Bytes) : Prop := token ≠ [] ∧ ∀ c ∈ token, isWord c

theorem IsName.alone {token : Bytes} (name : IsName token) :
    Tokens token [token] := by
  obtain ⟨present, word⟩ := name
  obtain ⟨c, w, rfl⟩ := List.exists_cons_of_ne_nil present
  obtain ⟨first, same⟩ := List.forall_mem_cons.mp word
  have whole := Tokens.word first same (by simp) .nil
  rwa [List.append_nil] at whole

theorem not_isWord_of_paren {c : UInt8} (bracket : isParen c) :
    ¬ isWord c := by
  intro word
  rw [(isWord_eq_true.mp word).2.1] at bracket
  cases bracket

theorem not_isWord_of_operator {c : UInt8} (operator : isOperator c) :
    ¬ isWord c := by
  intro word
  rw [(isWord_eq_true.mp word).2.2] at operator
  cases operator

/-- What stands in front of a name does not touch it, whichever name it is. -/
theorem head?_of_name {x y token w : Bytes} {P : UInt8 → Prop}
    (name : IsName w) (plain : ∀ c, isWord c → P c)
    (ends : ∀ d ∈ (x ++ (token ++ y)).head?, P d) :
    ∀ d ∈ (x ++ (w ++ y)).head?, P d := by
  cases x with
  | nil =>
      obtain ⟨c, w, rfl⟩ := List.exists_cons_of_ne_nil name.1
      intro d head
      cases head
      exact plain c (name.2 c List.mem_cons_self)
  | cons c x => exact ends

/-- A name may be replaced by another one where it stands. -/
theorem Tokens.replace {text token : Bytes} {front back : List Bytes}
    (made : Tokens text (front ++ token :: back)) (name : IsName token) :
    ∃ x y, text = x ++ (token ++ y) ∧ ∀ w, IsName w →
      Tokens (x ++ (w ++ y)) (front ++ w :: back) := by
  generalize listed : front ++ token :: back = tokens at made
  induction made generalizing front with
  | nil => cases List.append_ne_nil_of_right_ne_nil front (by simp) listed
  | @space c rest tokens blank _ induction =>
      obtain ⟨x, y, rfl, replaced⟩ := induction listed
      exact ⟨c :: x, y, rfl, fun w name => .space blank (replaced w name)⟩
  | @paren c rest tokens bracket behind induction =>
      cases front with
      | nil =>
          cases listed
          exact absurd (name.2 c List.mem_cons_self)
            (not_isWord_of_paren bracket)
      | cons first front =>
          obtain ⟨rfl, later⟩ := List.cons.inj listed
          obtain ⟨x, y, rfl, replaced⟩ := induction later
          exact ⟨c :: x, y, rfl, fun w name => .paren bracket (replaced w name)⟩
  | @sign c rest tokens operator alone behind induction =>
      cases front with
      | nil =>
          cases listed
          exact absurd (name.2 c List.mem_cons_self)
            (not_isWord_of_operator operator)
      | cons first front =>
          obtain ⟨rfl, later⟩ := List.cons.inj listed
          obtain ⟨x, y, rfl, replaced⟩ := induction later
          refine ⟨c :: x, y, rfl, ?_⟩
          intro w name
          refine .sign operator (head?_of_name name ?_ alone) (replaced w name)
          rintro d word rfl
          exact absurd word (by decide)
  | @pair c rest tokens operator behind induction =>
      cases front with
      | nil =>
          cases listed
          exact absurd (name.2 c List.mem_cons_self)
            (not_isWord_of_operator operator)
      | cons first front =>
          obtain ⟨rfl, later⟩ := List.cons.inj listed
          obtain ⟨x, y, rfl, replaced⟩ := induction later
          exact ⟨c :: '='.toUInt8 :: x, y, rfl,
            fun w name => .pair operator (replaced w name)⟩
  | @word c v rest tokens first same ends behind induction =>
      cases front with
      | nil =>
          cases listed
          refine ⟨[], rest, rfl, ?_⟩
          intro w name
          obtain ⟨d, w, rfl⟩ := List.exists_cons_of_ne_nil name.1
          obtain ⟨first, same⟩ := List.forall_mem_cons.mp name.2
          exact .word first same ends behind
      | cons word front =>
          obtain ⟨rfl, later⟩ := List.cons.inj listed
          obtain ⟨x, y, rfl, replaced⟩ := induction later
          refine ⟨c :: (v ++ x), y, by simp, ?_⟩
          intro w name'
          have ends' : ∀ d ∈ (x ++ (w ++ y)).head?, isWord d = false := by
            cases x with
            | nil =>
                obtain ⟨e, token, rfl⟩ := List.exists_cons_of_ne_nil name.1
                have touches := ends e rfl
                rw [name.2 e List.mem_cons_self] at touches
                cases touches
            | cons e x => exact ends
          have made := Tokens.word first same ends' (replaced w name')
          simpa using made

/-! ## Joined tokens -/

theorem matrixparseTokenize_alone (s : Bytes) :
    ∀ token ∈ matrixparseTokenize s, Tokens token [token] :=
  (tokens_matrixparseTokenize s).alone

/-- Some of the tokens of a text, in any order. -/
theorem matrixparseTokenize_join_subset {s : Bytes} {tokens : List Bytes}
    (some : tokens ⊆ matrixparseTokenize s) :
    matrixparseTokenize (joinTokens tokens) = tokens :=
  matrixparseTokenize_joinTokens fun token member =>
    matrixparseTokenize_alone s token (some member)

theorem matrixparseTokenize_join_replace {s token w : Bytes}
    {front back : List Bytes}
    (tokens : matrixparseTokenize s = front ++ token :: back)
    (alone : Tokens w [w]) :
    matrixparseTokenize (joinTokens (front ++ w :: back)) =
      front ++ w :: back := by
  apply matrixparseTokenize_joinTokens
  intro other member
  have mine := matrixparseTokenize_alone s other
  rw [tokens] at mine
  rcases List.mem_append.mp member with before | behind
  · exact mine (List.mem_append_left _ before)
  · rcases List.mem_cons.mp behind with rfl | after
    · exact alone
    · exact mine (List.mem_append_right _ (List.mem_cons_of_mem _ after))

/-- The string that a filter of a projection is parsed in, as it is put
together. -/
theorem joinTokens_count (f : Bytes) (region : List Bytes) :
    joinTokens (ascii "SELECT" :: ascii "COUNT" :: ascii "(" :: f ::
        ascii ")" :: region) =
      ascii "SELECT COUNT ( " ++ f ++ ascii " )" ++
        region.flatMap fun token => 32 :: token := by
  have behind : ∀ (first : Bytes) (tokens : List Bytes),
      joinTokens (first :: tokens) =
        first ++ tokens.flatMap fun token => 32 :: token := by
    intro first tokens
    induction tokens generalizing first with
    | nil => simp [joinTokens]
    | cons next tokens induction =>
        have later := induction next
        simp only [joinTokens] at later
        simp [joinTokens, later]
  rw [behind]
  simp [ascii]

variable {κ : Type}

/-- The parser sees the tokens only. -/
theorem Catalog.parseQuery_of_tokens (strtod : Bytes → StrtodResult)
    (catalog : Catalog κ) {left right : Bytes}
    (same : matrixparseTokenize left = matrixparseTokenize right) :
    catalog.parseQuery strtod left = catalog.parseQuery strtod right := by
  simp only [Catalog.parseQuery, Catalog.parseQueryImpl, Catalog.parseHead, same]

/-! ## Texts made of the tokens of a text -/

/-- Which tokens the texts made of the tokens of `s` have, and which text of
these tokens is parsed instead. -/
structure Rejoins (strtod : Bytes → StrtodResult) (catalog : Catalog κ)
    (s : Bytes) : Prop where
  stable : matrixparseTokenize (joinTokens (matrixparseTokenize s)) =
    matrixparseTokenize s
  replaced : ∀ front token back w,
    matrixparseTokenize s = front ++ token :: back → IsName token → IsName w →
    matrixparseTokenize (joinTokens (front ++ w :: back)) = front ++ w :: back
  inPlace : ∀ front token back,
    matrixparseTokenize s = front ++ token :: back → IsName token →
    ∃ x y, s = x ++ (token ++ y) ∧ ∀ w, IsName w →
      matrixparseTokenize (x ++ (w ++ y)) = front ++ w :: back
  average : ∀ first agg tokens,
    matrixparseTokenize s = first :: agg :: tokens → up agg = ascii "AVG" →
    matrixparseTokenize (joinTokens (first :: ascii "SUM" :: tokens)) =
        first :: ascii "SUM" :: tokens ∧
      ∃ x y, s = x ++ (agg ++ y) ∧
        catalog.parseQuery strtod
            (joinTokens (first :: ascii "SUM" :: tokens)) =
          catalog.parseQuery strtod (x ++ (ascii "SUM" ++ y))
  having : ∀ hi, matrixparseTokenize
        (joinTokens ((matrixparseTokenize s).take hi)) =
        (matrixparseTokenize s).take hi ∧
      ∃ x y, s = x ++ y ∧
        catalog.parseQuery strtod
            (joinTokens ((matrixparseTokenize s).take hi)) =
          catalog.parseQuery strtod x
  projection : ∀ f region, f ∈ matrixparseTokenize s →
    region <:+: matrixparseTokenize s →
    matrixparseTokenize (ascii "SELECT COUNT ( " ++ f ++ ascii " )" ++
        region.flatMap fun token => 32 :: token) =
      [ascii "SELECT", ascii "COUNT", ascii "(", f, ascii ")"] ++ region

theorem isName_sum : IsName (ascii "SUM") := by
  constructor <;> decide +kernel

/-- A word in capital letters has no character of another token. -/
theorem isName_of_up {token : Bytes} (name : IsName (up token)) :
    IsName token := by
  have small : ∀ c : UInt8, isWord (toUpper c) → isWord c := by
    decide +kernel
  constructor
  · intro empty
    subst empty
    exact name.1 rfl
  · intro c member
    exact small c (name.2 _ (List.mem_map_of_mem member))

theorem tokens_rejoined (strtod : Bytes → StrtodResult) (catalog : Catalog κ)
    (s : Bytes) : Rejoins strtod catalog s := by
  refine ⟨?_, ?_, ?_, ?_, ?_, ?_⟩
  · exact matrixparseTokenize_join_subset (List.Subset.refl _)
  · intro front token back w tokens _ name
    exact matrixparseTokenize_join_replace tokens name.alone
  · intro front token back tokens name
    have made := tokens_matrixparseTokenize s
    rw [tokens] at made
    obtain ⟨x, y, same, replaced⟩ := made.replace name
    exact ⟨x, y, same, fun w other => matrixparseTokenize_eq (replaced w other)⟩
  · intro first agg tokens listed average
    have joined := matrixparseTokenize_join_replace
      (show matrixparseTokenize s = [first] ++ agg :: tokens from listed)
      isName_sum.alone
    refine ⟨joined, ?_⟩
    have made := tokens_matrixparseTokenize s
    rw [show matrixparseTokenize s = [first] ++ agg :: tokens from listed]
      at made
    have name : IsName agg := by
      apply isName_of_up
      rw [average]
      constructor <;> decide +kernel
    obtain ⟨x, y, same, replaced⟩ := made.replace name
    refine ⟨x, y, same, catalog.parseQuery_of_tokens strtod ?_⟩
    exact joined.trans (matrixparseTokenize_eq (replaced _ isName_sum)).symm
  · intro hi
    have joined : matrixparseTokenize
        (joinTokens ((matrixparseTokenize s).take hi)) =
        (matrixparseTokenize s).take hi :=
      matrixparseTokenize_join_subset (List.take_subset hi _)
    obtain ⟨x, y, same, front, _⟩ := exists_cut s hi
    exact ⟨joined, x, y, same,
      catalog.parseQuery_of_tokens strtod (joined.trans front.symm)⟩
  · intro f region listed part
    rw [← joinTokens_count]
    apply tokenize_count
    intro token member
    apply matrixparseTokenize_alone s
    rcases List.mem_cons.mp member with rfl | later
    · exact listed
    · exact part.subset later

end MatrixDB
