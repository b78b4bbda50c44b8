import MatrixDB.Query.Grammar

/-!
# Cutting a text between two tokens

The tokens of a text spell its characters without the blanks.  A text may be
cut before a blank, or behind any of its tokens, and its tokens are then those
of the two parts.
-/

namespace MatrixDB

open Lib

/-- The characters of a text that are not blank. -/
def solid (text : Bytes) : Bytes := text.filter fun c => !isSpace c

@[simp] theorem solid_append (x y : Bytes) :
    solid (x ++ y) = solid x ++ solid y :=
  List.filter_append ..

theorem solid_eq_nil {text : Bytes} : solid text = [] ↔ text.all isSpace := by
  simp [solid]

theorem solid_of_word {text : Bytes} (word : ∀ c ∈ text, isWord c) :
    solid text = text := by
  apply List.filter_eq_self.mpr
  intro c member
  have plain := word c member
  unfold isWord at plain
  simp only [Bool.and_eq_true] at plain
  exact plain.1.1

/-! ## One round of the tokenizer -/

theorem tokenizeLoop_fuel {fuel fuel' : Nat} {text : Bytes}
    (enough : text.length ≤ fuel) (enough' : text.length ≤ fuel') :
    tokenizeLoop fuel text = tokenizeLoop fuel' text := by
  induction fuel generalizing fuel' text with
  | zero =>
      cases List.length_eq_zero_iff.mp (Nat.le_zero.mp enough)
      cases fuel' <;> rfl
  | succ fuel induction =>
      cases text with
      | nil => cases fuel' <;> rfl
      | cons c rest =>
          obtain ⟨fuel', rfl⟩ : ∃ less, fuel' = less + 1 :=
            Nat.exists_eq_add_one_of_ne_zero (by
              rintro rfl
              simp at enough')
          simp only [List.length_cons, Nat.add_le_add_iff_right]
            at enough enough'
          have later := induction enough enough'
          have shorter := (List.dropWhile_suffix isWord (l := rest)).length_le
          have behind := @induction fuel' (rest.dropWhile isWord)
            (by omega) (by omega)
          unfold tokenizeLoop
          cases rest with
          | nil => simp [later]
          | cons d after =>
              simp only [List.length_cons] at enough enough'
              have further := @induction fuel' after (by omega) (by omega)
              simp only [later, behind, further]

theorem matrixparseTokenize_cons (c : UInt8) (rest : Bytes) :
    matrixparseTokenize (c :: rest) =
      if isSpace c then matrixparseTokenize rest
      else if isParen c then [c] :: matrixparseTokenize rest
      else if isOperator c then
        match rest with
        | [] => [[c]]
        | d :: after =>
            if d = '='.toUInt8 then [c, d] :: matrixparseTokenize after
            else [c] :: matrixparseTokenize rest
      else
        (c :: rest.takeWhile isWord) ::
          matrixparseTokenize (rest.dropWhile isWord) := by
  have shorter := (List.dropWhile_suffix isWord (l := rest)).length_le
  have behind := tokenizeLoop_fuel shorter
    (Nat.le_refl (rest.dropWhile isWord).length)
  change tokenizeLoop (rest.length + 1) (c :: rest) = _
  unfold tokenizeLoop
  rw [behind]
  cases rest with
  | nil => rfl
  | cons d after =>
      have further := tokenizeLoop_fuel
        (Nat.le_succ after.length) (Nat.le_refl after.length)
      simp only [List.length_cons, further, matrixparseTokenize]

/-! ## Texts and their tokens -/

/-- A text and its tokens, one character class after another. -/
inductive Tokens : Bytes → List Bytes → Prop where
  | nil : Tokens [] []
  | space {c : UInt8} {rest : Bytes} {tokens : List Bytes}
      (blank : isSpace c) (behind : Tokens rest tokens) :
      Tokens (c :: rest) tokens
  | paren {c : UInt8} {rest : Bytes} {tokens : List Bytes}
      (bracket : isParen c) (behind : Tokens rest tokens) :
      Tokens (c :: rest) ([c] :: tokens)
  | sign {c : UInt8} {rest : Bytes} {tokens : List Bytes}
      (operator : isOperator c) (alone : ∀ d ∈ rest.head?, d ≠ '='.toUInt8)
      (behind : Tokens rest tokens) : Tokens (c :: rest) ([c] :: tokens)
  | pair {c : UInt8} {rest : Bytes} {tokens : List Bytes}
      (operator : isOperator c) (behind : Tokens rest tokens) :
      Tokens (c :: '='.toUInt8 :: rest) ([c, '='.toUInt8] :: tokens)
  | word {c : UInt8} {w rest : Bytes} {tokens : List Bytes}
      (first : isWord c) (same : ∀ d ∈ w, isWord d)
      (ends : ∀ d ∈ rest.head?, isWord d = false)
      (behind : Tokens rest tokens) :
      Tokens (c :: (w ++ rest)) ((c :: w) :: tokens)

theorem isSpace_of_paren {c : UInt8} (bracket : isParen c) :
    isSpace c = false := by
  unfold isParen at bracket
  simp only [Bool.or_eq_true, beq_iff_eq] at bracket
  rcases bracket with rfl | rfl <;> decide

theorem isSpace_of_operator {c : UInt8} (operator : isOperator c) :
    isSpace c = false ∧ isParen c = false := by
  unfold isOperator at operator
  simp only [Bool.or_eq_true, beq_iff_eq] at operator
  rcases operator with ((rfl | rfl) | rfl) | rfl <;> decide

theorem isWord_eq_true {c : UInt8} :
    isWord c ↔ isSpace c = false ∧ isParen c = false ∧
      isOperator c = false := by
  simp [isWord, and_assoc]

theorem tokens_matrixparseTokenize (text : Bytes) :
    Tokens text (matrixparseTokenize text) := by
  induction size : text.length using Nat.strongRecOn generalizing text with
  | ind size induction =>
      subst size
      cases text with
      | nil => exact .nil
      | cons c rest =>
          have later := induction rest.length (Nat.lt_succ_self _) rest rfl
          rw [matrixparseTokenize_cons]
          split
          · rename_i blank
            exact .space blank later
          · rename_i visible
            split
            · rename_i bracket
              exact .paren bracket later
            · rename_i unbracketed
              split
              · rename_i operator
                cases rest with
                | nil => exact .sign operator (by simp) .nil
                | cons d after =>
                    dsimp only
                    split
                    · rename_i equals
                      subst equals
                      exact .pair operator
                        (induction after.length (by simp) after rfl)
                    · rename_i other
                      exact .sign operator (by simpa using other) later
              · rename_i plain
                have shorter :=
                  (List.dropWhile_suffix isWord (l := rest)).length_le
                have behind := induction (rest.dropWhile isWord).length
                  (Nat.lt_succ_of_le shorter) _ rfl
                have first : isWord c :=
                  isWord_eq_true.mpr ⟨by simpa using visible,
                    by simpa using unbracketed, by simpa using plain⟩
                have ends : ∀ d ∈ (rest.dropWhile isWord).head?,
                    isWord d = false := by
                  intro d head
                  have := List.head?_dropWhile_not isWord rest
                  rw [Option.mem_def.mp head] at this
                  simpa using this
                have same : ∀ d ∈ rest.takeWhile isWord, isWord d :=
                  fun d member => List.mem_takeWhile_imp member
                have whole := Tokens.word first same ends behind
                rwa [List.takeWhile_append_dropWhile] at whole

theorem matrixparseTokenize_eq {text : Bytes} {tokens : List Bytes}
    (made : Tokens text tokens) : matrixparseTokenize text = tokens := by
  induction made with
  | nil => rfl
  | space blank _ induction =>
      rw [matrixparseTokenize_cons, if_pos blank, induction]
  | paren bracket _ induction =>
      have visible := isSpace_of_paren bracket
      rw [matrixparseTokenize_cons]
      simp [visible, bracket, induction]
  | @sign c rest tokens operator alone _ induction =>
      obtain ⟨visible, plain⟩ := isSpace_of_operator operator
      rw [matrixparseTokenize_cons]
      cases rest with
      | nil =>
          cases induction
          simp [visible, plain, operator]
          rfl
      | cons d after =>
          have other := alone d rfl
          simp [visible, plain, operator, other, induction]
  | pair operator _ induction =>
      obtain ⟨visible, plain⟩ := isSpace_of_operator operator
      rw [matrixparseTokenize_cons]
      simp [visible, plain, operator, induction]
  | @word c w rest tokens first same ends _ induction =>
      obtain ⟨visible, plain, unsigned⟩ := isWord_eq_true.mp first
      have stop : rest.takeWhile isWord = [] ∧
          rest.dropWhile isWord = rest := by
        cases rest with
        | nil => exact ⟨rfl, rfl⟩
        | cons d after => simp [ends d rfl]
      rw [matrixparseTokenize_cons,
        List.takeWhile_append_of_pos same, List.dropWhile_append_of_pos same,
        stop.1, stop.2, List.append_nil, induction]
      simp [visible, plain, unsigned]

/-! ## The characters of the tokens -/

theorem Tokens.flatten {text : Bytes} {tokens : List Bytes}
    (made : Tokens text tokens) : tokens.flatten = solid text := by
  induction made with
  | nil => rfl
  | space blank _ induction => simpa [solid, blank] using induction
  | paren bracket _ induction =>
      simp [solid, isSpace_of_paren bracket] at induction ⊢
      exact induction
  | sign operator _ _ induction =>
      simp [solid, (isSpace_of_operator operator).1] at induction ⊢
      exact induction
  | pair operator _ induction =>
      have equals : isSpace '='.toUInt8 = false := by decide
      simp [solid, (isSpace_of_operator operator).1, equals] at induction ⊢
      exact induction
  | @word c w rest tokens first same _ _ induction =>
      have whole : solid (c :: w) = c :: w := by
        apply solid_of_word
        intro d member
        rcases List.mem_cons.mp member with rfl | later
        · exact first
        · exact same d later
      rw [List.flatten_cons, induction, ← List.cons_append, solid_append,
        whole]

theorem matrixparseTokenize_flatten (text : Bytes) :
    (matrixparseTokenize text).flatten = solid text :=
  (tokens_matrixparseTokenize text).flatten

theorem matrixparseTokenize_eq_nil {text : Bytes} :
    matrixparseTokenize text = [] ↔ text.all isSpace := by
  rw [← solid_eq_nil, ← matrixparseTokenize_flatten, List.flatten_eq_nil_iff]
  constructor
  · intro none token member
    rw [none] at member
    cases member
  · intro empty
    apply List.eq_nil_iff_forall_not_mem.mpr
    intro token member
    exact matrixparseTokenize_present text token member (empty token member)

/-! ## Cutting -/

/-- A text is cut before a blank. -/
theorem Tokens.append {x y : Bytes} {tokens tokens' : List Bytes}
    (left : Tokens x tokens) (right : Tokens y tokens')
    (blank : ∀ d ∈ y.head?, isSpace d) :
    Tokens (x ++ y) (tokens ++ tokens') := by
  have stop : ∀ rest : Bytes, ∀ d ∈ (rest ++ y).head?,
      d ∈ rest.head? ∨ isSpace d := by
    intro rest d head
    cases rest with
    | nil => exact .inr (blank d head)
    | cons e rest => exact .inl head
  induction left with
  | nil => exact right
  | space blank' _ induction => exact .space blank' induction
  | paren bracket _ induction => exact .paren bracket induction
  | @sign c rest _ operator alone _ induction =>
      refine .sign operator ?_ induction
      intro d head
      rcases stop rest d head with mine | visible
      · exact alone d mine
      · rintro rfl
        cases visible
  | pair operator _ induction => exact .pair operator induction
  | @word c w rest _ first same ends _ induction =>
      have ends' : ∀ d ∈ (rest ++ y).head?, isWord d = false := by
        intro d head
        rcases stop rest d head with mine | visible
        · exact ends d mine
        · simp [isWord, visible]
      simpa using Tokens.word first same ends' induction

/-- A text is cut behind any of its tokens. -/
theorem Tokens.cut {text : Bytes} {tokens : List Bytes}
    (made : Tokens text tokens) (n : Nat) :
    ∃ x y, text = x ++ y ∧ Tokens x (tokens.take n) ∧
      Tokens y (tokens.drop n) := by
  induction made generalizing n with
  | nil => exact ⟨[], [], rfl, by simpa using Tokens.nil,
      by simpa using Tokens.nil⟩
  | @space c rest tokens blank _ induction =>
      obtain ⟨x, y, rfl, left, right⟩ := induction n
      exact ⟨c :: x, y, rfl, .space blank left, right⟩
  | @paren c rest tokens bracket behind induction =>
      cases n with
      | zero => exact ⟨[], _, rfl, .nil, .paren bracket behind⟩
      | succ n =>
          obtain ⟨x, y, rfl, left, right⟩ := induction n
          exact ⟨c :: x, y, rfl, .paren bracket left, right⟩
  | @sign c rest tokens operator alone behind induction =>
      cases n with
      | zero => exact ⟨[], _, rfl, .nil, .sign operator alone behind⟩
      | succ n =>
          obtain ⟨x, y, rfl, left, right⟩ := induction n
          refine ⟨c :: x, y, rfl, .sign operator ?_ left, right⟩
          intro d head
          cases x with
          | nil => cases head
          | cons e x => exact alone d head
  | @pair c rest tokens operator behind induction =>
      cases n with
      | zero => exact ⟨[], _, rfl, .nil, .pair operator behind⟩
      | succ n =>
          obtain ⟨x, y, rfl, left, right⟩ := induction n
          exact ⟨c :: '='.toUInt8 :: x, y, rfl, .pair operator left, right⟩
  | @word c w rest tokens first same ends behind induction =>
      cases n with
      | zero => exact ⟨[], _, rfl, .nil, .word first same ends behind⟩
      | succ n =>
          obtain ⟨x, y, rfl, left, right⟩ := induction n
          refine ⟨c :: (w ++ x), y, by simp, .word first same ?_ left, right⟩
          intro d head
          cases x with
          | nil => cases head
          | cons e x => exact ends d head

theorem matrixparseTokenize_append (x : Bytes) {y : Bytes}
    (blank : ∀ d ∈ y.head?, isSpace d) :
    matrixparseTokenize (x ++ y) =
      matrixparseTokenize x ++ matrixparseTokenize y :=
  matrixparseTokenize_eq ((tokens_matrixparseTokenize x).append
    (tokens_matrixparseTokenize y) blank)

theorem exists_cut (text : Bytes) (n : Nat) :
    ∃ x y, text = x ++ y ∧
      matrixparseTokenize x = (matrixparseTokenize text).take n ∧
      matrixparseTokenize y = (matrixparseTokenize text).drop n := by
  obtain ⟨x, y, same, left, right⟩ := (tokens_matrixparseTokenize text).cut n
  exact ⟨x, y, same, matrixparseTokenize_eq left,
    matrixparseTokenize_eq right⟩

/-! ## Going on -/

/-- A token that others follow, and whatever follows those. -/
theorem Tokens.before {text : Bytes} {token : Bytes} {tokens : List Bytes}
    (whole : ∃ all, Tokens text all)
    (more : tokens ≠ [] → ∃ later,
      Tokens text (token :: (tokens.dropLast ++ later))) :
    ∃ later, Tokens text ((token :: tokens).dropLast ++ later) := by
  cases tokens with
  | nil => exact whole
  | cons next tokens => exact more (List.cons_ne_nil _ _)

/-- All tokens but the last stay where a text goes on. -/
theorem Tokens.goes_on {x : Bytes} {tokens : List Bytes}
    (made : Tokens x tokens) (y : Bytes) :
    ∃ later, Tokens (x ++ y) (tokens.dropLast ++ later) := by
  have whole : ∀ text : Bytes, ∃ all, Tokens text all := fun text =>
    ⟨_, tokens_matrixparseTokenize text⟩
  induction made with
  | nil => exact ⟨_, tokens_matrixparseTokenize y⟩
  | space blank _ induction =>
      obtain ⟨later, behind⟩ := induction
      exact ⟨later, .space blank behind⟩
  | paren bracket _ induction =>
      obtain ⟨later, behind⟩ := induction
      exact Tokens.before (whole _) fun _ => ⟨later, .paren bracket behind⟩
  | @sign c rest tokens operator alone first induction =>
      obtain ⟨later, behind⟩ := induction
      apply Tokens.before (whole _)
      intro more
      refine ⟨later, .sign operator ?_ behind⟩
      cases rest with
      | nil =>
          cases first
          exact absurd rfl more
      | cons d rest => exact alone
  | pair operator _ induction =>
      obtain ⟨later, behind⟩ := induction
      exact Tokens.before (whole _) fun _ => ⟨later, .pair operator behind⟩
  | @word c w rest tokens letter same ends first induction =>
      obtain ⟨later, behind⟩ := induction
      apply Tokens.before (whole _)
      intro more
      have ends' : ∀ d ∈ (rest ++ y).head?, isWord d = false := by
        cases rest with
        | nil =>
            cases first
            exact absurd rfl more
        | cons d rest => exact ends
      have made := Tokens.word letter same ends' behind
      rw [← List.append_assoc] at made
      exact ⟨later, made⟩

theorem matrixparseTokenize_goes_on (x y : Bytes) :
    ∃ later, matrixparseTokenize (x ++ y) =
      (matrixparseTokenize x).dropLast ++ later := by
  obtain ⟨later, made⟩ := (tokens_matrixparseTokenize x).goes_on y
  exact ⟨later, matrixparseTokenize_eq made⟩

/-! ## Blanks around a text -/

theorem matrixparseTokenize_blank {x : Bytes} (blank : ∀ c ∈ x, isSpace c)
    (y : Bytes) : matrixparseTokenize (x ++ y) = matrixparseTokenize y := by
  induction x with
  | nil => rfl
  | cons c x induction =>
      rw [List.cons_append, matrixparseTokenize_cons,
        if_pos (blank c List.mem_cons_self)]
      exact induction fun d member => blank d (.tail _ member)

theorem matrixparseTokenize_blank_end (x : Bytes) {y : Bytes}
    (blank : ∀ c ∈ y, isSpace c) :
    matrixparseTokenize (x ++ y) = matrixparseTokenize x := by
  have none : matrixparseTokenize y = [] :=
    matrixparseTokenize_eq_nil.mpr (List.all_eq_true.mpr blank)
  have opens : ∀ d ∈ y.head?, isSpace d := by
    intro d head
    exact blank d (List.mem_of_mem_head? head)
  rw [matrixparseTokenize_append x opens, none, List.append_nil]

/-- Characters that are dropped from both ends of a text are not in its
tokens, if they are blank. -/
theorem matrixparseTokenize_trimmed {p : UInt8 → Bool}
    (blank : ∀ c, p c → isSpace c) (text : Bytes) :
    matrixparseTokenize
        ((text.dropWhile p).reverse.dropWhile p).reverse =
      matrixparseTokenize text := by
  have front : ∀ c ∈ text.takeWhile p, isSpace c := by
    intro c member
    exact blank c (List.mem_takeWhile_imp member)
  have back : ∀ c ∈ ((text.dropWhile p).reverse.takeWhile p).reverse,
      isSpace c := by
    intro c member
    exact blank c (List.mem_takeWhile_imp (List.mem_reverse.mp member))
  have whole : ((text.dropWhile p).reverse.dropWhile p).reverse ++
      ((text.dropWhile p).reverse.takeWhile p).reverse =
        text.dropWhile p := by
    rw [← List.reverse_append, List.takeWhile_append_dropWhile,
      List.reverse_reverse]
  calc matrixparseTokenize ((text.dropWhile p).reverse.dropWhile p).reverse
      = matrixparseTokenize (((text.dropWhile p).reverse.dropWhile p).reverse ++
          ((text.dropWhile p).reverse.takeWhile p).reverse) :=
        (matrixparseTokenize_blank_end _ back).symm
    _ = matrixparseTokenize (text.dropWhile p) := by rw [whole]
    _ = matrixparseTokenize (text.takeWhile p ++ text.dropWhile p) :=
        (matrixparseTokenize_blank front _).symm
    _ = matrixparseTokenize text := by rw [List.takeWhile_append_dropWhile]

/-! ## Joining tokens -/

/-- Each token of a text is a text of one token. -/
theorem Tokens.alone {text : Bytes} {tokens : List Bytes}
    (made : Tokens text tokens) : ∀ token ∈ tokens, Tokens token [token] := by
  induction made with
  | nil => simp
  | space _ _ induction => exact induction
  | paren bracket _ induction =>
      intro token member
      rcases List.mem_cons.mp member with rfl | later
      · exact .paren bracket .nil
      · exact induction token later
  | sign operator _ _ induction =>
      intro token member
      rcases List.mem_cons.mp member with rfl | later
      · exact .sign operator (by simp) .nil
      · exact induction token later
  | pair operator _ induction =>
      intro token member
      rcases List.mem_cons.mp member with rfl | later
      · exact .pair operator .nil
      · exact induction token later
  | @word c w rest tokens first same _ _ induction =>
      intro token member
      rcases List.mem_cons.mp member with rfl | later
      · have whole := Tokens.word first same (by simp) .nil
        rwa [List.append_nil] at whole
      · exact induction token later

/-- Tokens with blanks between them are the tokens of the text they make. -/
theorem matrixparseTokenize_joinTokens {tokens : List Bytes}
    (alone : ∀ token ∈ tokens, Tokens token [token]) :
    matrixparseTokenize (joinTokens tokens) = tokens := by
  apply matrixparseTokenize_eq
  induction tokens with
  | nil => exact .nil
  | cons token tokens induction =>
      have here := alone token List.mem_cons_self
      have later := induction fun other member => alone other (.tail _ member)
      cases tokens with
      | nil =>
          have same : joinTokens [token] = token := by simp [joinTokens]
          rw [same]
          exact here
      | cons next tokens =>
          have split : joinTokens (token :: next :: tokens) =
              token ++ 32 :: joinTokens (next :: tokens) := by
            simp [joinTokens]
          have blank : isSpace 32 := by decide
          rw [split]
          exact here.append (.space blank later) (by simp [blank])

end MatrixDB
