import Mathlib.Data.List.Forall2

/-!
# Pieces between separators

A text is read as pieces with a separator between each two, and something
behind the last one.  Empty pieces say nothing.
-/

namespace MatrixDB.Lib

variable {α : Type}

/-! ## Related lists -/

theorem related_left {A B : Type} {R : A → B → Prop} {as : List A}
    {bs : List B} (related : List.Forall₂ R as bs) {b : B} (member : b ∈ bs) :
    ∃ a ∈ as, R a b := by
  induction related with
  | nil => cases member
  | cons first _ induction =>
      rcases List.mem_cons.mp member with rfl | later
      · exact ⟨_, List.mem_cons_self, first⟩
      · obtain ⟨a, listed, holds⟩ := induction later
        exact ⟨a, List.mem_cons_of_mem _ listed, holds⟩

theorem related_right {A B : Type} {R : A → B → Prop} {as : List A}
    {bs : List B} (related : List.Forall₂ R as bs) {a : A} (member : a ∈ as) :
    ∃ b ∈ bs, R a b :=
  related_left related.flip member

/-! ## Pieces -/

theorem not_mem_of_splitOn [BEq α] [LawfulBEq α] {c : α} {text : List α} :
    ∀ piece ∈ text.splitOn c, c ∉ piece := by
  induction text with
  | nil => simp
  | cons d text induction =>
      intro piece member
      rw [List.splitOn_cons_eq_if_modifyHead] at member
      split at member
      · rcases List.mem_cons.mp member with rfl | member
        · exact List.not_mem_nil
        · exact induction piece member
      · rename_i other
        obtain ⟨first, pieces, split⟩ :=
          List.exists_cons_of_ne_nil (List.splitOn_ne_nil c text)
        rw [split] at member induction
        rcases List.mem_cons.mp member with rfl | member
        · have rest := induction first List.mem_cons_self
          have differs : c ≠ d := by
            rintro rfl
            exact other BEq.rfl
          simp [differs, rest]
        · exact induction piece (List.mem_cons_of_mem _ member)

/-- Only what stands last meets the text behind the pieces. -/
theorem intercalate_last (c : α) {pieces : List (List α)} {x y x' y' : List α}
    (same : x ++ y = x' ++ y') :
    [c].intercalate (pieces ++ [x]) ++ y =
      [c].intercalate (pieces ++ [x']) ++ y' := by
  induction pieces with
  | nil => simpa using same
  | cons first pieces induction =>
      cases pieces with
      | nil => simpa [List.intercalate_cons_cons] using same
      | cons second pieces =>
          simpa [List.intercalate_cons_cons] using induction

theorem filter_intercalate {c : α} {p : α → Bool} (kept : p c)
    (pieces : List (List α)) :
    ([c].intercalate pieces).filter p =
      [c].intercalate (pieces.map (List.filter p)) := by
  induction pieces with
  | nil => rfl
  | cons first pieces induction =>
      cases pieces with
      | nil => simp
      | cons second pieces =>
          rw [List.intercalate_cons_cons, List.filter_append,
            List.filter_append, induction]
          simp [List.intercalate_cons_cons, kept]

/-- The pieces that say something. -/
def filled (pieces : List (List α)) : List (List α) :=
  pieces.filter fun piece => !piece.isEmpty

@[simp] theorem filled_cons_nil (pieces : List (List α)) :
    filled ([] :: pieces) = filled pieces := rfl

theorem filled_cons {piece : List α} (present : piece ≠ [])
    (pieces : List (List α)) :
    filled (piece :: pieces) = piece :: filled pieces := by
  apply List.filter_cons_of_pos
  simpa using present

theorem filled_eq_nil {pieces : List (List α)} :
    filled pieces = [] ↔ ∀ piece ∈ pieces, piece = [] := by
  simp [filled]

theorem dropLast_nil {R : List α → List α → Prop} {pieces : List (List α)}
    (none : List.Forall₂ R (filled pieces) []) :
    ∀ piece ∈ pieces.dropLast, piece = [] := by
  intro piece member
  exact filled_eq_nil.mp (List.forall₂_nil_right_iff.mp none) piece
    (List.dropLast_subset _ member)

/-- Two first pieces that do not begin with a separator: what follows the
pieces is the same as well. -/
theorem same_rest_of_first {c : α} {first first' behind behind' rest rest' :
    List α} (plain : c ∉ first) (opens : rest.head? ≠ some c)
    (same : first ++ c :: behind = first' ++ c :: behind')
    (aligned : first ++ rest = first' ++ rest') : rest = rest' := by
  rcases List.append_eq_append_iff.mp aligned with
    ⟨extra, rfl, rfl⟩ | ⟨extra, rfl, rfl⟩
  · cases extra with
    | nil => rfl
    | cons d extra =>
        have begins : c = d := by
          rw [List.append_assoc] at same
          exact (List.cons.inj (List.append_cancel_left same)).1
        subst begins
        exact absurd rfl opens
  · cases extra with
    | nil => rfl
    | cons d extra =>
        have begins : d = c := by
          rw [List.append_assoc] at same
          exact (List.cons.inj (List.append_cancel_left same)).1
        subst begins
        exact absurd (List.mem_append_right _ List.mem_cons_self) plain

/-- A text that begins with a separator has an empty first piece. -/
theorem first_nil {c : α} {first text rest : List α} {pieces : List (List α)}
    (starts : first.head? ≠ some c)
    (same : c :: text = [c].intercalate (first :: pieces) ++ rest) :
    first = [] := by
  cases first with
  | nil => rfl
  | cons d tail =>
      have begins : c = d := by
        cases pieces with
        | nil => exact (List.cons.inj same).1
        | cons second pieces =>
            rw [List.intercalate_cons_cons] at same
            exact (List.cons.inj same).1
      subst begins
      exact absurd rfl starts

/-- One text is cut in two ways, each time with something else behind the
pieces.  If whatever follows the pieces is the same for each of them, then
either it is the same for both ways, or the first way has only one piece, which
stands last. -/
theorem same_rest_or_last {c : α} {pieces pieces' : List (List α)}
    {rest rest' : List α} (plain : ∀ piece ∈ pieces, c ∉ piece)
    (starts : ∀ piece ∈ pieces', piece.head? ≠ some c)
    (opens : rest.head? ≠ some c)
    (same : [c].intercalate pieces ++ rest = [c].intercalate pieces' ++ rest')
    (aligned : List.Forall₂
      (fun piece piece' => piece ++ rest = piece' ++ rest')
      (filled pieces) (filled pieces')) :
    rest = rest' ∨ ∀ piece ∈ pieces.dropLast, piece = [] := by
  induction pieces generalizing pieces' with
  | nil =>
      right
      intro piece member
      cases member
  | cons first pieces induction =>
      cases pieces with
      | nil =>
          right
          intro piece member
          cases member
      | cons second pieces =>
          rw [List.intercalate_cons_cons, List.append_assoc,
            List.append_assoc, List.singleton_append] at same
          cases pieces' with
          | nil => exact .inr (dropLast_nil aligned)
          | cons first' pieces' =>
              have starts' := starts first' List.mem_cons_self
              by_cases empty : first = []
              · subst empty
                obtain rfl := first_nil starts' same
                cases pieces' with
                | nil => exact .inr (dropLast_nil aligned)
                | cons second' pieces' =>
                    rw [List.intercalate_cons_cons, List.append_assoc,
                      List.append_assoc, List.singleton_append] at same
                    have tails := induction
                      (fun piece member => plain piece (.tail _ member))
                      (fun piece member => starts piece (.tail _ member))
                      (List.cons.inj same).2 aligned
                    rcases tails with settled | blank
                    · exact .inl settled
                    · right
                      intro piece member
                      rw [List.dropLast_cons_cons] at member
                      rcases List.mem_cons.mp member with rfl | member
                      · rfl
                      · exact blank piece member
              · have mine := plain first List.mem_cons_self
                rw [filled_cons empty] at aligned
                have empty' : first' ≠ [] := by
                  rintro rfl
                  cases pieces' with
                  | nil => cases aligned
                  | cons second' pieces' =>
                      rw [List.intercalate_cons_cons] at same
                      obtain ⟨d, tail, rfl⟩ := List.exists_cons_of_ne_nil empty
                      obtain rfl : d = c := (List.cons.inj same).1
                      exact mine List.mem_cons_self
                rw [filled_cons empty'] at aligned
                obtain ⟨heads, _⟩ := List.forall₂_cons.mp aligned
                left
                cases pieces' with
                | nil =>
                    rw [List.intercalate_singleton, ← heads] at same
                    have longer := congrArg List.length
                      (List.append_cancel_left same)
                    simp only [List.length_cons, List.length_append] at longer
                    omega
                | cons second' pieces' =>
                    rw [List.intercalate_cons_cons, List.append_assoc,
                      List.append_assoc, List.singleton_append] at same
                    exact same_rest_of_first mine opens same heads

end MatrixDB.Lib
