import MatrixDB.Lib.Bytes
import Mathlib.Data.Option.Basic

/-!
# Partial calls that return a result and a state

Rules for what a call keeps true of its state, and for two runs of one call
from related states.  Both are closed under the ways in which calls are put
together, so that a program need only be followed down to its primitives.
-/

namespace MatrixDB.Lib

variable {S T A B : Type}

/-! ## What holds of the state that is returned -/

/-- Whatever state is returned satisfies `inv`. -/
def Ensures (inv : S → Prop) (call : Option (A × S)) : Prop :=
  ∀ result state, call = some (result, state) → inv state

namespace Ensures

variable {inv : S → Prop}

theorem none : Ensures inv (.none : Option (A × S)) := by
  intro result state returned
  cases returned

theorem pure {result : A} {state : S} (holds : inv state) :
    Ensures inv (some (result, state)) := by
  intro other after returned
  cases returned
  exact holds

theorem bind {later : T → Prop} {call : Option (A × S)}
    {next : A × S → Option (B × T)} (first : Ensures inv call)
    (second : ∀ result state, inv state →
      Ensures later (next (result, state))) :
    Ensures later (call >>= next) := by
  intro result state returned
  obtain ⟨⟨middle, between⟩, called, rest⟩ :=
    Option.bind_eq_some_iff.mp returned
  exact second middle between (first middle between called) result state rest

theorem map {later : T → Prop} {call : Option (A × S)}
    {change : A × S → B × T} (first : Ensures inv call)
    (second : ∀ result state, inv state → later (change (result, state)).2) :
    Ensures later (call.map change) := by
  intro result state returned
  obtain ⟨⟨middle, between⟩, called, changed⟩ :=
    Option.map_eq_some_iff.mp returned
  have kept := second middle between (first middle between called)
  rw [changed] at kept
  exact kept

/-- A call that returns a state alone. -/
theorem of_some {call : Option S} {result : A}
    (holds : ∀ state, call = some state → inv state) :
    Ensures inv (call.map fun state => (result, state)) := by
  intro other after returned
  obtain ⟨state, called, same⟩ := Option.map_eq_some_iff.mp returned
  cases same
  exact holds _ called

theorem ite {holds : Prop} [Decidable holds] {yes no : Option (A × S)}
    (whenTrue : holds → Ensures inv yes)
    (whenFalse : ¬ holds → Ensures inv no) :
    Ensures inv (if holds then yes else no) := by
  split
  · exact whenTrue ‹_›
  · exact whenFalse ‹_›

theorem readLoop {step : Bytes → S → Option (Option Bytes × S)}
    (keeps : ∀ input state, inv state → Ensures inv (step input state))
    {state : S} (holds : inv state) (count : Nat) (input : Bytes) :
    Ensures inv (Lib.readLoop step count input state) := by
  induction count generalizing input state with
  | zero => exact .pure holds
  | succ count induction =>
      unfold Lib.readLoop
      split
      · exact .none
      · rename_i stopped
        exact .pure (keeps input state holds _ _ stopped)
      · rename_i went
        exact induction (keeps input state holds _ _ went) _

end Ensures

/-! ## Two runs -/

/-- Two calls that both fail, or return the same result and related states. -/
def Twin (R : S → S → Prop) (left right : Option (A × S)) : Prop :=
  (left = none ∧ right = none) ∨
    ∃ result one two, left = some (result, one) ∧
      right = some (result, two) ∧ R one two

/-- Calls that return a state alone, one after another. -/
theorem rel_bind {R : S → S → Prop} {R' : T → T → Prop}
    {left right : Option S} {next next' : S → Option T}
    (first : Option.Rel R left right)
    (later : ∀ one two, R one two → Option.Rel R' (next one) (next' two)) :
    Option.Rel R' (left.bind next) (right.bind next') := by
  cases first with
  | none => exact .none
  | some related => exact later _ _ related

namespace Twin

variable {R : S → S → Prop}

/-- A run against itself says what it keeps. -/
theorem ensures {call : Option (A × S)} (twin : Twin R call call) :
    Ensures (fun state => R state state) call := by
  intro result state returned
  rcases twin with ⟨failed, _⟩ | ⟨other, one, two, left, right, related⟩
  · cases failed.symm.trans returned
  · cases left.symm.trans returned
    cases right.symm.trans returned
    exact related

/-- What one run returns, the other one does. -/
theorem follows {left right : Option (A × S)} (twin : Twin R left right)
    {result : A} {one : S} (returned : left = some (result, one)) :
    ∃ two, right = some (result, two) ∧ R one two := by
  rcases twin with ⟨failed, _⟩ | ⟨other, one', two, left, right, related⟩
  · cases failed.symm.trans returned
  · cases left.symm.trans returned
    exact ⟨two, right, related⟩

theorem leads {left right : Option (A × S)} (twin : Twin R left right)
    {result : A} {two : S} (returned : right = some (result, two)) :
    ∃ one, left = some (result, one) ∧ R one two := by
  rcases twin with ⟨_, failed⟩ | ⟨other, one, two', left, right, related⟩
  · cases failed.symm.trans returned
  · cases right.symm.trans returned
    exact ⟨one, left, related⟩

theorem of_rel {left right : Option S} (related : Option.Rel R left right)
    (result : A) :
    Twin R (left.map fun state => (result, state))
      (right.map fun state => (result, state)) := by
  cases related with
  | none => exact .inl ⟨rfl, rfl⟩
  | some related => exact .inr ⟨result, _, _, rfl, rfl, related⟩

theorem none : Twin R (.none : Option (A × S)) .none := .inl ⟨rfl, rfl⟩

/-- One result, returned with two states. -/
theorem of_result {left right : S} (related : R left right)
    (call : Option A) :
    Twin R (call.map fun result => (result, left))
      (call.map fun result => (result, right)) := by
  cases call with
  | none => exact .inl ⟨rfl, rfl⟩
  | some result => exact .inr ⟨result, _, _, rfl, rfl, related⟩

theorem pure {result : A} {left right : S} (related : R left right) :
    Twin R (some (result, left)) (some (result, right)) :=
  .inr ⟨result, left, right, rfl, rfl, related⟩

theorem bind {R' : T → T → Prop} {left right : Option (A × S)}
    {next next' : A × S → Option (B × T)} (first : Twin R left right)
    (later : ∀ result one two, R one two →
      Twin R' (next (result, one)) (next' (result, two))) :
    Twin R' (left >>= next) (right >>= next') := by
  rcases first with ⟨rfl, rfl⟩ | ⟨result, one, two, rfl, rfl, related⟩
  · exact Twin.none
  · exact later result one two related

theorem map {R' : T → T → Prop} {left right : Option (A × S)}
    {change change' : A × S → B × T} (first : Twin R left right)
    (later : ∀ result one two, R one two →
      (change (result, one)).1 = (change' (result, two)).1 ∧
        R' (change (result, one)).2 (change' (result, two)).2) :
    Twin R' (left.map change) (right.map change') := by
  rcases first with ⟨rfl, rfl⟩ | ⟨result, one, two, rfl, rfl, related⟩
  · exact Twin.none
  · obtain ⟨same, kept⟩ := later result one two related
    refine .inr ⟨_, _, _, rfl, ?_, kept⟩
    rw [same]
    rfl

theorem ite {holds holds' : Prop} [Decidable holds] [Decidable holds']
    {yes no yes' no' : Option (A × S)} (same : holds ↔ holds')
    (whenTrue : holds → Twin R yes yes')
    (whenFalse : ¬ holds → Twin R no no') :
    Twin R (if holds then yes else no) (if holds' then yes' else no') := by
  by_cases decided : holds
  · rw [if_pos decided, if_pos (same.mp decided)]
    exact whenTrue decided
  · rw [if_neg decided, if_neg (decided ∘ same.mpr)]
    exact whenFalse decided

theorem readLoop {step : Bytes → S → Option (Option Bytes × S)}
    (keeps : ∀ input one two, R one two →
      Twin R (step input one) (step input two))
    {left right : S} (related : R left right) (count : Nat) (input : Bytes) :
    Twin R (Lib.readLoop step count input left)
      (Lib.readLoop step count input right) := by
  induction count generalizing input left right with
  | zero => exact .pure related
  | succ count induction =>
      unfold Lib.readLoop
      rcases keeps input left right related with
        ⟨stop, stop'⟩ | ⟨out, one, two, ran, ran', kept⟩
      · rw [stop, stop']
        exact Twin.none
      · rw [ran, ran']
        cases out with
        | none => exact .pure kept
        | some rest => exact induction kept rest

end Twin

/-! ## Two readings of one input -/

/-- The same result or error, and whatever result there is satisfies
`post`. -/
def SameThen {E A : Type} (post : A → Prop) (left right : Except E A) : Prop :=
  left = right ∧ ∀ result, left = .ok result → post result

namespace SameThen

variable {E : Type} {post : A → Prop}

theorem error (failure : E) :
    SameThen post (.error failure) (.error failure) :=
  ⟨rfl, fun _ read => nomatch read⟩

theorem ok {result : A} (holds : post result) :
    SameThen post (.ok result : Except E A) (.ok result) := by
  refine ⟨rfl, ?_⟩
  intro other read
  cases read
  exact holds

theorem of_same (reading : Except E A) :
    SameThen (fun _ => True) reading reading :=
  ⟨rfl, fun _ _ => trivial⟩

theorem bind {later : B → Prop} {left right : Except E A}
    {next next' : A → Except E B} (first : SameThen post left right)
    (second : ∀ result, post result →
      SameThen later (next result) (next' result)) :
    SameThen later (left >>= next) (right >>= next') := by
  obtain ⟨rfl, holds⟩ := first
  cases left with
  | error failure => exact .error failure
  | ok result => exact second result (holds result rfl)

theorem ite {holds holds' : Prop} [Decidable holds] [Decidable holds']
    {yes no yes' no' : Except E A} (same : holds ↔ holds')
    (whenTrue : holds → SameThen post yes yes')
    (whenFalse : ¬ holds → SameThen post no no') :
    SameThen post (if holds then yes else no)
      (if holds' then yes' else no') := by
  by_cases decided : holds
  · rw [if_pos decided, if_pos (same.mp decided)]
    exact whenTrue decided
  · rw [if_neg decided, if_neg (decided ∘ same.mpr)]
    exact whenFalse decided

end SameThen

end MatrixDB.Lib
