import Mathlib.Data.List.Nodup
import Mathlib.Data.List.Perm.Basic
import Mathlib.Data.List.Range
import Mathlib.Logic.Function.Basic

/-!
# Threads that take turns

A thread is a list of steps, and a schedule takes the threads one step at a
time.  Whatever does not depend on the order of the steps is the same under
every schedule.
-/

namespace MatrixDB.Lib

variable {α : Type}

inductive Interleaves : List (List α) → List α → Prop where
  | done {threads : List (List α)} (idle : ∀ thread ∈ threads, thread = []) :
      Interleaves threads []
  | turn {threads : List (List α)} {i : Nat} {step : α} {rest order : List α}
      (next : threads[i]? = some (step :: rest))
      (later : Interleaves (threads.set i rest) order) :
      Interleaves threads (step :: order)

theorem flatten_perm_of_turn {threads : List (List α)} {i : Nat} {step : α}
    {rest : List α} (next : threads[i]? = some (step :: rest)) :
    threads.flatten.Perm (step :: (threads.set i rest).flatten) := by
  induction threads generalizing i with
  | nil => cases next
  | cons thread threads induction =>
      cases i with
      | zero =>
          cases next
          exact .refl _
      | succ i =>
          have behind := (induction next).append_left thread
          simp only [List.flatten_cons, List.set_cons_succ]
          exact behind.trans List.perm_middle

/-- A schedule takes every step of every thread, and no other. -/
theorem Interleaves.perm {threads : List (List α)} {order : List α}
    (runs : Interleaves threads order) : order.Perm threads.flatten := by
  induction runs with
  | done idle => rw [List.flatten_eq_nil_iff.mpr idle]
  | turn next _ induction =>
      exact (induction.cons _).trans (flatten_perm_of_turn next).symm

/-- Which thread is which does not matter. -/
theorem Interleaves.of_perm {threads others : List (List α)} {order : List α}
    (runs : Interleaves threads order) (same : threads.Perm others) :
    Interleaves others order := by
  induction runs generalizing others with
  | done idle => exact .done fun thread member => idle thread (same.mem_iff.mpr member)
  | @turn threads i step rest order next _ induction =>
      obtain ⟨inside, here⟩ := List.getElem?_eq_some_iff.mp next
      have member : step :: rest ∈ others :=
        same.mem_iff.mp (List.mem_of_getElem? next)
      obtain ⟨j, within, there⟩ := List.mem_iff_getElem.mp member
      have others' : (threads.eraseIdx i).Perm (others.eraseIdx j) := by
        apply (List.perm_cons (step :: rest)).mp
        have left := List.getElem_cons_eraseIdx_perm inside
        have right := List.getElem_cons_eraseIdx_perm within
        rw [here] at left
        rw [there] at right
        exact left.trans (same.trans right.symm)
      refine .turn (List.getElem?_eq_some_iff.mpr ⟨within, there⟩) (induction ?_)
      have left := List.set_perm_cons_eraseIdx inside rest
      have right := List.set_perm_cons_eraseIdx within rest
      exact left.trans ((others'.cons rest).trans right.symm)

/-- One thread after another is a schedule. -/
theorem interleaves_flatten (threads : List (List α)) :
    Interleaves threads threads.flatten := by
  have after : ∀ (front : List (List α)) (back : List (List α)),
      (∀ thread ∈ front, thread = []) →
      Interleaves (front ++ back) back.flatten := by
    intro front back
    induction back generalizing front with
    | nil =>
        intro idle
        rw [List.append_nil]
        exact .done idle
    | cons thread back induction =>
        intro idle
        have onward := induction (front ++ [[]]) (by
          intro other member
          rcases List.mem_append.mp member with before | last
          · exact idle other before
          · exact List.mem_singleton.mp last)
        rw [List.append_assoc] at onward
        rw [List.flatten_cons]
        clear induction
        induction thread with
        | nil => exact onward
        | cons step rest turns =>
            have next : (front ++ (step :: rest) :: back)[front.length]? =
                some (step :: rest) := by
              simp
            exact .turn next (by simpa using turns)
  exact after [] threads (by simp)

theorem interleaves_of_perm {threads others : List (List α)}
    (same : others.Perm threads) : Interleaves threads others.flatten :=
  (interleaves_flatten others).of_perm same

end MatrixDB.Lib
