/-!
# Crash conditions

A machine runs actions one after another.  An action either completes,
aborts the process, or is cut short by a crash after part of its effect.  A
triple states, for a list of actions, what holds when all of them complete
and what holds wherever the process may stop before that.
-/

namespace MatrixDB.Lib

/-- `run` completes an action (`none` when it aborts the process); `cut`
leaves the first part of its effect, as much as `extent` says. -/
structure Machine (A W : Type) where
  run : A → W → Option W
  cut : A → Nat → W → W

namespace Machine

variable {A W : Type} (machine : Machine A W)

def runAll : List A → W → Option W
  | [], world => some world
  | action :: later, world =>
      match machine.run action world with
      | some next => runAll later next
      | none => none

/-- The world left by a crash in the action number `count`, or by the abort
of an earlier one. -/
def stopAt : List A → Nat → Nat → W → W
  | [], _, _, world => world
  | action :: _, 0, extent, world => machine.cut action extent world
  | action :: later, count + 1, extent, world =>
      match machine.run action world with
      | some next => stopAt later count extent next
      | none => world

theorem runAll_cons (action : A) (later : List A) (world : W) :
    machine.runAll (action :: later) world =
      (machine.run action world).bind (machine.runAll later) := by
  rw [runAll]
  cases machine.run action world <;> rfl

theorem runAll_append (earlier later : List A) (world : W) :
    machine.runAll (earlier ++ later) world =
      (machine.runAll earlier world).bind (machine.runAll later) := by
  induction earlier generalizing world with
  | nil => rfl
  | cons action earlier induction =>
      simp only [List.cons_append, runAll]
      cases machine.run action world with
      | none => rfl
      | some next => exact induction next

/-- What every action preserves holds after any list of them. -/
theorem runAll_preserves {invariant : W → Prop}
    (step : ∀ action world next, invariant world →
      machine.run action world = some next → invariant next)
    {actions : List A} {world final : W} (holds : invariant world)
    (ran : machine.runAll actions world = some final) : invariant final := by
  induction actions generalizing world with
  | nil =>
      cases ran
      exact holds
  | cons action later induction =>
      rw [runAll] at ran
      split at ran
      · rename_i next first
        exact induction (step action world next holds first) ran
      · cases ran

/-- From `before`, the actions lead to `after` if all of them complete, and a
stop anywhere on the way satisfies `crash`. -/
def CrashTriple (before : W → Prop) (actions : List A)
    (after crash : W → Prop) : Prop :=
  ∀ world, before world →
    (∀ final, machine.runAll actions world = some final → after final) ∧
      ∀ count extent, crash (machine.stopAt actions count extent world)

namespace CrashTriple

variable {machine} {before middle after crash : W → Prop}

theorem nil (safe : ∀ world, before world → crash world) :
    machine.CrashTriple before [] before crash := by
  intro world holds
  constructor
  · intro final finished
    cases finished
    exact holds
  · intro _ _
    exact safe world holds

theorem cons {action : A} {later : List A}
    (safe : ∀ world, before world → crash world)
    (torn : ∀ world extent, before world →
      crash (machine.cut action extent world))
    (step : ∀ world next, before world →
      machine.run action world = some next → middle next)
    (rest : machine.CrashTriple middle later after crash) :
    machine.CrashTriple before (action :: later) after crash := by
  intro world holds
  cases ran : machine.run action world with
  | none =>
      constructor
      · intro final finished
        simp [runAll, ran] at finished
      · intro count extent
        cases count with
        | zero => exact torn world extent holds
        | succ count =>
            simp only [stopAt, ran]
            exact safe world holds
  | some next =>
      obtain ⟨complete, stopped⟩ := rest next (step world next holds ran)
      constructor
      · intro final finished
        simp only [runAll, ran] at finished
        exact complete final finished
      · intro count extent
        cases count with
        | zero => exact torn world extent holds
        | succ count =>
            simp only [stopAt, ran]
            exact stopped count extent

theorem append {earlier later : List A}
    (first : machine.CrashTriple before earlier middle crash)
    (second : machine.CrashTriple middle later after crash) :
    machine.CrashTriple before (earlier ++ later) after crash := by
  intro world holds
  obtain ⟨firstDone, firstStop⟩ := first world holds
  clear first holds
  induction earlier generalizing world with
  | nil => exact second world (firstDone world rfl)
  | cons action earlier induction =>
      cases ran : machine.run action world with
      | none =>
          constructor
          · intro final finished
            simp [runAll, ran] at finished
          · intro count extent
            have stopped := firstStop count extent
            cases count with
            | zero => exact stopped
            | succ count =>
                simp only [stopAt, ran, List.cons_append] at stopped ⊢
                exact stopped
      | some next =>
          have later := induction next
            (fun final finished => firstDone final (by
              simpa [runAll, ran] using finished))
            (fun count extent => by
              have stopped := firstStop (count + 1) extent
              simpa only [stopAt, ran] using stopped)
          constructor
          · intro final finished
            simp only [List.cons_append, runAll, ran] at finished
            exact later.1 final finished
          · intro count extent
            cases count with
            | zero => exact firstStop 0 extent
            | succ count =>
                simp only [List.cons_append, stopAt, ran]
                exact later.2 count extent

theorem weaken {stronger weaker looser : W → Prop} {actions : List A}
    (triple : machine.CrashTriple before actions after crash)
    (stronger_imp : ∀ world, stronger world → before world)
    (imp_weaker : ∀ world, after world → weaker world)
    (imp_looser : ∀ world, crash world → looser world) :
    machine.CrashTriple stronger actions weaker looser := by
  intro world holds
  obtain ⟨complete, stopped⟩ := triple world (stronger_imp world holds)
  constructor
  · intro final finished
    exact imp_weaker final (complete final finished)
  · intro count extent
    exact imp_looser _ (stopped count extent)

/-- What every action keeps, also where it is cut. -/
theorem steady {invariant : W → Prop} {actions : List A}
    (keeps : ∀ action ∈ actions, ∀ world, invariant world →
      (∀ next, machine.run action world = some next → invariant next) ∧
        ∀ extent, invariant (machine.cut action extent world)) :
    machine.CrashTriple invariant actions invariant invariant := by
  induction actions with
  | nil => exact nil fun _ holds => holds
  | cons action actions induction =>
      have first := keeps action List.mem_cons_self
      apply cons (fun _ holds => holds)
      · intro world extent holds
        exact (first world holds).2 extent
      · intro world next holds ran
        exact (first world holds).1 next ran
      · apply induction
        intro later member
        exact keeps later (List.mem_cons_of_mem _ member)

/-- A loop over a list, with an invariant on the items already done. -/
theorem flatMap {α : Type} {body : α → List A} (inv : List α → W → Prop)
    {items : List α}
    (safe : ∀ done world, inv done world → crash world)
    (iteration : ∀ done item, item ∈ items →
      machine.CrashTriple (inv done) (body item) (inv (done ++ [item]))
        crash) :
    machine.CrashTriple (inv []) (items.flatMap body) (inv items) crash := by
  suffices general : ∀ done,
      machine.CrashTriple (inv done) (items.flatMap body)
        (inv (done ++ items)) crash by
    simpa using general []
  induction items with
  | nil =>
      intro done
      rw [List.append_nil]
      exact nil (safe done)
  | cons item items induction =>
      intro done
      have first := iteration done item List.mem_cons_self
      have rest := induction
        (fun done later member =>
          iteration done later (List.mem_cons_of_mem _ member))
        (done ++ [item])
      rw [List.append_assoc, List.singleton_append] at rest
      exact first.append rest

end CrashTriple

end Machine

end MatrixDB.Lib
