import Mathlib.Logic.Function.Basic
import Mathlib.Data.List.Basic

/-!
# Calls under a shared/exclusive lock

Any number of calls run at the same time over one state.  A call begins with
a shared or an exclusive section; a shared section may find that it needs the
exclusive lock, lets go and starts over with an exclusive section.

Sections are not atomic.  A shared section looks at the state at several
moments and puts together what it saw.  An exclusive section leaves anything
in the state while it runs, and what it ends with is only known if nobody else
has touched the state since it began.  That the calls can nevertheless be put
into one order is what the lock is for.
-/

namespace MatrixDB.Lib

/-- What the sections of the calls do. -/
structure LockedServer (ι S R : Type) where
  startsShared : ι → Bool
  /-- What can be put together from looks at several moments. -/
  Sees : List S → S → Prop
  /-- A shared section that saw some state, the state it is run on, its result
  or the need for the exclusive lock, and the state afterwards. -/
  Reads : ι → S → S → Option R → S → Prop
  /-- An exclusive section run on a state. -/
  Writes : ι → S → R → S → Prop

/-- How far a call is.  An exclusive section knows the state it was entered
in and the one it left last. -/
inductive Phase (S R : Type) where
  | idle
  | waiting (exclusive : Bool)
  | reading (looks : List S)
  | read (outcome : Option R)
  | writing (entry left : S)
  | wrote (result : R)
  | returned (result : R)

namespace Phase

variable {S R : Type}

def holdsShared : Phase S R → Bool
  | .reading _ => true
  | .read _ => true
  | _ => false

def holdsExclusive : Phase S R → Bool
  | .writing _ _ => true
  | .wrote _ => true
  | _ => false

/-- The result of a call that has been decided. -/
def result : Phase S R → Option R
  | .read outcome => outcome
  | .wrote result => some result
  | .returned result => some result
  | _ => none

end Phase

structure LockState (ι S R : Type) where
  state : S
  phase : ι → Phase S R

inductive LockEvent (ι R : Type) where
  | invoke (call : ι)
  | acquire (call : ι)
  | look (call : ι)
  | read (call : ι) (outcome : Option R)
  | scribble (call : ι)
  | finish (call : ι) (result : R)
  | escalate (call : ι)
  | return (call : ι) (result : R)

variable {ι S R : Type}

/-- The call an event belongs to. -/
def LockEvent.caller : LockEvent ι R → ι
  | .invoke call => call
  | .acquire call => call
  | .look call => call
  | .read call _ => call
  | .scribble call => call
  | .finish call _ => call
  | .escalate call => call
  | .return call _ => call

/-- The call an event decides, with its result. -/
def LockEvent.decides : LockEvent ι R → Option (ι × R)
  | .read call (some result) => some (call, result)
  | .finish call result => some (call, result)
  | _ => none

/-- The decided calls in the order of their decisions. -/
def decisions (trace : List (LockEvent ι R)) : List (ι × R) :=
  trace.filterMap LockEvent.decides

theorem decisions_append (first second : List (LockEvent ι R)) :
    decisions (first ++ second) = decisions first ++ decisions second :=
  List.filterMap_append

theorem decisions_silent (trace : List (LockEvent ι R))
    {event : LockEvent ι R} (nothing : event.decides = none) :
    decisions (trace ++ [event]) = decisions trace := by
  rw [decisions_append]
  simp [decisions, nothing]

theorem decisions_decided (trace : List (LockEvent ι R))
    {event : LockEvent ι R} {i : ι} {result : R}
    (decision : event.decides = some (i, result)) :
    decisions (trace ++ [event]) = decisions trace ++ [(i, result)] := by
  rw [decisions_append]
  simp [decisions, decision]

namespace LockState

variable [DecidableEq ι]

/-- Every call is still to come. -/
def start (state : S) : LockState ι S R :=
  { state := state, phase := fun _ => .idle }

/-- A call goes on to another phase. -/
def move (system : LockState ι S R) (call : ι) (phase : Phase S R) :
    LockState ι S R :=
  { system with phase := Function.update system.phase call phase }

/-- A call goes on to another phase and leaves another state. -/
def put (system : LockState ι S R) (call : ι) (phase : Phase S R)
    (state : S) : LockState ι S R :=
  { state := state, phase := Function.update system.phase call phase }

theorem put_phase_self {system : LockState ι S R} {call : ι}
    {phase : Phase S R} {state : S} :
    (system.put call phase state).phase call = phase :=
  Function.update_self ..

end LockState

section
variable [DecidableEq ι]

open LockState

inductive LockStep (server : LockedServer ι S R) :
    LockState ι S R → LockEvent ι R → LockState ι S R → Prop where
  | invoke {system : LockState ι S R} {i : ι}
      (idle : system.phase i = .idle) :
      LockStep server system (.invoke i)
        (system.move i (.waiting (!server.startsShared i)))
  | acquireShared {system : LockState ι S R} {i : ι}
      (waits : system.phase i = .waiting false)
      (free : ∀ j, (system.phase j).holdsExclusive = false) :
      LockStep server system (.acquire i) (system.move i (.reading []))
  | acquireExclusive {system : LockState ι S R} {i : ι}
      (waits : system.phase i = .waiting true)
      (free : ∀ j, (system.phase j).holdsExclusive = false ∧
        (system.phase j).holdsShared = false) :
      LockStep server system (.acquire i)
        (system.move i (.writing system.state system.state))
  | look {system : LockState ι S R} {i : ι} {looks : List S}
      (reads : system.phase i = .reading looks) :
      LockStep server system (.look i)
        (system.move i (.reading (system.state :: looks)))
  | read {system : LockState ι S R} {i : ι} {looks : List S} {seen after : S}
      {outcome : Option R} (reads : system.phase i = .reading looks)
      (sees : server.Sees looks seen)
      (ran : server.Reads i seen system.state outcome after) :
      LockStep server system (.read i outcome)
        (system.put i (.read outcome) after)
  | scribble {system : LockState ι S R} {i : ι} {entry left : S}
      (writes : system.phase i = .writing entry left) (after : S) :
      LockStep server system (.scribble i)
        (system.put i (.writing entry after) after)
  | finish {system : LockState ι S R} {i : ι} {entry left after : S}
      {result : R} (writes : system.phase i = .writing entry left)
      (alone : system.state = left) (ran : server.Writes i entry result after) :
      LockStep server system (.finish i result)
        (system.put i (.wrote result) after)
  | disturbed {system : LockState ι S R} {i : ι} {entry left : S}
      (writes : system.phase i = .writing entry left)
      (torn : system.state ≠ left) (result : R) (after : S) :
      LockStep server system (.finish i result)
        (system.put i (.wrote result) after)
  | escalate {system : LockState ι S R} {i : ι}
      (refused : system.phase i = .read none) :
      LockStep server system (.escalate i) (system.move i (.waiting true))
  | returnShared {system : LockState ι S R} {i : ι} {result : R}
      (answered : system.phase i = .read (some result)) :
      LockStep server system (.return i result)
        (system.move i (.returned result))
  | returnExclusive {system : LockState ι S R} {i : ι} {result : R}
      (answered : system.phase i = .wrote result) :
      LockStep server system (.return i result)
        (system.move i (.returned result))

inductive LockRun (server : LockedServer ι S R) (first : LockState ι S R) :
    List (LockEvent ι R) → LockState ι S R → Prop where
  | done : LockRun server first [] first
  | step {last next : LockState ι S R} {trace : List (LockEvent ι R)}
      {event : LockEvent ι R} (before : LockRun server first trace last)
      (step : LockStep server last event next) :
      LockRun server first (trace ++ [event]) next

/-! ## Phases along a run -/

theorem LockStep.phase_ne {server : LockedServer ι S R}
    {system next : LockState ι S R} {event : LockEvent ι R}
    (step : LockStep server system event next) {j : ι}
    (other : j ≠ event.caller) : next.phase j = system.phase j := by
  cases step <;> exact Function.update_of_ne other _ _

/-- No call is idle again, and one that has returned stays so. -/
theorem LockStep.phase_stays {server : LockedServer ι S R}
    {system next : LockState ι S R} {event : LockEvent ι R}
    (step : LockStep server system event next) (j : ι) :
    (system.phase j ≠ .idle → next.phase j ≠ .idle) ∧
      ∀ result, system.phase j = .returned result →
        next.phase j = .returned result := by
  by_cases own : j = event.caller
  · constructor
    · intro _
      subst own
      cases step <;> simp [LockState.move, LockState.put, LockEvent.caller]
    · intro result returned
      subst own
      cases step <;> simp_all [LockEvent.caller]
  · rw [step.phase_ne own]
    exact ⟨id, fun _ => id⟩

theorem LockRun.split {server : LockedServer ι S R}
    {system last : LockState ι S R} {before after : List (LockEvent ι R)}
    (run : LockRun server system (before ++ after) last) :
    ∃ middle, LockRun server system before middle ∧
      LockRun server middle after last := by
  generalize whole : before ++ after = trace at run
  induction run generalizing after with
  | done =>
      obtain ⟨rfl, rfl⟩ := List.append_eq_nil_iff.mp whole
      exact ⟨system, .done, .done⟩
  | @step last next trace event run step induction =>
      rcases List.eq_nil_or_concat after with rfl | ⟨later, final, rfl⟩
      · rw [List.append_nil] at whole
        subst whole
        exact ⟨next, run.step step, .done⟩
      · rw [List.concat_eq_append, ← List.append_assoc] at whole
        obtain ⟨same, finals⟩ := List.append_inj' whole rfl
        obtain ⟨middle, start, rest⟩ := induction same
        cases finals
        rw [List.concat_eq_append]
        exact ⟨middle, start, rest.step step⟩

/-- A call that has been called is not called again. -/
theorem LockRun.not_invoked {server : LockedServer ι S R}
    {system last : LockState ι S R} {trace : List (LockEvent ι R)}
    (run : LockRun server system trace last) {j : ι}
    (called : system.phase j ≠ .idle) :
    last.phase j ≠ .idle ∧ .invoke j ∉ trace := by
  induction run with
  | done => exact ⟨called, List.not_mem_nil⟩
  | step _ step induction =>
      obtain ⟨still, absent⟩ := induction
      refine ⟨(step.phase_stays j).1 still, ?_⟩
      intro member
      rcases List.mem_append.mp member with old | new
      · exact absent old
      · cases List.mem_singleton.mp new
        cases step with
        | invoke idle => exact still idle

theorem LockRun.returned {server : LockedServer ι S R}
    {system last : LockState ι S R} {trace : List (LockEvent ι R)}
    (run : LockRun server system trace last) {j : ι} {result : R}
    (event : .return j result ∈ trace) :
    last.phase j = .returned result := by
  induction run with
  | done => cases event
  | step _ step induction =>
      rcases List.mem_append.mp event with old | new
      · exact (step.phase_stays j).2 result (induction old)
      · cases List.mem_singleton.mp new
        cases step <;> exact Function.update_self ..

/-- A call that has returned has done so in the run. -/
theorem LockRun.return_mem {server : LockedServer ι S R} {state : S}
    {last : LockState ι S R} {trace : List (LockEvent ι R)}
    (run : LockRun server (LockState.start state) trace last) {j : ι}
    {result : R} (returned : last.phase j = .returned result) :
    .return j result ∈ trace := by
  induction run with
  | done => cases returned
  | @step _ _ _ event _ step induction =>
      by_cases own : j = event.caller
      · subst own
        apply List.mem_append_right
        cases step with
        | returnShared | returnExclusive =>
            simp only [LockEvent.caller, LockState.move,
              Function.update_self, Phase.returned.injEq] at returned
            rw [returned]
            exact List.mem_singleton_self _
        | invoke | acquireShared | acquireExclusive | look | read | scribble
        | finish | disturbed | escalate =>
            simp [LockEvent.caller, LockState.move, LockState.put] at returned
      · rw [step.phase_ne own] at returned
        exact List.mem_append_left _ (induction returned)

/-- A server whose shared sections can end in more ways has more runs. -/
theorem LockRun.weaken {server : LockedServer ι S R}
    {first last : LockState ι S R} {trace : List (LockEvent ι R)}
    (run : LockRun server first trace last) (other : LockedServer ι S R)
    (starts : other.startsShared = server.startsShared)
    (sees : ∀ looks seen, server.Sees looks seen → other.Sees looks seen)
    (reads : ∀ i seen state outcome after,
      server.Reads i seen state outcome after →
        other.Reads i seen state outcome after)
    (writes : ∀ i state result after, server.Writes i state result after →
      other.Writes i state result after) :
    LockRun other first trace last := by
  induction run with
  | done => exact .done
  | step _ step induction =>
      apply induction.step
      cases step with
      | invoke idle =>
          rw [← starts]
          exact .invoke idle
      | acquireShared waits free => exact .acquireShared waits free
      | acquireExclusive waits free => exact .acquireExclusive waits free
      | look reading => exact .look reading
      | read reading saw ran =>
          exact .read reading (sees _ _ saw) (reads _ _ _ _ _ ran)
      | scribble writing after => exact .scribble writing after
      | finish writing alone ran =>
          exact .finish writing alone (writes _ _ _ _ ran)
      | disturbed writing torn result after =>
          exact .disturbed writing torn result after
      | escalate refused => exact .escalate refused
      | returnShared answered => exact .returnShared answered
      | returnExclusive answered => exact .returnExclusive answered

/-! ## One order for all calls -/

/-- One call after another. -/
inductive Serves (spec : ι → S → R → S → Prop) (first : S) :
    List (ι × R) → S → Prop where
  | done : Serves spec first [] first
  | call {last next : S} {calls : List (ι × R)} {i : ι} {result : R}
      (before : Serves spec first calls last)
      (ran : spec i last result next) :
      Serves spec first (calls ++ [(i, result)]) next

omit [DecidableEq ι] in
theorem Serves.silent {spec : ι → S → R → S → Prop} {first last : S}
    {trace : List (LockEvent ι R)} {event : LockEvent ι R}
    (serves : Serves spec first (decisions trace) last)
    (nothing : event.decides = none) :
    Serves spec first (decisions (trace ++ [event])) last := by
  rw [decisions_silent trace nothing]
  exact serves

omit [DecidableEq ι] in
theorem Serves.decided {spec : ι → S → R → S → Prop} {first last next : S}
    {trace : List (LockEvent ι R)} {event : LockEvent ι R} {i : ι}
    {result : R} (serves : Serves spec first (decisions trace) last)
    (decision : event.decides = some (i, result))
    (ran : spec i last result next) :
    Serves spec first (decisions (trace ++ [event])) next := by
  rw [decisions_decided trace decision]
  exact serves.call ran

/-- What makes the sections equivalent to calls of `spec`.  `Alike` is what a
shared section cannot tell apart and does not change; `Same` relates the state
of the server to the state of the calls in sequence. -/
structure Linearizes (server : LockedServer ι S R)
    (spec : ι → S → R → S → Prop) (Same Alike : S → S → Prop) : Prop where
  trans : ∀ first second third, Alike first second → Alike second third →
    Alike first third
  refl : ∀ state, Alike state state
  keeps : ∀ i seen state outcome after,
    server.Reads i seen state outcome after → Alike state after
  sees : ∀ i looks seen state outcome after, server.Sees looks seen →
    (∀ look ∈ looks, Alike look state) →
    server.Reads i seen state outcome after →
    server.Reads i state state outcome after
  answers : ∀ i state result after other,
    server.Reads i state state (some result) after → Same state other →
    ∃ next, spec i other result next ∧ Same after next
  refuses : ∀ i state after other, server.Reads i state state none after →
    Same state other → Same after other
  writes : ∀ i state result after other, server.Writes i state result after →
    Same state other → ∃ next, spec i other result next ∧ Same after next

/-- The state of the server against the state of the calls in sequence.  While
an exclusive section runs, only the state it was entered in counts. -/
structure Synced (Same : S → S → Prop) (system : LockState ι S R)
    (other : S) : Prop where
  writing : ∀ i entry left, system.phase i = .writing entry left →
    system.state = left ∧ Same entry other
  quiet : (∀ i entry left, system.phase i ≠ .writing entry left) →
    Same system.state other

/-- The invariant of a run. -/
structure InOrder (spec : ι → S → R → S → Prop) (Same Alike : S → S → Prop)
    (first : S) (trace : List (LockEvent ι R)) (system : LockState ι S R) :
    Prop where
  exclusion : ∀ i j, i ≠ j → (system.phase i).holdsExclusive = true →
    (system.phase j).holdsExclusive = false ∧
      (system.phase j).holdsShared = false
  looks : ∀ i looks, system.phase i = .reading looks →
    ∀ look ∈ looks, Alike look system.state
  decided : ∀ i result, (i, result) ∈ decisions trace ↔
    (system.phase i).result = some result
  once : ((decisions trace).map Prod.fst).Nodup
  serves : ∃ other, Serves spec first (decisions trace) other ∧
    Synced Same system other

section
variable {server : LockedServer ι S R} {system next : LockState ι S R}
  {event : LockEvent ι R}

/-- A lock is taken only when it is free. -/
theorem LockStep.takes (step : LockStep server system event next) :
    ((next.phase event.caller).holdsExclusive = true →
      (system.phase event.caller).holdsExclusive = true ∨
        ∀ j, (system.phase j).holdsExclusive = false ∧
          (system.phase j).holdsShared = false) ∧
    ((next.phase event.caller).holdsShared = true →
      (system.phase event.caller).holdsShared = true ∨
        ∀ j, (system.phase j).holdsExclusive = false) := by
  cases step with
  | @acquireShared i waits free =>
      constructor
      · simp [LockState.move, LockEvent.caller, Phase.holdsExclusive]
      · intro _
        exact .inr free
  | @acquireExclusive i waits free =>
      constructor
      · intro _
        exact .inr free
      · simp [LockState.move, LockEvent.caller, Phase.holdsShared]
  | look reads | read reads =>
      simp [LockState.move, LockState.put, LockEvent.caller, reads,
        Phase.holdsExclusive, Phase.holdsShared]
  | scribble writes | finish writes | disturbed writes =>
      simp [LockState.put, LockEvent.caller, writes, Phase.holdsExclusive,
        Phase.holdsShared]
  | invoke | escalate | returnShared | returnExclusive =>
      simp [LockState.move, LockEvent.caller, Phase.holdsExclusive,
        Phase.holdsShared]

/-- The result of a call appears with the event that decides it. -/
theorem LockStep.decides_cases (step : LockStep server system event next) :
    (event.decides = none ∧
      (next.phase event.caller).result =
        (system.phase event.caller).result) ∨
    ∃ result, event.decides = some (event.caller, result) ∧
      (system.phase event.caller).result = none ∧
      (next.phase event.caller).result = some result := by
  cases step with
  | @read i looks seen after outcome reads sees ran =>
      cases outcome with
      | none =>
          left
          simp [LockState.put, LockEvent.decides, LockEvent.caller, reads,
            Phase.result]
      | some result =>
          right
          exact ⟨result, rfl, by simp [LockEvent.caller, reads, Phase.result],
            by simp [LockState.put, LockEvent.caller, Phase.result]⟩
  | @finish i entry left after result writes alone ran =>
      right
      exact ⟨result, rfl, by simp [LockEvent.caller, writes, Phase.result],
        by simp [LockState.put, LockEvent.caller, Phase.result]⟩
  | @disturbed i entry left writes torn result after =>
      right
      exact ⟨result, rfl, by simp [LockEvent.caller, writes, Phase.result],
        by simp [LockState.put, LockEvent.caller, Phase.result]⟩
  | invoke was | look was | scribble was | escalate was | returnShared was
    | returnExclusive was | acquireShared was | acquireExclusive was =>
      left
      simp [LockState.move, LockState.put, LockEvent.decides,
        LockEvent.caller, was, Phase.result]

variable {spec : ι → S → R → S → Prop} {Same Alike : S → S → Prop}
  {first : S} {trace : List (LockEvent ι R)}

theorem InOrder.exclusion_step
    (order : InOrder spec Same Alike first trace system)
    (step : LockStep server system event next) :
    ∀ i j, i ≠ j → (next.phase i).holdsExclusive = true →
      (next.phase j).holdsExclusive = false ∧
        (next.phase j).holdsShared = false := by
  intro i j different holds
  obtain ⟨exclusive, shared⟩ := step.takes
  by_cases own : i = event.caller
  · have other : j ≠ event.caller := fun same => different (own.trans same.symm)
    rw [step.phase_ne other]
    rw [own] at holds
    rcases exclusive holds with held | free
    · exact order.exclusion event.caller j (Ne.symm other) held
    · exact free j
  · rw [step.phase_ne own] at holds
    by_cases theirs : j = event.caller
    · have before := order.exclusion i j different holds
      rw [theirs] at before ⊢
      constructor
      · apply Bool.eq_false_iff.mpr
        intro taken
        rcases exclusive taken with held | free
        · rw [before.1] at held
          cases held
        · rw [(free i).1] at holds
          cases holds
      · apply Bool.eq_false_iff.mpr
        intro taken
        rcases shared taken with held | free
        · rw [before.2] at held
          cases held
        · rw [free i] at holds
          cases holds
    · rw [step.phase_ne theirs]
      exact order.exclusion i j different holds

theorem InOrder.decided_step
    (order : InOrder spec Same Alike first trace system)
    (step : LockStep server system event next) :
    (∀ i result, (i, result) ∈ decisions (trace ++ [event]) ↔
        (next.phase i).result = some result) ∧
      ((decisions (trace ++ [event])).map Prod.fst).Nodup := by
  rcases step.decides_cases with ⟨none, same⟩ | ⟨result, some, before, after⟩
  · rw [decisions_silent trace none]
    refine ⟨?_, order.once⟩
    intro i result
    rw [order.decided]
    by_cases own : i = event.caller
    · rw [own, same]
    · rw [step.phase_ne own]
  · have fresh : ∀ other, (event.caller, other) ∉ decisions trace := by
      intro other member
      rw [order.decided, before] at member
      cases member
    rw [decisions_decided trace some]
    constructor
    · intro i other
      rw [List.mem_append, order.decided, List.mem_singleton]
      by_cases own : i = event.caller
      · subst own
        rw [before, after]
        simp [eq_comm]
      · rw [step.phase_ne own]
        simp [own]
    · rw [List.map_append, List.nodup_append]
      refine ⟨order.once, by simp, ?_⟩
      intro i old j new
      obtain ⟨⟨_, other⟩, member, rfl⟩ := List.mem_map.mp old
      simp only [List.map_cons, List.map_nil, List.mem_singleton] at new
      intro same
      subst new
      exact fresh other (same ▸ member)

omit [DecidableEq ι] in
/-- Nobody writes while a call reads. -/
theorem InOrder.not_writing
    (order : InOrder spec Same Alike first trace system) {i : ι}
    (shared : (system.phase i).holdsShared = true) (j : ι) (entry left : S) :
    system.phase j ≠ .writing entry left := by
  intro writes
  have different : j ≠ i := by
    intro same
    rw [← same, writes] at shared
    cases shared
  have excluded := order.exclusion j i different (by rw [writes]; rfl)
  rw [excluded.2] at shared
  cases shared

/-- While a call reads, only readers change the state, and not by much. -/
theorem InOrder.alike_step (linearizes : Linearizes server spec Same Alike)
    (order : InOrder spec Same Alike first trace system)
    (step : LockStep server system event next) {i : ι}
    (shared : (system.phase i).holdsShared = true) :
    Alike system.state next.state := by
  cases step with
  | @read j looks seen after outcome reads sees ran =>
      exact linearizes.keeps j seen system.state outcome after ran
  | scribble writes | finish writes | disturbed writes =>
      exact absurd writes (order.not_writing shared _ _ _)
  | invoke | acquireShared | acquireExclusive | look | escalate
    | returnShared | returnExclusive =>
      exact linearizes.refl system.state

theorem InOrder.looks_step (linearizes : Linearizes server spec Same Alike)
    (order : InOrder spec Same Alike first trace system)
    (step : LockStep server system event next) :
    ∀ i looks, next.phase i = .reading looks →
      ∀ look ∈ looks, Alike look next.state := by
  intro i looks reading look member
  by_cases own : i = event.caller
  · rw [own] at reading
    cases step with
    | acquireShared waits free =>
        cases (Function.update_self ..).symm.trans reading
        cases member
    | @look j earlier reads =>
        cases (Function.update_self ..).symm.trans reading
        rcases List.mem_cons.mp member with rfl | old
        · exact linearizes.refl system.state
        · exact order.looks j earlier reads look old
    | invoke | acquireExclusive | read | scribble | finish | disturbed
      | escalate | returnShared | returnExclusive =>
        cases (Function.update_self ..).symm.trans reading
  · rw [step.phase_ne own] at reading
    have shared : (system.phase i).holdsShared = true := by
      rw [reading]
      rfl
    exact linearizes.trans look system.state next.state
      (order.looks i looks reading look member)
      (order.alike_step linearizes step shared)

omit [DecidableEq ι] in
/-- Nobody else writes while a call writes. -/
theorem InOrder.only_writer
    (order : InOrder spec Same Alike first trace system) {i j : ι}
    {entry left : S} (writes : system.phase i = .writing entry left)
    (other : j ≠ i) (theirs after : S) :
    system.phase j ≠ .writing theirs after := by
  intro also
  have excluded := order.exclusion i j (Ne.symm other) (by rw [writes]; rfl)
  rw [also] at excluded
  cases excluded.1

omit [DecidableEq ι] in
theorem Synced.of_quiet {other : S}
    (quiet : ∀ i entry left, system.phase i ≠ .writing entry left)
    (same : Same system.state other) : Synced Same system other where
  writing i entry left writes := absurd writes (quiet i entry left)
  quiet _ := same

/-- A call that does not write moves on and does not begin to write. -/
theorem Synced.move {other : S} (synced : Synced Same system other) {i : ι}
    {phase : Phase S R} (was : (system.phase i).holdsExclusive = false ∨
      ∃ result, system.phase i = .wrote result)
    (becomes : phase.holdsExclusive = false) :
    Synced Same (system.move i phase) other where
  writing j entry left writes := by
    by_cases own : j = i
    · have entered := (Function.update_self ..).symm.trans (own ▸ writes)
      rw [entered] at becomes
      cases becomes
    · exact synced.writing j entry left
        ((Function.update_of_ne own _ _).symm.trans writes)
  quiet nobody := by
    apply synced.quiet
    intro j entry left writes
    by_cases own : j = i
    · rw [own] at writes
      rw [writes] at was
      rcases was with not | ⟨_, wrote⟩
      · cases not
      · cases wrote
    · exact nobody j entry left ((Function.update_of_ne own _ _).trans writes)

/-- A call that begins to write, or goes on writing, alone. -/
theorem Synced.enter {other entry state : S} {i : ι}
    (alone : ∀ j, j ≠ i → ∀ theirs left,
      system.phase j ≠ .writing theirs left) (same : Same entry other) :
    Synced Same (system.put i (.writing entry state) state) other where
  writing j theirs left writes := by
    by_cases own : j = i
    · cases (Function.update_self ..).symm.trans (own ▸ writes)
      exact ⟨rfl, same⟩
    · exact absurd ((Function.update_of_ne own _ _).symm.trans writes)
        (alone j own theirs left)
  quiet nobody := absurd (Function.update_self ..) (nobody i entry state)

/-- A call that leaves a state and does not write, and nobody else does. -/
theorem Synced.leave {other state : S} {i : ι} {phase : Phase S R}
    (alone : ∀ j, j ≠ i → ∀ theirs left,
      system.phase j ≠ .writing theirs left)
    (done : ∀ theirs left, phase ≠ .writing theirs left)
    (same : Same state other) : Synced Same (system.put i phase state) other := by
  apply Synced.of_quiet
  · intro j theirs left writes
    by_cases own : j = i
    · subst own
      exact done theirs left (put_phase_self.symm.trans writes)
    · exact alone j own theirs left
        ((Function.update_of_ne own _ _).symm.trans writes)
  · exact same

/-- Either nothing is decided and the sequence stays, or the decided call is
served next in it. -/
theorem InOrder.serves_step (linearizes : Linearizes server spec Same Alike)
    (order : InOrder spec Same Alike first trace system)
    (step : LockStep server system event next) :
    ∃ other, Serves spec first (decisions (trace ++ [event])) other ∧
      Synced Same next other := by
  obtain ⟨other, serves, synced⟩ := order.serves
  cases step with
  | @read i looks seen after outcome reads sees ran =>
      have quiet : ∀ j entry left, system.phase j ≠ .writing entry left := by
        apply order.not_writing
        rw [reads]
        rfl
      have same := synced.quiet quiet
      have saw := linearizes.sees i looks seen system.state outcome after sees
        (order.looks i looks reads) ran
      cases outcome with
      | none =>
          have still := linearizes.refuses i system.state after other saw same
          exact ⟨other, serves.silent rfl,
            .leave (fun j _ => quiet j) (fun _ _ => nofun) still⟩
      | some result =>
          obtain ⟨reached, ran, still⟩ := linearizes.answers i system.state
            result after other saw same
          exact ⟨reached, serves.decided rfl ran,
            .leave (fun j _ => quiet j) (fun _ _ => nofun) still⟩
  | @finish i entry left after result writes alone ran =>
      have same := (synced.writing i entry left writes).2
      obtain ⟨reached, ran, still⟩ := linearizes.writes i entry result after
        other ran same
      exact ⟨reached, serves.decided rfl ran,
        .leave (fun j others => order.only_writer writes others)
          (fun _ _ => nofun) still⟩
  | @disturbed i entry left writes torn result after =>
      exact absurd (synced.writing i entry left writes).1 torn
  | @scribble i entry left writes after =>
      have same := (synced.writing i entry left writes).2
      exact ⟨other, serves.silent rfl,
        .enter (fun j others => order.only_writer writes others) same⟩
  | @acquireExclusive i waits free =>
      have quiet : ∀ j entry left, system.phase j ≠ .writing entry left := by
        intro j entry left writes
        have held := (free j).1
        rw [writes] at held
        cases held
      exact ⟨other, serves.silent rfl,
        .enter (fun j _ => quiet j) (synced.quiet quiet)⟩
  | returnExclusive answered =>
      exact ⟨other, serves.silent rfl,
        synced.move (.inr ⟨_, answered⟩) rfl⟩
  | invoke was | acquireShared was | look was | escalate was
    | returnShared was =>
      exact ⟨other, serves.silent rfl,
        synced.move (.inl (by rw [was]; rfl)) rfl⟩

theorem InOrder.step (linearizes : Linearizes server spec Same Alike)
    (order : InOrder spec Same Alike first trace system)
    (step : LockStep server system event next) :
    InOrder spec Same Alike first (trace ++ [event]) next where
  exclusion := order.exclusion_step step
  looks := order.looks_step linearizes step
  decided := (order.decided_step step).1
  once := (order.decided_step step).2
  serves := order.serves_step linearizes step

omit [DecidableEq ι] in
theorem InOrder.start {state : S} (same : Same state first) :
    InOrder spec Same Alike first [] (LockState.start (ι := ι) (R := R) state)
    where
  exclusion _ _ _ holds := by cases holds
  looks _ _ reading := by cases reading
  decided i result := by
    simp [decisions, LockState.start, Phase.result]
  once := List.nodup_nil
  serves := ⟨first, .done, .of_quiet (fun _ _ _ => nofun) same⟩

theorem LockRun.inOrder (linearizes : Linearizes server spec Same Alike)
    {state : S} (same : Same state first) {last : LockState ι S R}
    (run : LockRun server (LockState.start state) trace last) :
    InOrder spec Same Alike first trace last := by
  induction run with
  | done => exact .start same
  | step _ step induction => exact induction.step linearizes step

/-! ## Real time -/

/-- A call that returned before another one was called was decided before
it. -/
theorem LockRun.decided_before (linearizes : Linearizes server spec Same Alike)
    {state : S} (same : Same state first) {last : LockState ι S R}
    {before after : List (LockEvent ι R)}
    (run : LockRun server (LockState.start state) (before ++ after) last)
    {i j : ι} {result : R} (returned : .return i result ∈ before)
    (invoked : .invoke j ∈ after) :
    i ∈ (decisions before).map Prod.fst ∧
      j ∉ (decisions before).map Prod.fst := by
  obtain ⟨middle, early, late⟩ := run.split
  have order := early.inOrder linearizes same
  constructor
  · have decided := (order.decided i result).mpr
      (by rw [early.returned returned]; rfl)
    exact List.mem_map_of_mem decided
  · intro member
    obtain ⟨⟨_, other⟩, decided, rfl⟩ := List.mem_map.mp member
    have known := (order.decided _ other).mp decided
    have idle : ¬ middle.phase _ ≠ .idle :=
      fun called => (late.not_invoked called).2 invoked
    rw [not_not.mp idle] at known
    cases known

/-- An order in which no call comes before one that had returned when it was
called. -/
def RealTime (trace : List (LockEvent ι R)) (order : List ι) : Prop :=
  ∀ before after i result j, trace = before ++ after →
    .return i result ∈ before → .invoke j ∈ after →
    order.idxOf i < order.idxOf j

theorem LockRun.realTime (linearizes : Linearizes server spec Same Alike)
    {state : S} (same : Same state first) {last : LockState ι S R}
    (run : LockRun server (LockState.start state) trace last) :
    RealTime trace ((decisions trace).map Prod.fst) := by
  intro before after i result j split returned invoked
  subst split
  obtain ⟨early, late⟩ := run.decided_before linearizes same returned invoked
  rw [decisions_append, List.map_append, List.idxOf_append_of_mem early,
    List.idxOf_append_of_notMem late]
  have within := List.idxOf_lt_length_of_mem early
  omega

/-- When all calls have returned, they can be put into one order that agrees
with real time, and served one after another in it with the same results. -/
theorem LockRun.linearizable (linearizes : Linearizes server spec Same Alike)
    {state : S} (same : Same state first) {last : LockState ι S R}
    (run : LockRun server (LockState.start state) trace last)
    (complete : ∀ i, ∃ result, last.phase i = .returned result) :
    ∃ calls other, Serves spec first calls other ∧ Same last.state other ∧
      (calls.map Prod.fst).Nodup ∧ RealTime trace (calls.map Prod.fst) ∧
      ∀ i result, last.phase i = .returned result → (i, result) ∈ calls := by
  have order := run.inOrder linearizes same
  obtain ⟨other, serves, synced⟩ := order.serves
  refine ⟨decisions trace, other, serves, ?_, order.once,
    run.realTime linearizes same, ?_⟩
  · apply synced.quiet
    intro i entry left writes
    obtain ⟨result, returned⟩ := complete i
    rw [returned] at writes
    cases writes
  · intro i result returned
    rw [order.decided, returned]
    rfl

end

end

end MatrixDB.Lib
