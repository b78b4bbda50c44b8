import MatrixDB.Pipeline.Stages

/-!
# The calls of the pipeline's threads on a ring

An access of one thread leaves the other thread alone.  A call of `try_pop` that
starts on a ring with an item takes it, and a value that is offered again and
again is taken once the ring is empty.
-/

namespace MatrixDB

open Lib

/-! ## What an access to a ring does -/

/-- The item of the call that is under way. -/
def Emplacing.value {T : Type} : Emplacing T → Option T
  | .idle => none
  | .loadTail value => some value
  | .checkCachedHead value _ => some value
  | .loadHead value _ => some value
  | .storeCachedHead value _ _ => some value
  | .recheckCachedHead value _ => some value
  | .writeSlot value _ => some value
  | .storeTail value _ => some value

namespace Threads

variable {capacity : Capacity} {T : Type} {threads after : Threads capacity T}
  {event : RingEvent}

/-- The consumer of a ring is not disturbed. -/
structure SameConsumer (threads after : Threads capacity T) : Prop where
  popped : after.popped = threads.popped
  consumer : after.consumer = threads.consumer
  output : after.output = threads.output

/-- The producer of a ring is not disturbed. -/
structure SameProducer (threads after : Threads capacity T) : Prop where
  pushed : after.pushed = threads.pushed
  producer : after.producer = threads.producer

/-- A call that offers a value holds it until it is pushed. -/
structure Offers (value : T) (threads after : Threads capacity T)
    (event : RingEvent) : Prop extends SameConsumer threads after where
  holds : ∀ held, after.producer.value = some held →
    held = value ∧ event ≠ .emplaceReturned true
  pushed : after.pushed = threads.pushed ++
    if event = .emplaceReturned true then [value] else []

theorem stepProducer_offers {value : T}
    (holds : threads.producer.value = some value)
    (ran : threads.stepProducer = some (after, event)) :
    Offers value threads after event := by
  unfold stepProducer at ran
  cases place : threads.producer with
  | idle =>
      rw [place] at holds
      cases holds
  | storeTail held currentTail =>
      rw [place] at holds
      cases holds
      simp only [place] at ran
      cases ran
      exact ⟨⟨rfl, rfl, rfl⟩, nofun, rfl⟩
  | checkCachedHead held currentTail =>
      rw [place] at holds
      cases holds
      simp only [place] at ran
      split at ran
      all_goals
        cases ran
        exact ⟨⟨rfl, rfl, rfl⟩, by simp [Emplacing.value, eq_comm], by simp⟩
  | recheckCachedHead held currentTail =>
      rw [place] at holds
      cases holds
      simp only [place] at ran
      split at ran
      all_goals
        cases ran
        exact ⟨⟨rfl, rfl, rfl⟩, by simp [Emplacing.value, eq_comm], by simp⟩
  | _ =>
      rw [place] at holds
      cases holds
      simp only [place] at ran
      cases ran
      exact ⟨⟨rfl, rfl, rfl⟩, by simp [Emplacing.value, eq_comm], by simp⟩

theorem offer_offers {value : T}
    (holds : ∀ held, threads.producer.value = some held → held = value)
    (ran : threads.offer value = some (after, event)) :
    Offers value threads after event := by
  unfold offer at ran
  split at ran
  · rename_i idle
    simp only [step, idle] at ran
    cases ran
    exact ⟨⟨rfl, rfl, rfl⟩, by simp [Emplacing.value, eq_comm], by simp⟩
  · rename_i busy
    have under : ∃ held, threads.producer.value = some held := by
      cases place : threads.producer with
      | idle => exact absurd place busy
      | _ => exact ⟨_, rfl⟩
    obtain ⟨held, same⟩ := under
    cases holds held same
    exact stepProducer_offers same ran

theorem offer_total (threads : Threads capacity T) (value : T) :
    (threads.offer value).isSome := by
  unfold offer
  split
  · rename_i idle
    simp [step, idle]
  · rename_i busy
    simp only [step, stepProducer]
    split
    · rename_i idle
      exact absurd idle busy
    all_goals first
      | rfl
      | (split <;> rfl)

/-- A consumer that is in a call takes its next step. -/
inductive Takes (threads after : Threads capacity T) : RingEvent → Prop where
  | goes (same : after.popped = threads.popped)
      (busy : after.consumer ≠ .idle) : Takes threads after .none
  | failed (same : after.popped = threads.popped)
      (idle : after.consumer = .idle) :
      Takes threads after (.popReturned false)
  | popped (more : after.popped = threads.popped ++ [after.output])
      (idle : after.consumer = .idle) :
      Takes threads after (.popReturned true)

theorem stepConsumer_takes
    (ran : threads.step id .consumer = some (after, event)) :
    SameProducer threads after ∧ Takes threads after event := by
  simp only [step, stepConsumer] at ran
  split at ran
  · cases ran
  · cases ran
    exact ⟨⟨rfl, rfl⟩, .goes rfl nofun⟩
  · split at ran
    · cases ran
      exact ⟨⟨rfl, rfl⟩, .goes rfl nofun⟩
    · cases ran
      exact ⟨⟨rfl, rfl⟩, .goes rfl nofun⟩
  · cases ran
    exact ⟨⟨rfl, rfl⟩, .goes rfl nofun⟩
  · cases ran
    exact ⟨⟨rfl, rfl⟩, .goes rfl nofun⟩
  · split at ran
    · cases ran
      exact ⟨⟨rfl, rfl⟩, .failed rfl rfl⟩
    · cases ran
      exact ⟨⟨rfl, rfl⟩, .goes rfl nofun⟩
  · cases ran
    exact ⟨⟨rfl, rfl⟩, .goes rfl nofun⟩
  · cases ran
    exact ⟨⟨rfl, rfl⟩, .popped rfl rfl⟩

theorem stepConsumer_total (busy : threads.consumer ≠ .idle) :
    (threads.step id .consumer).isSome := by
  simp only [step, stepConsumer]
  split
  · rename_i idle
    exact absurd idle busy
  all_goals first
    | rfl
    | (split <;> rfl)

/-- A consumer that is in no call makes one. -/
theorem tryPop_called {output : T}
    (ran : threads.step id (.tryPop output) = some (after, event)) :
    SameProducer threads after ∧ after.popped = threads.popped ∧
      after.consumer ≠ .idle := by
  simp only [step] at ran
  split at ran
  · cases ran
    exact ⟨⟨rfl, rfl⟩, rfl, nofun⟩
  · cases ran

theorem tryPop_total (output : T) (idle : threads.consumer = .idle) :
    (threads.step id (.tryPop output)).isSome := by
  simp [step, idle]

theorem Reachable.popped_prefix (reached : Reachable id threads)
    (few : threads.pushed.length < 2 ^ 64) :
    threads.popped <+: threads.pushed := by
  rw [(reached.invariant few).consistent.fifo]
  exact List.take_prefix _ _

theorem Reachable.offer {value : T} (reached : Reachable id threads)
    (ran : threads.offer value = some (after, event)) :
    Reachable id after := by
  unfold Threads.offer at ran
  split at ran
  · exact reached.step ran
  · exact reached.step ran

end Threads

/-! ## Calls that nobody interrupts -/

namespace Threads

variable {capacity : Capacity} {T : Type} {threads after : Threads capacity T}
  {event : RingEvent} {success : Bool}

/-- The rest of a call of `try_pop`. -/
inductive Pops : Threads capacity T → Bool → Threads capacity T → Prop where
  | last {threads after : Threads capacity T} {success : Bool}
      (ran : threads.step id .consumer = some (after, .popReturned success)) :
      Pops threads success after
  | more {threads middle after : Threads capacity T} {success : Bool}
      (ran : threads.step id .consumer = some (middle, .none))
      (later : Pops middle success after) : Pops threads success after

/-- The rest of a call of `try_emplace`. -/
inductive Emplaces : Threads capacity T → Bool → Threads capacity T → Prop where
  | last {threads after : Threads capacity T} {success : Bool}
      (ran : threads.stepProducer = some (after, .emplaceReturned success)) :
      Emplaces threads success after
  | more {threads middle after : Threads capacity T} {success : Bool}
      (ran : threads.stepProducer = some (middle, .none))
      (later : Emplaces middle success after) : Emplaces threads success after

end Threads

/-- How many steps a call still takes at most. -/
def Popping.rank : Popping → Nat
  | .idle => 0
  | .storeHead _ => 1
  | .readSlot _ => 2
  | .recheckCachedTail _ => 3
  | .storeCachedTail _ _ => 4
  | .loadTail _ => 5
  | .checkCachedTail _ => 6
  | .loadHead => 7

def Emplacing.rank {T : Type} : Emplacing T → Nat
  | .idle => 0
  | .storeTail _ _ => 1
  | .writeSlot _ _ => 2
  | .recheckCachedHead _ _ => 3
  | .storeCachedHead _ _ _ => 4
  | .loadHead _ _ => 5
  | .checkCachedHead _ _ => 6
  | .loadTail _ => 7

namespace Threads

variable {capacity : Capacity} {T : Type} {threads after : Threads capacity T}
  {event : RingEvent} {success : Bool}

/-- What the consumer has seen of the producer is still so. -/
def FreshTail (threads : Threads capacity T) : Prop :=
  match threads.consumer with
  | .storeCachedTail _ _ => threads.unreadAtTailLoad = threads.unread
  | .recheckCachedTail _ => threads.unreadAtTailLoad = threads.unread
  | _ => True

def FreshHead (threads : Threads capacity T) : Prop :=
  match threads.producer with
  | .storeCachedHead _ _ _ => threads.unreadAtHeadLoad = threads.unread
  | .recheckCachedHead _ _ => threads.unreadAtHeadLoad = threads.unread
  | _ => True

theorem stepConsumer_goes
    (ran : threads.step id .consumer = some (after, .none)) :
    after.consumer.rank < threads.consumer.rank ∧
      (threads.FreshTail → after.FreshTail) := by
  simp only [step, stepConsumer] at ran
  cases place : threads.consumer with
  | idle =>
      simp only [place] at ran
      cases ran
  | checkCachedTail currentHead =>
      simp only [place] at ran
      split at ran
      all_goals
        cases ran
        exact ⟨by simp [Popping.rank], fun _ => trivial⟩
  | loadTail currentHead =>
      simp only [place] at ran
      cases ran
      exact ⟨by simp [Popping.rank], fun _ => rfl⟩
  | storeCachedTail currentHead loaded =>
      simp only [place] at ran
      cases ran
      refine ⟨by simp [Popping.rank], ?_⟩
      simp only [FreshTail, place]
      exact id
  | recheckCachedTail currentHead =>
      simp only [place] at ran
      split at ran
      · cases ran
      · cases ran
        exact ⟨by simp [Popping.rank], fun _ => trivial⟩
  | storeHead currentHead =>
      simp only [place] at ran
      cases ran
  | _ =>
      simp only [place] at ran
      cases ran
      exact ⟨by simp [Popping.rank], fun _ => trivial⟩

theorem stepConsumer_fails
    (ran : threads.step id .consumer = some (after, .popReturned false))
    (fresh : threads.FreshTail) :
    threads.unreadAtTailLoad = threads.unread := by
  simp only [step, stepConsumer] at ran
  unfold FreshTail at fresh
  cases place : threads.consumer with
  | recheckCachedTail currentHead =>
      simp only [place] at fresh
      exact fresh
  | checkCachedTail currentHead =>
      simp only [place] at ran
      split at ran
      all_goals cases ran
  | _ =>
      simp only [place] at ran
      cases ran

/-- The next step of a producer that is in a call. -/
inductive Runs (threads after : Threads capacity T) : RingEvent → Prop where
  | goes (fewer : after.producer.rank < threads.producer.rank)
      (fresh : threads.FreshHead → after.FreshHead)
      (busy : after.producer ≠ .idle) : Runs threads after .none
  | failed (idle : after.producer = .idle)
      (fresh : threads.FreshHead →
        threads.unreadAtHeadLoad = threads.unread) :
      Runs threads after (.emplaceReturned false)
  | pushed (idle : after.producer = .idle) :
      Runs threads after (.emplaceReturned true)

theorem stepProducer_runs (ran : threads.stepProducer = some (after, event)) :
    Runs threads after event := by
  simp only [stepProducer] at ran
  cases place : threads.producer with
  | idle =>
      simp only [place] at ran
      cases ran
  | checkCachedHead value currentTail =>
      simp only [place] at ran
      split at ran
      all_goals
        cases ran
        exact .goes (by simp [place, Emplacing.rank]) (fun _ => trivial) nofun
  | loadHead value currentTail =>
      simp only [place] at ran
      cases ran
      exact .goes (by simp [place, Emplacing.rank]) (fun _ => rfl) nofun
  | storeCachedHead value currentTail loaded =>
      simp only [place] at ran
      cases ran
      refine .goes (by simp [place, Emplacing.rank]) ?_ nofun
      simp only [FreshHead, place]
      exact id
  | recheckCachedHead value currentTail =>
      simp only [place] at ran
      split at ran
      · cases ran
        refine .failed rfl ?_
        simp only [FreshHead, place]
        exact id
      · cases ran
        exact .goes (by simp [place, Emplacing.rank]) (fun _ => trivial) nofun
  | storeTail value currentTail =>
      simp only [place] at ran
      cases ran
      exact .pushed rfl
  | _ =>
      simp only [place] at ran
      cases ran
      exact .goes (by simp [place, Emplacing.rank]) (fun _ => trivial) nofun

/-- A call of `try_pop` returns. -/
theorem pops_total (busy : threads.consumer ≠ .idle) :
    ∃ success after, Pops threads success after := by
  induction steps : threads.consumer.rank using Nat.strong_induction_on
    generalizing threads with
  | _ rank induction =>
      obtain ⟨⟨middle, event⟩, ran⟩ :=
        Option.isSome_iff_exists.mp (stepConsumer_total busy)
      obtain ⟨_, takes⟩ := stepConsumer_takes ran
      cases takes with
      | goes _ still =>
          have fewer := (stepConsumer_goes ran).1
          rw [steps] at fewer
          obtain ⟨success, after, later⟩ := induction _ fewer still rfl
          exact ⟨success, after, .more ran later⟩
      | failed => exact ⟨false, middle, .last ran⟩
      | popped => exact ⟨true, middle, .last ran⟩

/-- A call of `try_emplace` returns. -/
theorem emplaces_total (busy : threads.producer ≠ .idle) :
    ∃ success after, Emplaces threads success after := by
  induction steps : threads.producer.rank using Nat.strong_induction_on
    generalizing threads with
  | _ rank induction =>
      have offers : threads.stepProducer.isSome := by
        cases place : threads.producer with
        | idle => exact absurd place busy
        | _ =>
            have total := offer_total threads (threads.producer.value.getD
              threads.output)
            simpa only [offer, step, place] using total
      obtain ⟨⟨middle, event⟩, ran⟩ := Option.isSome_iff_exists.mp offers
      cases stepProducer_runs ran with
      | goes fewer _ still =>
          rw [steps] at fewer
          obtain ⟨success, after, later⟩ := induction _ fewer still rfl
          exact ⟨success, after, .more ran later⟩
      | failed => exact ⟨false, middle, .last ran⟩
      | pushed => exact ⟨true, middle, .last ran⟩

/-- A whole call; one that started on the present state fails only if there is
nothing to pop. -/
theorem Pops.spec (pops : Pops threads success after)
    (reached : Reachable id threads) (few : threads.pushed.length < 2 ^ 64) :
    SameProducer threads after ∧ after.consumer = .idle ∧
      after.popped = threads.popped ++
        (if success then [after.output] else []) ∧
      (threads.FreshTail → success = false → threads.unread = 0) := by
  induction pops with
  | @last threads after success ran =>
      obtain ⟨same, takes⟩ := stepConsumer_takes ran
      cases takes with
      | failed still idle =>
          refine ⟨same, idle, ?_, ?_⟩
          · rw [still]
            exact (List.append_nil _).symm
          · intro fresh _
            rw [← stepConsumer_fails ran fresh]
            exact ((reached.invariant few).failedPop ran).1
      | popped more idle =>
          exact ⟨same, idle, more, fun _ fails => nomatch fails⟩
  | @more threads middle after success ran later induction =>
      obtain ⟨same, takes⟩ := stepConsumer_takes ran
      cases takes with
      | goes still busy =>
          have fewer : middle.pushed.length < 2 ^ 64 := by
            rw [same.pushed]
            exact few
          obtain ⟨others, idle, popped, empty⟩ :=
            induction (reached.step ran) fewer
          refine ⟨⟨others.pushed.trans same.pushed,
            others.producer.trans same.producer⟩, idle, ?_, ?_⟩
          · rw [popped, still]
          · intro fresh fails
            have drained := empty ((stepConsumer_goes ran).2 fresh) fails
            unfold unread at drained ⊢
            rw [same.pushed, still] at drained
            exact drained

theorem Emplaces.reachable (emplaces : Emplaces threads success after)
    (reached : Reachable id threads) : Reachable id after := by
  induction emplaces with
  | @last threads after success ran =>
      have moved : threads.step id .producer =
          some (after, .emplaceReturned success) := ran
      exact reached.step moved
  | @more threads middle after success ran _ induction =>
      have moved : threads.step id .producer = some (middle, .none) := ran
      exact induction (reached.step moved)

/-- A whole call; one that started on the present state fails only if the ring
is full. -/
theorem Emplaces.spec {value : T} (emplaces : Emplaces threads success after)
    (holds : threads.producer.value = some value)
    (reached : Reachable id threads) (few : threads.pushed.length < 2 ^ 64) :
    SameConsumer threads after ∧ after.producer = .idle ∧
      after.pushed = threads.pushed ++ (if success then [value] else []) ∧
      (threads.FreshHead → success = false →
        threads.unread = capacity.slots) := by
  induction emplaces with
  | @last threads after success ran =>
      have offers := stepProducer_offers holds ran
      refine ⟨offers.toSameConsumer, ?_, ?_, ?_⟩
      · cases stepProducer_runs ran with
        | failed idle => exact idle
        | pushed idle => exact idle
      · rw [offers.pushed]
        cases success <;> rfl
      · intro fresh fails
        cases stepProducer_runs ran with
        | failed _ seen =>
            rw [← seen fresh]
            exact (reached.invariant few).failedPush ran
        | pushed => cases fails
  | @more threads middle after success ran later induction =>
      have offers := stepProducer_offers holds ran
      obtain ⟨fresher, still⟩ : (threads.FreshHead → middle.FreshHead) ∧
          middle.producer ≠ .idle := by
        cases stepProducer_runs ran with
        | goes _ fresher still => exact ⟨fresher, still⟩
      have same : middle.pushed = threads.pushed := by
        rw [offers.pushed]
        exact List.append_nil _
      have held : middle.producer.value = some value := by
        cases under : middle.producer.value with
        | none =>
            cases place : middle.producer with
            | idle => exact absurd place still
            | _ =>
                rw [place] at under
                cases under
        | some other => rw [(offers.holds other under).1]
      have fewer : middle.pushed.length < 2 ^ 64 := by
        rw [same]
        exact few
      have moved : threads.step id .producer = some (middle, .none) := ran
      obtain ⟨others, idle, pushed, full⟩ :=
        induction held (reached.step moved) fewer
      refine ⟨⟨others.popped.trans offers.popped,
        others.consumer.trans offers.consumer,
        others.output.trans offers.output⟩, idle, ?_, ?_⟩
      · rw [pushed, same]
      · intro fresh fails
        have crowded := full (fresher fresh) fails
        unfold unread at crowded ⊢
        rw [same, offers.popped] at crowded
        exact crowded

end Threads

namespace Threads

variable {capacity : Capacity} {T : Type} {threads after : Threads capacity T}
  {event : RingEvent} {success : Bool}

/-- Offering a value again and again until it is taken. -/
inductive Delivers (value : T) :
    Threads capacity T → Threads capacity T → Prop where
  | last {threads after : Threads capacity T}
      (offered : threads.offer value = some (after, .emplaceReturned true)) :
      Delivers value threads after
  | more {threads middle after : Threads capacity T} {event : RingEvent}
      (offered : threads.offer value = some (middle, event))
      (goes : event ≠ .emplaceReturned true)
      (later : Delivers value middle after) : Delivers value threads after

theorem offer_busy (busy : threads.producer ≠ .idle) (value : T) :
    threads.offer value = threads.stepProducer := by
  unfold offer
  cases place : threads.producer with
  | idle => exact absurd place busy
  | _ => rfl

/-- The rest of a call delivers, or leaves it to the next calls. -/
theorem Emplaces.delivers (emplaces : Emplaces threads success after)
    (busy : threads.producer ≠ .idle) (value : T) :
    (success = true → Delivers value threads after) ∧
      (success = false → ∀ last, Delivers value after last →
        Delivers value threads last) := by
  induction emplaces with
  | last ran =>
      rw [← offer_busy busy value] at ran
      constructor
      · rintro rfl
        exact .last ran
      · rintro rfl last later
        exact .more ran (by simp) later
  | @more threads middle after success ran later induction =>
      have still : middle.producer ≠ .idle := by
        cases stepProducer_runs ran with
        | goes _ _ still => exact still
      rw [← offer_busy busy value] at ran
      obtain ⟨taken, refused⟩ := induction still
      exact ⟨fun success => .more ran nofun (taken success),
        fun fails last rest => .more ran nofun (refused fails last rest)⟩

/-- A value is taken if nobody pops and nothing is unread. -/
theorem delivers_of_empty {value : T}
    (holds : ∀ held, threads.producer.value = some held → held = value)
    (reached : Reachable id threads) (few : threads.pushed.length < 2 ^ 64)
    (empty : threads.unread = 0) :
    ∃ after, Delivers value threads after := by
  have calls : ∀ {threads : Threads capacity T}, Reachable id threads →
      threads.pushed.length < 2 ^ 64 → threads.unread = 0 →
      threads.producer = .idle → ∃ after, Delivers value threads after := by
    intro threads reached few empty idle
    have called : threads.step id (.tryEmplace value) =
        some ({ threads with producer := .loadTail value }, .called) := by
      simp only [step, idle]
    have offered : threads.offer value =
        some ({ threads with producer := .loadTail value }, .called) := by
      unfold offer
      simp only [idle, called]
    have busy : { threads with
        producer := Emplacing.loadTail value }.producer ≠ .idle := nofun
    obtain ⟨success, after, emplaces⟩ := emplaces_total busy
    obtain ⟨_, _, _, full⟩ := emplaces.spec rfl (reached.step called) few
    cases success with
    | true =>
        exact ⟨after, .more offered nofun
          ((emplaces.delivers nofun value).1 rfl)⟩
    | false =>
        have crowded := full trivial rfl
        have positive := capacity.slots_pos
        change threads.unread = capacity.slots at crowded
        omega
  by_cases idle : threads.producer = .idle
  · exact calls reached few empty idle
  · have under : ∃ held, threads.producer.value = some held := by
      cases place : threads.producer with
      | idle => exact absurd place idle
      | _ => exact ⟨_, rfl⟩
    obtain ⟨held, same⟩ := under
    cases holds held same
    obtain ⟨success, after, emplaces⟩ := emplaces_total idle
    obtain ⟨others, done, pushed, _⟩ := emplaces.spec same reached few
    obtain ⟨taken, refused⟩ := emplaces.delivers idle value
    cases success with
    | true => exact ⟨after, taken rfl⟩
    | false =>
        have kept : after.pushed = threads.pushed :=
          pushed.trans (List.append_nil _)
        obtain ⟨last, delivers⟩ := calls (emplaces.reachable reached)
          (by rw [kept]; exact few)
          (by unfold unread at empty ⊢; rw [kept, others.popped]; exact empty)
          done
        exact ⟨last, refused rfl last delivers⟩

theorem tryPop_fresh {output : T}
    (ran : threads.step id (.tryPop output) = some (after, event)) :
    after.FreshTail := by
  simp only [step] at ran
  split at ran
  · cases ran
    trivial
  · cases ran

theorem Pops.reachable (pops : Pops threads success after)
    (reached : Reachable id threads) : Reachable id after := by
  induction pops with
  | last ran => exact reached.step ran
  | more ran _ induction => exact induction (reached.step ran)

/-- A new call takes an item if there is one. -/
theorem Pops.unread (pops : Pops threads success after)
    (reached : Reachable id threads) (few : threads.pushed.length < 2 ^ 64)
    (fresh : threads.FreshTail) :
    success = true ∧ after.unread < threads.unread ∨
      success = false ∧ after.unread = 0 := by
  obtain ⟨same, _, popped, empty⟩ := pops.spec reached few
  have fewer : after.pushed.length < 2 ^ 64 := by
    rw [same.pushed]
    exact few
  have behind :=
    ((pops.reachable reached).invariant fewer).consistent.popped_le
  unfold Threads.unread
  rw [popped, same.pushed] at behind ⊢
  cases success with
  | true =>
      left
      simp only [if_true, List.length_append, List.length_singleton]
        at behind ⊢
      exact ⟨trivial, by omega⟩
  | false =>
      right
      have drained := empty fresh rfl
      unfold Threads.unread at drained
      simpa using drained

end Threads

end MatrixDB
