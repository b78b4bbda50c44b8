import Mathlib.Data.List.Basic

/-!
# Two parties on a stream

Each party is a sequential program that asks for whole transfers: to send these
items, to receive so many.  The stream moves any nonempty part of a transfer at
a time and keeps the order of the items.  What a party does between two
transfers does not depend on how they were cut, so an invariant that holds
between transfers settles what holds in the middle of one.
-/

namespace MatrixDB.Lib

/-- What a party wants from its end of the stream. -/
inductive Demand (B : Type) where
  | send (items : List B)
  | recv (count : Nat)
  | stop

/-- A program: its demand, how it goes on once that is met with the items
received, and how it goes on if the stream ends before. -/
structure Party (B S : Type) where
  demand : S → Demand B
  resume : S → List B → S
  fail : S → S

/-- A party in the middle of a transfer.  `taken` and `given` are all the items
it has received and sent so far; it does not look at them. -/
structure Side (B S : Type) where
  state : S
  moved : List B
  taken : List B
  given : List B

/-- Before the first transfer. -/
def Side.start {B S : Type} (state : S) : Side B S :=
  { state, moved := [], taken := [], given := [] }

variable {B S T : Type}

/-- One move of a party, between its inbox and its outbox; `closed` says that
nothing more will be put into the inbox. -/
inductive Move (party : Party B S) (closed : Prop) :
    Side B S → List B → List B → Side B S → List B → List B → Prop where
  | send {side : Side B S} {inbox outbox items piece rest : List B}
      (wants : party.demand side.state = .send items)
      (split : items = side.moved ++ piece ++ rest) (some : piece ≠ []) :
      Move party closed side inbox outbox
        { side with
          moved := side.moved ++ piece
          given := side.given ++ piece }
        inbox (outbox ++ piece)
  | sent {side : Side B S} {inbox outbox : List B}
      (wants : party.demand side.state = .send side.moved) :
      Move party closed side inbox outbox
        { side with state := party.resume side.state [], moved := [] }
        inbox outbox
  | recv {side : Side B S} {inbox outbox piece : List B} {count : Nat}
      (wants : party.demand side.state = .recv count)
      (room : (side.moved ++ piece).length ≤ count) (some : piece ≠ []) :
      Move party closed side (piece ++ inbox) outbox
        { side with
          moved := side.moved ++ piece
          taken := side.taken ++ piece }
        inbox outbox
  | received {side : Side B S} {inbox outbox : List B}
      (wants : party.demand side.state = .recv side.moved.length) :
      Move party closed side inbox outbox
        { side with state := party.resume side.state side.moved, moved := [] }
        inbox outbox
  | ended {side : Side B S} {outbox : List B} {count : Nat}
      (wants : party.demand side.state = .recv count)
      (short : side.moved.length < count) (dried : closed) :
      Move party closed side [] outbox
        { side with state := party.fail side.state, moved := [] } [] outbox

/-! ## Invariants between transfers -/

/-- An invariant of a party in terms of what it has received and sent, kept by
every transfer that is met as long as the party hears what it should.  It tells
only what it should, too. -/
structure Party.Keeps (party : Party B S) (hears tells : List B)
    (inv : S → List B → List B → Prop) : Prop where
  sent : ∀ {state taken given items}, inv state taken given →
    party.demand state = .send items →
    inv (party.resume state []) taken (given ++ items)
  received : ∀ {state taken given count got}, inv state taken given →
    party.demand state = .recv count → got.length = count →
    taken ++ got <+: hears →
    inv (party.resume state got) (taken ++ got) given
  said : ∀ {state taken given}, inv state taken given → given <+: tells

/-- The invariant survives the end of the stream: the party has received all
that the other has sent, and wants more. -/
def Party.Copes (party : Party B S) (other : Party B T)
    (inv : S → List B → List B → Prop) (inv' : T → List B → List B → Prop) :
    Prop :=
  ∀ {state taken given count moved state' taken' given'},
    inv state taken given → party.demand state = .recv count →
    moved.length < count → inv' state' taken' given' →
    other.demand state' = .stop → given' = taken ++ moved →
    taken' <+: given → inv (party.fail state) (taken ++ moved) given

/-- How far a party is into its transfer, when `taken` and `given` are what it
had moved before. -/
def Side.Underway (party : Party B S) (side : Side B S)
    (taken given : List B) : Prop :=
  match party.demand side.state with
  | .send items => side.taken = taken ∧ side.given = given ++ side.moved ∧
      ∃ rest, items = side.moved ++ rest
  | .recv count => side.taken = taken ++ side.moved ∧ side.given = given ∧
      side.moved.length ≤ count
  | .stop => side.taken = taken ∧ side.given = given ∧ side.moved = []

/-- The invariant held before the transfer that is under way. -/
def Side.Within (party : Party B S) (inv : S → List B → List B → Prop)
    (side : Side B S) : Prop :=
  ∃ taken given, inv side.state taken given ∧ side.Underway party taken given

variable {party : Party B S} {closed : Prop} {side side' : Side B S}
  {inbox outbox inbox' outbox' taken given hears tells : List B}
  {inv : S → List B → List B → Prop}

theorem Side.underway_start {state : S} :
    Side.Underway party { state, moved := [], taken, given } taken given := by
  unfold Underway
  split
  · exact ⟨rfl, (List.append_nil given).symm, _, rfl⟩
  · exact ⟨(List.append_nil taken).symm, rfl, Nat.zero_le _⟩
  · exact ⟨rfl, rfl, rfl⟩

theorem Side.within_between {state : S} (holds : inv state taken given) :
    Side.Within party inv { state, moved := [], taken, given } :=
  ⟨taken, given, holds, underway_start⟩

theorem Side.Underway.send {items : List B}
    (underway : side.Underway party taken given)
    (wants : party.demand side.state = .send items) :
    side.taken = taken ∧ side.given = given ++ side.moved ∧
      ∃ rest, items = side.moved ++ rest := by
  unfold Underway at underway
  rw [wants] at underway
  exact underway

theorem Side.Underway.recv {count : Nat}
    (underway : side.Underway party taken given)
    (wants : party.demand side.state = .recv count) :
    side.taken = taken ++ side.moved ∧ side.given = given ∧
      side.moved.length ≤ count := by
  unfold Underway at underway
  rw [wants] at underway
  exact underway

theorem Side.Underway.stop (underway : side.Underway party taken given)
    (wants : party.demand side.state = .stop) :
    side.taken = taken ∧ side.given = given ∧ side.moved = [] := by
  unfold Underway at underway
  rw [wants] at underway
  exact underway

/-- In the middle of a transfer too, a party tells no more than it should. -/
theorem Side.Within.said (within : side.Within party inv)
    (keeps : party.Keeps hears tells inv) : side.given <+: tells := by
  obtain ⟨taken, given, holds, underway⟩ := within
  cases wants : party.demand side.state with
  | send items =>
      obtain ⟨_, gave, rest, split⟩ := underway.send wants
      have whole := keeps.said (keeps.sent holds wants)
      rw [split, ← List.append_assoc] at whole
      rw [gave]
      exact (List.prefix_append _ rest).trans whole
  | recv count =>
      rw [(underway.recv wants).2.1]
      exact keeps.said holds
  | stop =>
      rw [(underway.stop wants).2.1]
      exact keeps.said holds

/-- Every move keeps an invariant between transfers; what follows the end of the
stream is a matter of the program. -/
theorem Move.within (move : Move party closed side inbox outbox
      side' inbox' outbox')
    (keeps : party.Keeps hears tells inv) (within : side.Within party inv)
    (heard : side'.taken <+: hears)
    (ended : ∀ taken given count, closed → inbox = [] →
      inv side.state taken given → party.demand side.state = .recv count →
      side.moved.length < count → side.taken = taken ++ side.moved →
      side.given = given →
      inv (party.fail side.state) side.taken side.given) :
    side'.Within party inv := by
  obtain ⟨taken, given, holds, underway⟩ := within
  cases move with
  | @send _ _ items piece rest wants split some =>
      obtain ⟨took, gave, _⟩ := underway.send wants
      refine ⟨taken, given, holds, ?_⟩
      unfold Side.Underway
      rw [wants]
      refine ⟨took, ?_, rest, split⟩
      rw [gave, List.append_assoc]
  | sent wants =>
      obtain ⟨took, gave, _⟩ := underway.send wants
      rw [took, gave]
      exact Side.within_between (keeps.sent holds wants)
  | recv wants room some =>
      obtain ⟨took, gave, _⟩ := underway.recv wants
      refine ⟨taken, given, holds, ?_⟩
      unfold Side.Underway
      rw [wants]
      refine ⟨?_, gave, room⟩
      rw [took, List.append_assoc]
  | received wants =>
      obtain ⟨took, gave, _⟩ := underway.recv wants
      rw [took] at heard
      rw [took, gave]
      exact Side.within_between (keeps.received holds wants rfl heard)
  | ended wants short dried =>
      obtain ⟨took, gave, _⟩ := underway.recv wants
      exact Side.within_between
        (ended taken given _ dried rfl holds wants short took gave)

/-- Items leave the inbox for `taken` and enter the outbox with `given`. -/
theorem Move.items (move : Move party closed side inbox outbox
      side' inbox' outbox') :
    side'.taken ++ inbox' = side.taken ++ inbox ∧
      ∃ piece, side'.given = side.given ++ piece ∧
        outbox' = outbox ++ piece := by
  cases move with
  | send wants split some => exact ⟨rfl, _, rfl, rfl⟩
  | sent wants => exact ⟨rfl, [], (List.append_nil _).symm,
      (List.append_nil _).symm⟩
  | recv wants room some =>
      exact ⟨List.append_assoc _ _ _, [], (List.append_nil _).symm,
        (List.append_nil _).symm⟩
  | received wants => exact ⟨rfl, [], (List.append_nil _).symm,
      (List.append_nil _).symm⟩
  | ended wants short dried => exact ⟨rfl, [], (List.append_nil _).symm,
      (List.append_nil _).symm⟩

/-! ## Progress of one party -/

/-- An empty transfer weighs nothing, and stopping more than any. -/
def Demand.weight : Demand B → Nat
  | .send [] => 0
  | .send (_ :: _) => 1
  | .recv 0 => 0
  | .recv (_ + 1) => 1
  | .stop => 2

theorem Demand.weight_send {items : List B} (some : items ≠ []) :
    (Demand.send items).weight = 1 := by
  cases items with
  | nil => exact absurd rfl some
  | cons first later => rfl

theorem Demand.weight_recv {count : Nat} (some : count ≠ 0) :
    (Demand.recv count : Demand B).weight = 1 := by
  cases count with
  | zero => exact absurd rfl some
  | succ count => rfl

/-- After an empty transfer comes one that is not empty. -/
def Party.Alternates (party : Party B S) : Prop :=
  ∀ state, (party.demand state).weight = 0 →
    0 < (party.demand (party.resume state [])).weight

/-- A bound on the moves made so far.  An item pays for four moves, two of
which are kept back while a transfer is under way. -/
def Side.effort (party : Party B S) (side : Side B S) : Nat :=
  4 * (side.taken.length + side.given.length) +
    (if side.moved.isEmpty then 2 else 0) + (party.demand side.state).weight

/-- The end of the stream stops the party, if it is what the party waits for. -/
def Side.Quits (party : Party B S) (closed : Prop) (side : Side B S)
    (inbox : List B) : Prop :=
  ∀ count, closed → inbox = [] → party.demand side.state = .recv count →
    side.moved.length < count →
    party.demand (party.fail side.state) = .stop

/-- Every move adds to the effort, if the end of the stream stops the party. -/
theorem Move.effort (move : Move party closed side inbox outbox
      side' inbox' outbox')
    (alternates : party.Alternates)
    (quits : side.Quits party closed inbox) :
    side.effort party + 1 ≤ side'.effort party := by
  unfold Side.effort
  cases move with
  | @send _ _ items piece rest wants split some =>
      have longer : 0 < piece.length := List.length_pos_iff.mpr some
      simp only [List.length_append]
      split <;> split <;> omega
  | sent wants =>
      by_cases empty : side.moved = []
      · rw [empty] at wants
        have weightless : (party.demand side.state).weight = 0 := by
          rw [wants]
          rfl
        have next := alternates side.state weightless
        simp only [empty, List.isEmpty_nil, if_true, weightless]
        omega
      · rw [wants, Demand.weight_send empty]
        simp only [List.isEmpty_iff, empty, if_false, if_true]
        omega
  | recv wants room some =>
      rename_i piece count
      have longer : 0 < piece.length := List.length_pos_iff.mpr some
      simp only [List.length_append]
      split <;> split <;> omega
  | received wants =>
      by_cases empty : side.moved = []
      · rw [empty] at wants
        have weightless : (party.demand side.state).weight = 0 := by
          rw [wants]
          rfl
        have next := alternates side.state weightless
        simp only [empty, List.isEmpty_nil, if_true, weightless]
        omega
      · have some : side.moved.length ≠ 0 :=
          fun none => empty (List.length_eq_zero_iff.mp none)
        rw [wants, Demand.weight_recv some]
        simp only [List.isEmpty_iff, empty, if_false, if_true]
        omega
  | ended wants short dried =>
      have some : _ ≠ 0 := Nat.ne_of_gt (Nat.zero_lt_of_lt short)
      rw [wants, Demand.weight_recv some, quits _ dried rfl wants short]
      simp only [List.isEmpty_nil, if_true, Demand.weight]
      split <;> omega

/-- A party that cannot move has stopped or waits for an item. -/
theorem stopped_or_waiting (underway : side.Underway party taken given)
    (stuck : ∀ side' inbox' outbox',
      ¬ Move party closed side inbox outbox side' inbox' outbox') :
    party.demand side.state = .stop ∨
      ∃ count, party.demand side.state = .recv count ∧
        side.moved.length < count ∧ inbox = [] ∧ ¬ closed := by
  cases wants : party.demand side.state with
  | stop => exact .inl rfl
  | send items =>
      obtain ⟨_, _, rest, split⟩ := underway.send wants
      cases rest with
      | nil =>
          rw [List.append_nil] at split
          rw [split] at wants
          exact absurd (.sent wants) (stuck _ inbox outbox)
      | cons first later =>
          have parts : items = side.moved ++ [first] ++ later := by
            rw [split, List.append_assoc]
            rfl
          exact absurd (.send wants parts (List.cons_ne_nil _ _))
            (stuck _ inbox _)
  | recv count =>
      right
      obtain ⟨_, _, most⟩ := underway.recv wants
      rcases Nat.lt_or_eq_of_le most with short | all
      · refine ⟨count, rfl, short, ?_, ?_⟩
        · cases inbox with
          | nil => rfl
          | cons first later =>
              have room : (side.moved ++ [first]).length ≤ count := by
                rw [List.length_append]
                exact short
              exact absurd (.recv wants room (List.cons_ne_nil _ _))
                (stuck _ later outbox)
        · intro dried
          cases inbox with
          | nil => exact stuck _ [] outbox (.ended wants short dried)
          | cons first later =>
              have room : (side.moved ++ [first]).length ≤ count := by
                rw [List.length_append]
                exact short
              exact stuck _ later outbox
                (.recv wants room (List.cons_ne_nil _ _))
      · rw [← all] at wants
        exact absurd (.received wants) (stuck _ inbox outbox)

/-! ## Both ends -/

/-- Two parties and the items between them. -/
structure Link (B S T : Type) where
  left : Side B S
  right : Side B T
  toRight : List B
  toLeft : List B

namespace Link

/-- A fresh connection. -/
def start (left : S) (right : T) : Link B S T :=
  { left := .start left, right := .start right, toRight := [], toLeft := [] }

variable {one : Party B S} {two : Party B T} {link next : Link B S T}

/-- Either party moves.  A party that has stopped has closed its end. -/
inductive Step (one : Party B S) (two : Party B T) :
    Link B S T → Link B S T → Prop where
  | left {link : Link B S T} {side : Side B S} {inbox outbox : List B}
      (move : Move one (two.demand link.right.state = .stop) link.left
        link.toLeft link.toRight side inbox outbox) :
      Step one two link
        { left := side, right := link.right, toRight := outbox
          toLeft := inbox }
  | right {link : Link B S T} {side : Side B T} {inbox outbox : List B}
      (move : Move two (one.demand link.left.state = .stop) link.right
        link.toRight link.toLeft side inbox outbox) :
      Step one two link
        { left := link.left, right := side, toRight := inbox
          toLeft := outbox }

/-- So many moves, in any order. -/
inductive Run (one : Party B S) (two : Party B T) (first : Link B S T) :
    Nat → Link B S T → Prop where
  | start : Run one two first 0 first
  | step {count : Nat} {link next : Link B S T}
      (before : Run one two first count link) (step : Step one two link next) :
      Run one two first (count + 1) next

/-- What one has sent, the other has received or will receive. -/
structure Fifo (link : Link B S T) : Prop where
  toRight : link.left.given = link.right.taken ++ link.toRight
  toLeft : link.right.given = link.left.taken ++ link.toLeft

theorem Fifo.heardLeft (fifo : link.Fifo) :
    link.left.taken <+: link.right.given :=
  ⟨_, fifo.toLeft.symm⟩

theorem Fifo.heardRight (fifo : link.Fifo) :
    link.right.taken <+: link.left.given :=
  ⟨_, fifo.toRight.symm⟩

theorem fifo_start (left : S) (right : T) :
    Fifo (start left right : Link B S T) :=
  ⟨rfl, rfl⟩

theorem Step.fifo (step : Step one two link next) (fifo : link.Fifo) :
    next.Fifo := by
  cases step with
  | left move =>
      obtain ⟨taken, piece, given, outbox⟩ := move.items
      constructor
      · rw [given, outbox, fifo.toRight, List.append_assoc]
      · rw [taken]
        exact fifo.toLeft
  | right move =>
      obtain ⟨taken, piece, given, outbox⟩ := move.items
      constructor
      · rw [taken]
        exact fifo.toRight
      · rw [given, outbox, fifo.toLeft, List.append_assoc]

/-- Each party has heard what it should, and keeps its invariant. -/
structure InStep (one : Party B S) (two : Party B T)
    (invOne : S → List B → List B → Prop)
    (invTwo : T → List B → List B → Prop) (toTwo toOne : List B)
    (link : Link B S T) : Prop where
  fifo : link.Fifo
  left : link.left.Within one invOne
  right : link.right.Within two invTwo
  heardLeft : link.left.taken <+: toOne
  heardRight : link.right.taken <+: toTwo

/-- Each party may rely on the other: neither is the first to tell what it
should not. -/
theorem Run.inStep {invOne : S → List B → List B → Prop}
    {invTwo : T → List B → List B → Prop} {toTwo toOne : List B} {left : S}
    {right : T} {count : Nat}
    (run : Run one two (Link.start left right) count link)
    (keepsOne : one.Keeps toOne toTwo invOne)
    (keepsTwo : two.Keeps toTwo toOne invTwo)
    (copesOne : one.Copes two invOne invTwo)
    (copesTwo : two.Copes one invTwo invOne)
    (holdsOne : invOne left [] []) (holdsTwo : invTwo right [] []) :
    link.InStep one two invOne invTwo toTwo toOne := by
  induction run with
  | start =>
      exact ⟨fifo_start left right, Side.within_between holdsOne,
        Side.within_between holdsTwo, List.nil_prefix, List.nil_prefix⟩
  | @step count link next before step induction =>
      have fifo := step.fifo induction.fifo
      have toldOne := induction.left.said keepsOne
      have toldTwo := induction.right.said keepsTwo
      cases step with
      | left move =>
          have heard := fifo.heardLeft.trans toldTwo
          refine ⟨fifo, ?_, induction.right, heard, induction.heardRight⟩
          apply move.within keepsOne induction.left heard
          intro taken given count dried empty holds wants short took gave
          obtain ⟨otherTaken, otherGiven, otherHolds, underway⟩ :=
            induction.right
          obtain ⟨hasTaken, hasGiven, _⟩ := underway.stop dried
          have whole := induction.fifo.toLeft
          rw [empty, List.append_nil, hasGiven, took] at whole
          have earlier := induction.fifo.heardRight
          rw [hasTaken, gave] at earlier
          rw [took, gave]
          exact copesOne holds wants short otherHolds dried whole earlier
      | right move =>
          have heard := fifo.heardRight.trans toldOne
          refine ⟨fifo, induction.left, ?_, induction.heardLeft, heard⟩
          apply move.within keepsTwo induction.right heard
          intro taken given count dried empty holds wants short took gave
          obtain ⟨otherTaken, otherGiven, otherHolds, underway⟩ :=
            induction.left
          obtain ⟨hasTaken, hasGiven, _⟩ := underway.stop dried
          have whole := induction.fifo.toRight
          rw [empty, List.append_nil, hasGiven, took] at whole
          have earlier := induction.fifo.heardLeft
          rw [hasTaken, gave] at earlier
          rw [took, gave]
          exact copesTwo holds wants short otherHolds dried whole earlier

/-- A link that cannot go on has come to its end, unless both parties wait for
each other. -/
theorem stopped_or_deadlocked {tookLeft gaveLeft tookRight gaveRight : List B}
    (left : link.left.Underway one tookLeft gaveLeft)
    (right : link.right.Underway two tookRight gaveRight)
    (stuck : ∀ next, ¬ Step one two link next) :
    (one.demand link.left.state = .stop ∧
      two.demand link.right.state = .stop) ∨
    ((∃ count, one.demand link.left.state = .recv count ∧
        link.left.moved.length < count) ∧
      (∃ count, two.demand link.right.state = .recv count ∧
        link.right.moved.length < count) ∧
      link.toLeft = [] ∧ link.toRight = []) := by
  have stuckLeft := stopped_or_waiting left
    fun side inbox outbox move => stuck _ (.left move)
  have stuckRight := stopped_or_waiting right
    fun side inbox outbox move => stuck _ (.right move)
  rcases stuckLeft with stoppedLeft | ⟨count, wants, short, empty, openRight⟩
  · rcases stuckRight with stoppedRight | ⟨_, _, _, _, openLeft⟩
    · exact .inl ⟨stoppedLeft, stoppedRight⟩
    · exact absurd stoppedLeft openLeft
  · rcases stuckRight with stoppedRight | ⟨other, asks, less, none, _⟩
    · exact absurd stoppedRight openRight
    · exact .inr ⟨⟨count, wants, short⟩, ⟨other, asks, less⟩, empty, none⟩

/-- The effort of both parties. -/
def effort (one : Party B S) (two : Party B T) (link : Link B S T) : Nat :=
  link.left.effort one + link.right.effort two

/-- A run is no longer than the effort it has taken, as long as the end of the
stream stops whom it meets. -/
theorem Run.length_le {first : Link B S T} {count : Nat}
    (run : Run one two first count link)
    (alternates : one.Alternates ∧ two.Alternates)
    (quits : ∀ count link, Run one two first count link →
      link.left.Quits one (two.demand link.right.state = .stop) link.toLeft ∧
      link.right.Quits two (one.demand link.left.state = .stop)
        link.toRight) :
    count ≤ link.effort one two := by
  induction run with
  | start => exact Nat.zero_le _
  | step before step induction =>
      obtain ⟨quitsLeft, quitsRight⟩ := quits _ _ before
      unfold effort at induction ⊢
      cases step with
      | left move =>
          have more := move.effort alternates.1 quitsLeft
          simp only
          omega
      | right move =>
          have more := move.effort alternates.2 quitsRight
          simp only
          omega

/-- The effort is bounded by the items that have been sent. -/
theorem effort_le (fifo : link.Fifo) :
    link.effort one two ≤
      8 * (link.left.given.length + link.right.given.length) + 8 := by
  have toRight := congrArg List.length fifo.toRight
  have toLeft := congrArg List.length fifo.toLeft
  have most : ∀ demand : Demand B, demand.weight ≤ 2 := by
    intro demand
    cases demand with
    | send items => cases items <;> simp [Demand.weight]
    | recv count => cases count <;> simp [Demand.weight]
    | stop => exact Nat.le_refl 2
  have left := most (one.demand link.left.state)
  have right := most (two.demand link.right.state)
  rw [List.length_append] at toRight toLeft
  unfold effort Side.effort
  split <;> split <;> omega

end Link

/-! ## Whole transfers -/

variable {items : List B}

/-- A whole transfer is sent in one piece. -/
theorem Move.whole_send {state : S} (some : items ≠ [])
    (sends : party.demand state = .send items) :
    Move party closed { state, moved := [], taken, given } inbox outbox
      { state, moved := items, taken, given := given ++ items } inbox
      (outbox ++ items) :=
  .send sends (List.append_nil _).symm some

/-- A whole transfer is received in one piece. -/
theorem Move.whole_recv {state : S} (some : items ≠ [])
    (waits : party.demand state = .recv items.length) :
    Move party closed { state, moved := [], taken, given } items outbox
      { state, moved := items, taken := taken ++ items, given } [] outbox := by
  have heard : Move party closed { state, moved := [], taken, given }
      (items ++ []) outbox _ [] outbox :=
    .recv waits (Nat.le_refl _) some
  rw [List.append_nil] at heard
  exact heard

namespace Link

variable {one : Party B S} {two : Party B T} {first : Link B S T} {left : S}
  {right : T}

/-- Some run comes to these states with nothing on its way. -/
def Reaches (one : Party B S) (two : Party B T) (first : Link B S T)
    (left : S) (right : T) : Prop :=
  ∃ count takenLeft givenLeft takenRight givenRight,
    Run one two first count
      { left := { state := left, moved := [], taken := takenLeft
                  given := givenLeft }
        right := { state := right, moved := [], taken := takenRight
                   given := givenRight }
        toRight := [], toLeft := [] }

theorem reaches_start (left : S) (right : T) :
    Reaches one two (start left right) left right :=
  ⟨0, [], [], [], [], .start⟩

/-- What the left party sends and the right one waits for can travel. -/
theorem Reaches.toRight (reaches : Reaches one two first left right)
    (some : items ≠ []) (sends : one.demand left = .send items)
    (waits : two.demand right = .recv items.length) :
    Reaches one two first (one.resume left []) (two.resume right items) := by
  obtain ⟨count, takenLeft, givenLeft, takenRight, givenRight, run⟩ := reaches
  have sending := run.step (.left (Move.whole_send some sends))
  have sent := sending.step (.left (Move.sent sends))
  have receiving := sent.step (.right (Move.whole_recv some waits))
  exact ⟨_, _, _, _, _, receiving.step (.right (Move.received waits))⟩

/-- What the right party sends and the left one waits for can travel. -/
theorem Reaches.toLeft (reaches : Reaches one two first left right)
    (some : items ≠ []) (sends : two.demand right = .send items)
    (waits : one.demand left = .recv items.length) :
    Reaches one two first (one.resume left items) (two.resume right []) := by
  obtain ⟨count, takenLeft, givenLeft, takenRight, givenRight, run⟩ := reaches
  have sending := run.step (.right (Move.whole_send some sends))
  have sent := sending.step (.right (Move.sent sends))
  have receiving := sent.step (.left (Move.whole_recv some waits))
  exact ⟨_, _, _, _, _, receiving.step (.left (Move.received waits))⟩

end Link

end MatrixDB.Lib
