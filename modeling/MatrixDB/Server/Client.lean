import MatrixDB.Server.Connection

/-!
# The client (`client.hpp`)

A call frames its request, sends it, and decodes the frame that comes back.  As
long as every response is one the client takes, the `n`-th call gets the
response to the `n`-th request, in whatever pieces the bytes travel.
-/

namespace MatrixDB

open Lib

/-! ## Calls -/

inductive ClientCall where
  | get (key : UInt64)
  | put (key value : UInt64)
  | query (q : MatrixQuery)
  | health
  | stats
  deriving DecidableEq, Repr

/-- `MatrixRequest r;` with the fields the call sets. -/
def ClientCall.request : ClientCall → MatrixRequest
  | .get key => { kind := .GET, key := key, value := 0, query := {} }
  | .put key value => { kind := .PUT, key := key, value := value, query := {} }
  | .query q => { kind := .QUERY, key := 0, value := 0, query := q }
  | .health => { kind := .HEALTH, key := 0, value := 0, query := {} }
  | .stats => { kind := .STATS, key := 0, value := 0, query := {} }

/-- The request blob of a call. -/
def ClientCall.wire (call : ClientCall) : Bytes :=
  matrixSerializeRequest call.request

structure HealthStatus where
  ready : Bool
  durable : Bool
  catalogColumns : UInt64
  hostResidentBytes : UInt64
  walRecordsPending : UInt64
  droppedWrites : UInt64
  deriving DecidableEq, Repr

/-- What a call returns; `none` where it returns `false` and leaves the
caller's variable alone. -/
inductive ClientResult where
  | value (out : Option UInt64)
  | stored (ok : Bool)
  | answer (out : Option (UInt32 × List UInt64))
  | readiness (out : Option HealthStatus)
  | metrics (out : Option (List UInt64))
  deriving DecidableEq, Repr

def healthOf : List UInt64 → Option HealthStatus
  | [ready, durable, columns, resident, pending, dropped] =>
      some
        { ready := ready != 0
          durable := durable != 0
          catalogColumns := columns
          hostResidentBytes := resident
          walRecordsPending := pending
          droppedWrites := dropped }
  | _ => none

/-- What a call makes of the outcome of its `round_trip`. -/
def ClientCall.returns : ClientCall → Option MatrixResponse → ClientResult
  | .get _, reply =>
      .value (reply.bind fun resp =>
        if resp.status ≠ 0 then none else resp.results.head?)
  | .put _ _, reply => .stored (reply.any fun resp => resp.status = 0)
  | .query _, reply =>
      .answer (reply.map fun resp => (resp.status, resp.results))
  | .health, reply =>
      .readiness (reply.bind fun resp =>
        if resp.status ≠ 0 then none else healthOf resp.results)
  | .stats, reply =>
      .metrics (reply.bind fun resp =>
        if resp.status ≠ 0 ∨ resp.results.length ≠ 12 then none
        else some resp.results)

/-! ## The client's end -/

/-- Where a `round_trip` is. -/
inductive TripPhase where
  | sendLength
  | sendRequest
  | recvLength
  | recvResponse (length : UInt32)

/-- The calls still to be made, the first of them under way, with the outcomes
and results of those made. -/
structure ClientState where
  todo : List ClientCall
  phase : TripPhase
  replies : List (Option MatrixResponse)
  returned : List ClientResult

namespace ClientState

/-- A connected client. -/
def connected (calls : List ClientCall) : ClientState :=
  { todo := calls, phase := .sendLength, replies := [], returned := [] }

def demand (state : ClientState) : Demand UInt8 :=
  match state.todo with
  | [] => .stop
  | call :: _ =>
      match state.phase with
      | .sendLength => .send (u32Bytes (frameLength call.wire))
      | .sendRequest =>
          .send (call.wire.take (frameLength call.wire).toNat)
      | .recvLength => .recv 4
      | .recvResponse length => .recv length.toNat

/-- `round_trip` returns to its call, and the call to its caller. -/
def finish (state : ClientState) (reply : Option MatrixResponse) :
    ClientState :=
  match state.todo with
  | [] => state
  | call :: later =>
      { todo := later
        phase := .sendLength
        replies := state.replies ++ [reply]
        returned := state.returned ++ [call.returns reply] }

def resume (state : ClientState) (got : Bytes) : ClientState :=
  match state.phase with
  | .sendLength => { state with phase := .sendRequest }
  | .sendRequest => { state with phase := .recvLength }
  | .recvLength =>
      if u32OfBytes got > maxFrame then state.finish none
      else { state with phase := .recvResponse (u32OfBytes got) }
  | .recvResponse _ => state.finish (matrixDeserializeResponse got)

end ClientState

/-- `MatrixClient`, making one call after another. -/
def matrixClient : Party UInt8 ClientState where
  demand state := state.demand
  resume state got := state.resume got
  fail state := state.finish none

/-- Only a request or a response can be empty, and what follows is not. -/
theorem matrixClient_alternates : matrixClient.Alternates := by
  intro state weightless
  obtain ⟨todo, phase, replies, returned⟩ := state
  have busy : ∀ call : ClientCall,
      (Demand.send (u32Bytes (frameLength call.wire))).weight = 1 := by
    intro call
    apply Demand.weight_send
    rw [← List.length_pos_iff, length_u32Bytes]
    exact Nat.zero_lt_succ 3
  cases todo with
  | nil => cases weightless
  | cons call later =>
      cases phase with
      | sendLength =>
          exact absurd ((busy call).symm.trans weightless) Nat.one_ne_zero
      | sendRequest => exact Nat.zero_lt_one
      | recvLength => cases weightless
      | recvResponse length =>
          cases later with
          | nil => exact Nat.zero_lt_two
          | cons next rest =>
              exact Nat.lt_of_lt_of_eq Nat.zero_lt_one (busy next).symm

theorem length_wire (call : ClientCall) : call.wire.length = 106 :=
  length_layout _ _ _ _ _

/-! ## The script of a client -/

theorem frames_eq_nil_iff {bodies : List Bytes} :
    frames bodies = [] ↔ bodies = [] := by
  constructor
  · intro empty
    cases bodies with
    | nil => rfl
    | cons body later =>
        have length := congrArg List.length empty
        rw [frames_cons, frame, List.length_append, List.length_append,
          length_u32Bytes] at length
        simp at length
  · rintro rfl
    rfl

variable {κ : Type} [SoundCost κ] {config : ServeConfig}

/-- The outcome of a `round_trip` with this response. -/
def replyOf (exchange : Exchange) : Option MatrixResponse :=
  matrixDeserializeResponse exchange.2

/-- A client that has made some calls. -/
def ClientState.midway (done todo : List ClientCall)
    (before : List Exchange) (phase : TripPhase) : ClientState :=
  { todo := todo
    phase := phase
    replies := before.map replyOf
    returned := List.zipWith ClientCall.returns done (before.map replyOf) }

/-- A script that is about the calls of a client alone, with responses that the
client takes. -/
structure Script.For (script : Script κ config) (calls : List ClientCall) :
    Prop where
  opening : script.opening = []
  tail : script.tail = []
  asked : requestsOf script.exchanges = calls.map ClientCall.wire
  small : ∀ exchange ∈ script.exchanges,
    exchange.2.length ≤ maxFrame.toNat

namespace Script

variable {script : Script κ config} {calls done todo : List ClientCall}
  {before later : List Exchange} {call : ClientCall} {exchange : Exchange}

theorem For.heard (own : script.For calls) :
    script.heard = frames (requestsOf script.exchanges) := by
  rw [Script.heard, own.opening, own.tail, List.append_nil]
  rfl

variable (script calls) in
/-- The calls made and the calls to be made, with their exchanges. -/
structure Asked (done todo : List ClientCall) (before later : List Exchange) :
    Prop where
  split : script.exchanges = before ++ later
  calls : calls = done ++ todo
  made : done.length = before.length
  waiting : requestsOf later = todo.map ClientCall.wire

theorem asked_first (own : script.For calls) :
    script.Asked calls [] calls [] script.exchanges :=
  ⟨rfl, rfl, rfl, own.asked⟩

theorem Asked.cons (asked : script.Asked calls done (call :: todo) before
    later) : ∃ exchange rest, later = exchange :: rest ∧
      exchange.1.1 = call.wire := by
  have waiting := asked.waiting
  cases later with
  | nil => cases waiting
  | cons exchange rest =>
      exact ⟨exchange, rest, rfl, (List.cons.inj waiting).1⟩

theorem Asked.wire (asked : script.Asked calls done (call :: todo) before
    (exchange :: later)) : exchange.1.1 = call.wire :=
  (List.cons.inj asked.waiting).1

theorem Asked.next (asked : script.Asked calls done (call :: todo) before
    (exchange :: later)) :
    script.Asked calls (done ++ [call]) todo (before ++ [exchange]) later where
  split := by
    rw [asked.split, List.append_assoc]
    rfl
  calls := by
    rw [asked.calls, List.append_assoc]
    rfl
  made := by
    rw [List.length_append, List.length_append, asked.made]
    rfl
  waiting := (List.cons.inj asked.waiting).2

theorem Asked.told_eq (asked : script.Asked calls done todo before later) :
    script.told =
      frames (responsesOf before) ++ frames (responsesOf later) := by
  rw [told, asked.split, responsesOf, List.map_append, frames_append]
  rfl

theorem Asked.requests_eq
    (asked : script.Asked calls done todo before later) :
    frames (requestsOf script.exchanges) =
      frames (requestsOf before) ++ frames (requestsOf later) := by
  rw [asked.split, requestsOf, List.map_append, frames_append]
  rfl

variable (script calls) in
/-- The client in a state between two transfers, with all it has received and
sent. -/
inductive ClientAt : ClientState → Bytes → Bytes → Prop where
  | sendLength {done todo : List ClientCall} {before later : List Exchange}
      (asked : script.Asked calls done todo before later) :
      ClientAt (.midway done todo before .sendLength)
        (frames (responsesOf before)) (frames (requestsOf before))
  | sendRequest {done todo : List ClientCall} {call : ClientCall}
      {before later : List Exchange} {exchange : Exchange}
      (asked : script.Asked calls done (call :: todo) before
        (exchange :: later)) :
      ClientAt (.midway done (call :: todo) before .sendRequest)
        (frames (responsesOf before))
        (frames (requestsOf before) ++ u32Bytes (frameLength call.wire))
  | recvLength {done todo : List ClientCall} {call : ClientCall}
      {before later : List Exchange} {exchange : Exchange}
      (asked : script.Asked calls done (call :: todo) before
        (exchange :: later)) :
      ClientAt (.midway done (call :: todo) before .recvLength)
        (frames (responsesOf before))
        (frames (requestsOf (before ++ [exchange])))
  | recvResponse {done todo : List ClientCall} {call : ClientCall}
      {before later : List Exchange} {exchange : Exchange} {length : UInt32}
      (asked : script.Asked calls done (call :: todo) before
        (exchange :: later)) :
      ClientAt (.midway done (call :: todo) before (.recvResponse length))
        (frames (responsesOf before) ++ u32Bytes length)
        (frames (requestsOf (before ++ [exchange])))

/-! ### What the client receives -/

variable {got : Bytes}

theorem Asked.told_next (asked : script.Asked calls done (call :: todo) before
      (exchange :: later))
    (heard : frames (responsesOf before) ++ got <+: script.told) :
    got <+: frame exchange.2 ++ frames (responsesOf later) := by
  rw [asked.told_eq, List.prefix_append_right_inj] at heard
  exact heard

theorem Asked.small (own : script.For calls)
    (asked : script.Asked calls done (call :: todo) before
      (exchange :: later)) : exchange.2.length ≤ maxFrame.toNat := by
  apply own.small
  rw [asked.split]
  exact List.mem_append_right _ List.mem_cons_self

/-- A response that has come whole is that of the exchange. -/
theorem ClientAt.finish (asked : script.Asked calls done (call :: todo) before
      (exchange :: later)) {phase : TripPhase} :
    script.ClientAt calls
      ((ClientState.midway done (call :: todo) before phase).finish
        (replyOf exchange))
      (frames (responsesOf (before ++ [exchange])))
      (frames (requestsOf (before ++ [exchange]))) := by
  have next := ClientAt.sendLength asked.next
  have length : done.length = (before.map replyOf).length := by
    rw [List.length_map]
    exact asked.made
  unfold ClientState.midway at next
  rw [List.map_append, List.zipWith_append length] at next
  exact next

theorem ClientAt.received_recvLength (own : script.For calls)
    (asked : script.Asked calls done (call :: todo) before
      (exchange :: later)) (all : got.length = 4)
    (heard : frames (responsesOf before) ++ got <+: script.told) :
    script.ClientAt calls
      ((ClientState.midway done (call :: todo) before .recvLength).resume got)
      (frames (responsesOf before) ++ got)
      (frames (requestsOf (before ++ [exchange]))) := by
  have length := u32OfBytes_of_heard all (asked.told_next heard)
  have capped : ¬ u32OfBytes got > maxFrame := by
    have small := asked.small own
    have most := toNat_frameLength_le exchange.2
    rw [gt_iff_lt, UInt32.lt_iff_toNat_lt, length]
    omega
  have whole := (u32Bytes_u32OfBytes all).symm
  simp only [ClientState.resume, ClientState.midway, if_neg capped]
  rw [whole, u32OfBytes_u32Bytes]
  exact .recvResponse asked

theorem ClientAt.received_recvResponse {length : UInt32}
    (own : script.For calls)
    (asked : script.Asked calls done (call :: todo) before
      (exchange :: later)) (all : got.length = length.toNat)
    (heard : frames (responsesOf before) ++ (u32Bytes length ++ got) <+:
      script.told) :
    script.ClientAt calls
      ((ClientState.midway done (call :: todo) before
        (.recvResponse length)).resume got)
      (frames (responsesOf before) ++ (u32Bytes length ++ got))
      (frames (requestsOf (before ++ [exchange]))) := by
  obtain ⟨rfl, rfl⟩ := body_of_heard all (asked.told_next heard)
  have small := asked.small own
  have fits : exchange.2.length < 2 ^ 32 :=
    Nat.lt_of_le_of_lt small (by decide)
  have whole : exchange.2.take (frameLength exchange.2).toNat =
      exchange.2 := by
    rw [toNat_frameLength fits, List.take_length]
  have taken : frames (responsesOf before) ++
      (u32Bytes (frameLength exchange.2) ++
        exchange.2.take (frameLength exchange.2).toNat) =
      frames (responsesOf (before ++ [exchange])) :=
    frames_responsesOf_concat.symm
  rw [taken, whole]
  exact ClientAt.finish asked

/-- The client follows the script as long as it receives the script. -/
theorem client_keeps (own : script.For calls) :
    matrixClient.Keeps script.told script.heard (script.ClientAt calls) where
  sent holds wants := by
    cases holds with
    | @sendLength done todo before later asked =>
        cases todo with
        | nil => cases wants
        | cons call todo =>
            cases wants
            obtain ⟨exchange, rest, rfl, _⟩ := asked.cons
            exact .sendRequest asked
    | @sendRequest done todo call before later exchange asked =>
        cases wants
        have given : frames (requestsOf (before ++ [exchange])) = _ :=
          frames_requestsOf_concat
        rw [asked.wire, frame, ← List.append_assoc] at given
        rw [← given]
        exact .recvLength asked
    | recvLength => cases wants
    | recvResponse => cases wants
  received holds wants all heard := by
    cases holds with
    | @sendLength done todo before later asked =>
        cases todo with
        | nil => cases wants
        | cons call todo => cases wants
    | sendRequest => cases wants
    | recvLength asked =>
        cases wants
        exact ClientAt.received_recvLength own asked all heard
    | recvResponse asked =>
        cases wants
        rw [List.append_assoc] at heard ⊢
        exact ClientAt.received_recvResponse own asked all heard
  said holds := by
    rw [own.heard]
    cases holds with
    | sendLength asked =>
        rw [asked.requests_eq]
        exact List.prefix_append _ _
    | sendRequest asked =>
        rw [asked.requests_eq, List.prefix_append_right_inj, requestsOf,
          List.map_cons, frames_cons, asked.wire, frame]
        exact (List.prefix_append _ _).trans (List.prefix_append _ _)
    | recvLength asked =>
        rw [asked.next.requests_eq]
        exact List.prefix_append _ _
    | recvResponse asked =>
        rw [asked.next.requests_eq]
        exact List.prefix_append _ _

/-! ### Nobody waits in vain -/

/-- A client that waits has not had the response to its last request. -/
theorem ClientAt.unanswered {state : ClientState} {taken given moved : Bytes}
    {count : Nat} (holds : script.ClientAt calls state taken given)
    (waits : state.demand = .recv count) (short : moved.length < count) :
    ∃ before exchange later, script.exchanges = before ++ exchange :: later ∧
      given = frames (requestsOf (before ++ [exchange])) ∧
      ∀ more, taken ++ moved ≠
        frames (responsesOf (before ++ [exchange])) ++ more := by
  cases holds with
  | @sendLength done todo before later asked =>
      cases todo with
      | nil => cases waits
      | cons call todo => cases waits
  | sendRequest => cases waits
  | @recvLength done todo call before later exchange asked =>
      cases waits
      refine ⟨before, exchange, later, asked.split, rfl, ?_⟩
      intro more same
      rw [frames_responsesOf_concat, List.append_assoc,
        List.append_cancel_left_eq] at same
      exact unfinished_of_short short exchange.2 more same
  | @recvResponse done todo call before later exchange length asked =>
      cases waits
      refine ⟨before, exchange, later, asked.split, rfl, ?_⟩
      intro more same
      rw [frames_responsesOf_concat, List.append_assoc, List.append_assoc,
        List.append_cancel_left_eq] at same
      exact unfinished_body short exchange.2 more same

/-- Two cuts of the exchanges, one of them with an unfinished frame behind. -/
theorem cuts_agree {front back : List Exchange} {rest : Bytes}
    (one : script.exchanges = before ++ later)
    (other : script.exchanges = front ++ back) (unfinished : Unfinished rest)
    (same : frames (requestsOf before) ++ rest = frames (requestsOf front)) :
    before = front ∧ rest = [] := by
  have split := one.symm.trans other
  rcases List.append_eq_append_iff.mp split with
    ⟨more, rfl, _⟩ | ⟨more, rfl, _⟩
  · rw [requestsOf, requestsOf, List.map_append, frames_append,
      List.append_cancel_left_eq] at same
    have whole : rest = frames (requestsOf more) ++ [] := by
      rw [List.append_nil]
      exact same
    have none := frames_eq_nil unfinished whole
    rw [requestsOf, List.map_eq_nil_iff] at none
    subst none
    exact ⟨(List.append_nil before).symm, same⟩
  · rw [requestsOf, requestsOf, List.map_append, frames_append,
      List.append_assoc] at same
    have none := List.append_right_eq_self.mp same
    obtain ⟨empty, gone⟩ := List.append_eq_nil_iff.mp none
    have nothing := frames_eq_nil_iff.mp empty
    rw [List.map_eq_nil_iff] at nothing
    subst nothing
    exact ⟨List.append_nil front, gone⟩

/-- A server that waits has answered every request it has received. -/
theorem At.answered {state : ConnState κ} {taken given moved : Bytes}
    {count : Nat} {front back : List Exchange} (opening : script.opening = [])
    (holds : script.At state taken given)
    (waits : state.phase.demand = .recv count) (short : moved.length < count)
    (split : script.exchanges = front ++ back)
    (heard : taken ++ moved = frames (requestsOf front)) :
    given = frames (responsesOf front) := by
  have unopened : ¬ script.Opens := by
    rintro ⟨token, opens, _⟩
    rw [opening] at opens
    have length := congrArg List.length opens
    rw [frame, List.length_append, length_u32Bytes] at length
    simp at length
    omega
  cases holds with
  | responseLength => cases waits
  | response => cases waits
  | returned => cases waits
  | aborted => cases waits
  | tokenLength opens => exact absurd opens unopened
  | token opens => exact absurd opens unopened
  | requestLength reached =>
      cases waits
      rw [opening, List.nil_append] at heard
      rw [(cuts_agree reached.split split (unfinished_of_short short)
        heard).1]
  | request reached =>
      cases waits
      rw [opening, List.nil_append, List.append_assoc] at heard
      rw [(cuts_agree reached.split split (unfinished_body short) heard).1]

end Script

/-! ## One connection -/

/-- A client on a connection to a loop of `matrix_serve_conn`. -/
abbrev Dialogue (config : ServeConfig) (engine : CPUMockEngine κ)
    (principal : UInt64) (calls : List ClientCall) (count : Nat)
    (link : Link UInt8 ClientState (ConnState κ)) : Prop :=
  Link.Run matrixClient (matrixServeConnAuth config)
    (Link.start (ClientState.connected calls)
      (ConnState.admitted engine principal)) count link

section
variable {script : Script κ config} {calls : List ClientCall} {count : Nat}
  {link : Link UInt8 ClientState (ConnState κ)}

/-- The server never stops while the client waits. -/
theorem Script.ClientAt.not_told {state : ClientState}
    {taken given moved : Bytes} {count : Nat}
    (holds : script.ClientAt calls state taken given)
    (waits : state.demand = .recv count) (short : moved.length < count) :
    taken ++ moved ≠ script.told := by
  obtain ⟨before, exchange, later, split, _, unanswered⟩ :=
    holds.unanswered waits short
  intro same
  apply unanswered (frames (responsesOf later))
  rw [same, Script.told, split, responsesOf, List.map_append, List.map_cons,
    frames_append, frames_cons, Script.frames_responsesOf_concat,
    List.append_assoc]
  rfl

theorem client_copes :
    matrixClient.Copes (matrixServeConnAuth config) (script.ClientAt calls)
      script.At := by
  intro state taken given count moved peer _ _ holds waits short peerHolds
    stopped all _
  have told := (peerHolds.stopped stopped).2
  rw [told] at all
  exact absurd all.symm (holds.not_told waits short)

/-- A client stops when it has made all its calls. -/
theorem Script.ClientAt.stopped {state : ClientState} {taken given : Bytes}
    (holds : script.ClientAt calls state taken given)
    (stopped : state.demand = .stop) : state.todo = [] := by
  cases holds with
  | @sendLength done todo before later asked =>
      cases todo with
      | nil => rfl
      | cons call todo => cases stopped
  | sendRequest => cases stopped
  | recvLength => cases stopped
  | recvResponse => cases stopped

theorem client_whole (own : script.For calls) (state : ClientState)
    (taken given : Bytes) (holds : script.ClientAt calls state taken given)
    (stopped : matrixClient.demand state = .stop) : given = script.heard := by
  have all := holds.stopped stopped
  rw [own.heard]
  cases holds with
  | @sendLength done todo before later asked =>
      have none : requestsOf later = [] := by
        rw [asked.waiting]
        exact List.map_eq_nil_iff.mpr all
      rw [asked.requests_eq, none]
      exact (List.append_nil _).symm
  | sendRequest => cases all
  | recvLength => cases all
  | recvResponse => cases all

theorem dialogue_inStep (own : script.For calls)
    (run : Dialogue config script.first script.principal calls count link) :
    link.InStep matrixClient (matrixServeConnAuth config)
      (script.ClientAt calls) script.At script.heard script.told := by
  have admitted : script.At
      (ConnState.admitted script.first script.principal) [] [] := by
    have first : script.At _ (script.opening ++ frames (requestsOf []))
        (frames (responsesOf [])) :=
      .requestLength Script.reached_first
    rw [own.opening] at first
    exact first
  exact run.inStep (Script.client_keeps own) Script.keeps client_copes
    (Script.copes (client_whole own))
    (.sendLength (Script.asked_first own)) admitted

/-- Neither end is ever left waiting. -/
theorem dialogue_bounded (own : script.For calls)
    (run : Dialogue config script.first script.principal calls count link) :
    count ≤ 8 * (script.heard.length + script.told.length) + 8 := by
  have effort := run.length_le ⟨matrixClient_alternates,
    matrixServeConnAuth_alternates config⟩ (by
      intro count link run
      have inStep := dialogue_inStep own run
      refine ⟨?_, fun _ _ _ _ _ => demand_fail _⟩
      intro wanted stopped empty waits short
      obtain ⟨_, _, holds, left⟩ := inStep.left
      obtain ⟨_, _, peerHolds, right⟩ := inStep.right
      have all := inStep.fifo.toLeft
      rw [empty, List.append_nil, (right.stop stopped).2.1,
        (peerHolds.stopped stopped).2, (left.recv waits).1] at all
      exact absurd all.symm (holds.not_told waits short))
  have most : link.effort matrixClient (matrixServeConnAuth config) ≤ _ :=
    Link.effort_le (dialogue_inStep own run).fifo
  have asked := ((dialogue_inStep own run).left.said
    (Script.client_keeps own)).length_le
  have told := ((dialogue_inStep own run).right.said
    Script.keeps).length_le
  omega

/-- When nothing can move any more, every call has returned. -/
theorem dialogue_done (own : script.For calls)
    (inStep : link.InStep matrixClient (matrixServeConnAuth config)
      (script.ClientAt calls) script.At script.heard script.told)
    (stuck : ∀ next, ¬ Link.Step matrixClient (matrixServeConnAuth config)
      link next) : link.left.state.todo = [] := by
  obtain ⟨taken, given, holds, left⟩ := inStep.left
  obtain ⟨_, _, peerHolds, right⟩ := inStep.right
  rcases Link.stopped_or_deadlocked left right stuck with
    ⟨stopped, _⟩ | ⟨⟨count, waits, short⟩, ⟨wanted, asks, less⟩, toLeft,
      toRight⟩
  · exact holds.stopped stopped
  · -- The server has answered all it was asked, so the client has the answer.
    obtain ⟨before, exchange, later, split, sent, unanswered⟩ :=
      holds.unanswered waits short
    have requests := inStep.fifo.toRight
    have responses := inStep.fifo.toLeft
    rw [toRight, List.append_nil, (left.recv waits).2.1, sent,
      (right.recv asks).1] at requests
    rw [toLeft, List.append_nil, (right.recv asks).2.1,
      (left.recv waits).1] at responses
    have cut : script.exchanges = (before ++ [exchange]) ++ later := by
      rw [split, List.append_assoc]
      rfl
    have answered := peerHolds.answered own.opening asks less cut
      requests.symm
    rw [answered] at responses
    exact absurd (responses.symm.trans (List.append_nil _).symm)
      (unanswered [])

/-- How far the client has come. -/
theorem Script.ClientAt.progress {state : ClientState} {taken given : Bytes}
    (holds : script.ClientAt calls state taken given) :
    ∃ done todo before later, script.Asked calls done todo before later ∧
      state.todo = todo ∧ state.replies = before.map replyOf ∧
      state.returned =
        List.zipWith ClientCall.returns done (before.map replyOf) := by
  cases holds with
  | sendLength asked => exact ⟨_, _, _, _, asked, rfl, rfl, rfl⟩
  | sendRequest asked => exact ⟨_, _, _, _, asked, rfl, rfl, rfl⟩
  | recvLength asked => exact ⟨_, _, _, _, asked, rfl, rfl, rfl⟩
  | recvResponse asked => exact ⟨_, _, _, _, asked, rfl, rfl, rfl⟩

end

/-! ## Responses that the client takes -/

/-- The request is answered, and if it is a grouped query that passes every
check, the response with a word for each group is no longer than the client's
cap. -/
def CPUMockEngine.Steady (engine : CPUMockEngine κ) (config : ServeConfig)
    (principal : UInt64) (bytes : Bytes) : Prop :=
  ¬ engine.Stops config.asserts config.policy principal bytes ∧
    ∀ groups, engine.AnswersGroups config.policy principal bytes groups →
      groups.toNat ≤ 33554430

theorem serveInTurn_order {ι : Type} {asserts : Bool} {policy : AccessPolicy}
    {of : ι → Call} {clock : ι → UInt64} {order : List ι}
    {served : List (ι × Bytes)} {engine final : CPUMockEngine κ}
    (ran : engine.serveInTurn asserts policy of clock order =
      some (served, final)) : served.map Prod.fst = order := by
  induction order generalizing engine served with
  | nil =>
      cases ran
      rfl
  | cons i order induction =>
      obtain ⟨⟨reply, next⟩, _, ran⟩ := Option.bind_eq_some_iff.mp ran
      obtain ⟨⟨others, last⟩, rest, same⟩ := Option.bind_eq_some_iff.mp ran
      cases same
      rw [List.map_cons, induction rest]

theorem steady_response {engine after : CPUMockEngine κ}
    {principal ns : UInt64} {bytes response : Bytes}
    (wellFormed : engine.catalog.WellFormed)
    (steady : engine.Steady config principal bytes)
    (ran : engine.matrixServe config.asserts config.policy principal bytes ns =
      some (response, after)) :
    response.length ≤ maxFrame.toNat ∧
      (matrixDeserializeResponse response).isSome := by
  obtain ⟨_, resp, rfl, words⟩ := matrixServe_response wellFormed ran
  have cap : maxFrame.toNat = 2 ^ 28 := rfl
  have few : resp.results.length ≤ 33554430 := by
    rcases words with few | ⟨groups, answers, many⟩
    · omega
    · have most := steady.2 groups answers
      omega
  constructor
  · rw [length_serializeResponse]
    omega
  · rw [(deserialize_response_iff _ resp).mpr ⟨by omega, rfl⟩]
    rfl

/-- The requests up to a place among numbered ones. -/
theorem zipIdx_wires_split {calls : List ClientCall}
    {before later : List (Bytes × Nat)} {request : Bytes × Nat}
    (split : (calls.map ClientCall.wire).zipIdx =
      before ++ request :: later) :
    ∃ done call todo, calls = done ++ call :: todo ∧
      before = (done.map ClientCall.wire).zipIdx ∧
      request.1 = call.wire := by
  obtain ⟨front, back, wires, first, rest⟩ :=
    List.zipIdx_eq_append_iff.mp split
  obtain ⟨wire, others, backEq, requestEq, _⟩ :=
    List.zipIdx_eq_cons_iff.mp rest.symm
  obtain ⟨done, remaining, callsEq, doneEq, remainingEq⟩ :=
    List.map_eq_append_iff.mp wires
  rw [backEq] at remainingEq
  obtain ⟨call, todo, remainingIs, wireEq, _⟩ :=
    List.map_eq_cons_iff.mp remainingEq
  refine ⟨done, call, todo, ?_, ?_, ?_⟩
  · rw [callsEq, remainingIs]
  · rw [first, doneEq]
  · rw [requestEq, wireEq]

/-- Calls that all find the server steady have a script. -/
theorem exists_script_for {engine : CPUMockEngine κ} {principal : UInt64}
    {calls : List ClientCall} (wellFormed : engine.catalog.WellFormed)
    (steady : ∀ done call todo served middle, calls = done ++ call :: todo →
      engine.serveAll config principal (done.map ClientCall.wire).zipIdx =
        some (served, middle) →
      middle.Steady config principal call.wire) :
    ∃ script : Script κ config, script.first = engine ∧
      script.principal = principal ∧ script.For calls ∧
      engine.serveAll config principal (calls.map ClientCall.wire).zipIdx =
        some (script.exchanges, script.final) ∧
      ∀ exchange ∈ script.exchanges, (replyOf exchange).isSome := by
  have answered : (engine.serveAll config principal
      (calls.map ClientCall.wire).zipIdx).isSome := by
    apply isSome_serveInTurn
    intro before request later served middle split ran
    obtain ⟨done, call, todo, callsEq, rfl, wire⟩ := zipIdx_wires_split split
    have formed := (keeps_serveInTurn wellFormed ran).wellFormed
    rw [isSome_matrixServe_iff_not_stops formed, wire]
    exact (steady done call todo served middle callsEq ran).1
  obtain ⟨⟨exchanges, final⟩, ran⟩ := Option.isSome_iff_exists.mp answered
  have order : exchanges.map Prod.fst = (calls.map ClientCall.wire).zipIdx :=
    serveInTurn_order ran
  have asked : requestsOf exchanges = calls.map ClientCall.wire := by
    have firsts := congrArg (List.map Prod.fst) order
    rw [List.zipIdx_map_fst, List.map_map] at firsts
    exact firsts
  have takes : ∀ exchange ∈ exchanges,
      exchange.2.length ≤ maxFrame.toNat ∧ (replyOf exchange).isSome := by
    intro exchange member
    obtain ⟨before, later, split⟩ := List.append_of_mem member
    have whole := ran
    rw [split] at whole
    obtain ⟨rest, middle, next, requests, upTo, response, _⟩ :=
      serveInTurn_split whole
    obtain ⟨done, call, todo, callsEq, front, wire⟩ :=
      zipIdx_wires_split requests
    have formed := (keeps_serveInTurn wellFormed upTo).wellFormed
    rw [front] at upTo
    have own := steady done call todo before middle callsEq upTo
    rw [← wire] at own
    exact steady_response formed own response
  refine ⟨
    { first := engine
      opening := []
      principal := principal
      exchanges := exchanges
      final := final
      tail := []
      served := order ▸ ran
      numbered := fun _ _ _ => numbered_of_zipIdx
        (order.symm.trans (List.append_nil _).symm)
      fits := ?_
      ends := ?_ }, rfl, rfl, ⟨rfl, rfl, asked, ?_⟩, ran, ?_⟩
  · intro exchange member
    have wire : exchange.1.1 ∈ calls.map ClientCall.wire := by
      rw [← asked]
      exact List.mem_map_of_mem member
    obtain ⟨call, _, same⟩ := List.mem_map.mp wire
    rw [← same, length_wire]
    decide
  · intro length request more same
    have short := congrArg List.length same
    rw [List.length_append, List.length_append, length_u32Bytes,
      List.length_nil] at short
    omega
  · intro exchange member
    exact (takes exchange member).1
  · intro exchange member
    exact (takes exchange member).2

/-- While every call finds the server steady, the client and the server stay in
step: in every state of the connection the calls made so far have got, and
returned, the decoded responses of `matrix_serve` to their own requests, no
`round_trip` has failed, and the connection only comes to rest when every call
has returned. -/
theorem client_in_step {strtod : Bytes → StrtodResult}
    {engine : CPUMockEngine κ} (live : engine.Live strtod)
    (config : ServeConfig) (principal : UInt64) (calls : List ClientCall)
    (steady : ∀ done call todo served middle, calls = done ++ call :: todo →
      engine.serveAll config principal (done.map ClientCall.wire).zipIdx =
        some (served, middle) →
      middle.Steady config principal call.wire) :
    ∃ exchanges final,
      engine.serveAll config principal (calls.map ClientCall.wire).zipIdx =
        some (exchanges, final) ∧
      (∃ most, ∀ count link,
        Dialogue config engine principal calls count link → count ≤ most) ∧
      ∀ count link, Dialogue config engine principal calls count link →
        ∃ made, made ≤ calls.length ∧
          link.left.state.replies = (exchanges.take made).map replyOf ∧
          link.left.state.returned = List.zipWith ClientCall.returns
            (calls.take made) link.left.state.replies ∧
          none ∉ link.left.state.replies ∧
          ((∀ next, ¬ Link.Step matrixClient (matrixServeConnAuth config)
            link next) → made = calls.length) := by
  obtain ⟨analytics, reached, same⟩ := live
  have wellFormed : engine.catalog.WellFormed := by
    rw [same]
    exact reached.settled.wellFormed
  obtain ⟨script, rfl, rfl, own, ran, taken⟩ :=
    exists_script_for wellFormed steady
  refine ⟨script.exchanges, script.final, ran, ⟨_, fun count link run =>
    dialogue_bounded own run⟩, ?_⟩
  intro count link run
  have inStep := dialogue_inStep own run
  obtain ⟨_, _, holds, _⟩ := inStep.left
  obtain ⟨done, todo, before, later, asked, waiting, replies, returned⟩ :=
    holds.progress
  have cut : script.exchanges.take done.length = before := by
    rw [asked.made, asked.split, List.take_left]
  refine ⟨done.length, ?_, ?_, ?_, ?_, ?_⟩
  · rw [asked.calls, List.length_append]
    exact Nat.le_add_right _ _
  · rw [cut, replies]
  · rw [returned, replies, asked.calls, List.take_left]
  · rw [replies]
    intro failed
    obtain ⟨exchange, member, none⟩ := List.mem_map.mp failed
    have some := taken exchange (by
      rw [asked.split]
      exact List.mem_append_left _ member)
    rw [none] at some
    cases some
  · intro stuck
    have all := dialogue_done own inStep stuck
    rw [waiting] at all
    rw [asked.calls, all, List.append_nil]

/-- A write and a read of what it wrote. -/
def writeAndRead : List ClientCall := [.put 5 50, .get 5]

/-- A server that forbids nothing. -/
def openServer : ServeConfig :=
  { asserts := true, policy := .permissive, auth := { tokens := [] }
    clock := fun _ => 0 }

theorem deserialize_wire (call : ClientCall) :
    matrixDeserializeRequest call.wire = some call.request :=
  deserialize_serialize call.request

omit [SoundCost κ] in
/-- Only a query is answered with groups. -/
theorem steady_of_no_query {engine : CPUMockEngine κ} {principal : UInt64}
    {call : ClientCall} (other : call.request.kind ≠ .QUERY)
    (accepted : ¬ engine.PutAborts call.wire) :
    engine.Steady config principal call.wire := by
  constructor
  · rintro ⟨_, ⟨_, aborts⟩ | ⟨req, read, query, _⟩⟩
    · exact accepted aborts
    · rw [deserialize_wire] at read
      cases read
      exact other query
  · rintro groups ⟨req, read, _, query, _⟩
    rw [deserialize_wire] at read
    cases read
    exact absurd query other

theorem client_in_step_read :
    ∃ exchanges final,
      emptyShop.serveAll openServer 7
        (writeAndRead.map ClientCall.wire).zipIdx = some (exchanges, final) ∧
      ∀ count link,
        Dialogue openServer emptyShop 7 writeAndRead count link →
        none ∉ link.left.state.replies := by
  have idle : ¬ emptyShop.PutAborts (ClientCall.put 5 50).wire := by
    rintro ⟨_, _, _, opened | ⟨full, _⟩⟩
    · cases opened
    · cases full
  have unread : ∀ engine : CPUMockEngine ℚ,
      ¬ engine.PutAborts (ClientCall.get 5).wire := by
    rintro engine ⟨key, value, asks, _⟩
    rw [putOf, deserialize_wire] at asks
    cases asks
  obtain ⟨exchanges, final, served, _, runs⟩ := client_in_step live_emptyShop
    openServer 7 writeAndRead (by
      intro done call todo served middle split ran
      cases done with
      | nil =>
          cases ran
          cases split
          exact steady_of_no_query (by decide) idle
      | cons first done =>
          obtain ⟨_, rest⟩ := List.cons.inj split
          cases done with
          | nil =>
              cases rest
              exact steady_of_no_query (by decide) (unread middle)
          | cons second done =>
              exact absurd (List.cons.inj rest).2.symm
                (List.append_ne_nil_of_right_ne_nil done
                  (List.cons_ne_nil call todo)))
  refine ⟨exchanges, final, served, fun count link run => ?_⟩
  obtain ⟨_, _, _, _, succeeded, _⟩ := runs count link run
  exact succeeded

/-! ## A response that the client refuses -/

/-- A value and a key for one row. -/
def oneRow : Option (Analytics ℚ) := do
  let (_, engine) ← (CatalogCall.loadScanColumn 1 [5]).run
    Analytics.noNumber (fun _ => 0) (.fresh 1024)
  let (_, engine) ← (CatalogCall.loadScanColumn 2 [0]).run
    Analytics.noNumber (fun _ => 0) engine
  some engine

/-- So many groups that the response is four bytes longer than the cap. -/
def wideQuery : MatrixQuery :=
  { valueCol := 1, grouped := true, keyCol := 2, numGroups := 33554431 }

theorem exists_oneRow :
    ∃ analytics : Analytics ℚ, analytics.Live Analytics.noNumber ∧
      PassesChecks analytics.catalog.maxQueryGroups wideQuery
        (analytics.catalog.view 1) (analytics.catalog.view 2)
        (analytics.catalog.view 0) := by
  have seen : (oneRow.map fun engine =>
      (engine.catalog.maxQueryGroups, engine.catalog.view 1,
        engine.catalog.view 2)) =
      some (MAX_QUERY_GROUPS,
        some { type := .U32, bytes := u32Bytes 5, nulls := none },
        some { type := .U32, bytes := u32Bytes 0, nulls := none }) := by
    decide +kernel
  obtain ⟨engine, made, views⟩ := Option.map_eq_some_iff.mp seen
  unfold oneRow at made
  obtain ⟨⟨_, first⟩, loaded, rest⟩ := Option.bind_eq_some_iff.mp made
  obtain ⟨⟨_, second⟩, more, same⟩ := Option.bind_eq_some_iff.mp rest
  cases same
  simp only [Prod.mk.injEq] at views
  obtain ⟨groups, value, key⟩ := views
  refine ⟨engine, .call (.call (.fresh 1024) loaded) more, rfl, _, _, value,
    key, ⟨?_, ?_, ?_, rfl, rfl⟩, ?_⟩
  · decide
  · decide
  · rw [groups]
    decide
  · intro _
    rfl

/-- A request and a response that is too long for the client. -/
theorem oversized_response {engine after : CPUMockEngine κ}
    {principal : UInt64} {call : ClientCall} {response : Bytes}
    (answered : engine.matrixServe config.asserts config.policy principal
      call.wire (config.clock 0) = some (response, after))
    (tooLong : frameLength response > maxFrame) :
    ∃ count link, Dialogue config engine principal [call] count link ∧
      link.left.state.replies = [none] := by
  have small : ¬ frameLength call.wire > maxFrame := by
    rw [frameLength, length_wire]
    decide
  have length : (frameLength call.wire).toNat = call.wire.length := by
    apply toNat_frameLength
    rw [length_wire]
    decide
  have four : ∀ length : UInt32, u32Bytes length ≠ [] := by
    intro length
    rw [← List.length_pos_iff, length_u32Bytes]
    decide
  have whole : call.wire.take (frameLength call.wire).toNat = call.wire := by
    rw [length, List.take_length]
  have some : call.wire ≠ [] := by
    rw [← List.length_pos_iff, length_wire]
    decide
  have wanted : (matrixServeConnAuth config).resume
      (ConnState.admitted engine principal)
      (u32Bytes (frameLength call.wire)) =
      { ConnState.admitted engine principal with
        phase := .request (frameLength call.wire) } := by
    simp only [matrixServeConnAuth, ConnState.resume, ConnState.admitted,
      u32OfBytes_u32Bytes, if_neg small]
  have served : (matrixServeConnAuth config).resume
      { ConnState.admitted engine principal with
        phase := .request (frameLength call.wire) } call.wire =
      { engine := after, principal := principal, served := 1
        phase := .responseLength response } := by
    simp only [matrixServeConnAuth, ConnState.resume, ConnState.serve,
      ConnState.admitted, answered]
  have refused : (ClientState.midway [] [call] [] .recvLength).resume
      (u32Bytes (frameLength response)) =
      { todo := [], phase := .sendLength, replies := [none]
        returned := [call.returns none] } := by
    simp only [ClientState.resume, ClientState.midway, u32OfBytes_u32Bytes,
      if_pos tooLong]
    rfl
  have connected : Link.Reaches matrixClient (matrixServeConnAuth config)
      (Link.start (ClientState.connected [call])
        (ConnState.admitted engine principal))
      (ClientState.connected [call])
      (ConnState.admitted engine principal) :=
    Link.reaches_start _ _
  have announced := connected.toRight (four (frameLength call.wire)) rfl
    (congrArg Demand.recv (length_u32Bytes _).symm)
  rw [wanted] at announced
  have asked := announced.toRight some
    (congrArg Demand.send whole) (congrArg Demand.recv length)
  rw [served] at asked
  have replied := asked.toLeft (four (frameLength response)) rfl
    (congrArg Demand.recv (length_u32Bytes _).symm)
  obtain ⟨count, _, _, _, _, run⟩ := replied
  refine ⟨count, _, run, ?_⟩
  exact congrArg ClientState.replies refused

/-- The server answers the query, and the call reports a transport failure. -/
theorem wide_query_fails :
    ∃ engine : CPUMockEngine ℚ, engine.Live Analytics.noNumber ∧
      (∃ exchanges final, engine.serveAll openServer 7
        ([ClientCall.query wideQuery].map ClientCall.wire).zipIdx =
          some (exchanges, final)) ∧
      ∃ count link, Dialogue openServer engine 7 [.query wideQuery] count
          link ∧
        link.left.state.replies = [none] := by
  obtain ⟨analytics, live, passes⟩ := exists_oneRow
  let engine : CPUMockEngine ℚ :=
    { catalog := analytics.catalog, points := World.initial .SYNC_OFF }
  have answers : engine.AnswersGroups .permissive 7
      (ClientCall.query wideQuery).wire 33554431 :=
    ⟨_, deserialize_wire _, rfl, rfl, rfl, passes⟩
  obtain ⟨resp, after, served, words⟩ : ∃ resp after,
      engine.matrixServe true .permissive 7
        (ClientCall.query wideQuery).wire 0 =
          some (matrixSerializeResponse resp, after) ∧ _ :=
    matrixServe_groups live.settled.wellFormed answers
  have size : (matrixSerializeResponse resp).length = 268435460 := by
    rw [length_serializeResponse, words]
    rfl
  have tooLong : frameLength (matrixSerializeResponse resp) > maxFrame := by
    rw [frameLength, size]
    decide
  refine ⟨engine, ⟨analytics, live, rfl⟩,
    ⟨[(((ClientCall.query wideQuery).wire, 0),
      matrixSerializeResponse resp)], after, ?_⟩,
    oversized_response served tooLong⟩
  simp [CPUMockEngine.serveAll, CPUMockEngine.serveInTurn, openServer, served]

end MatrixDB
