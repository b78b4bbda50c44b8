import MatrixDB.Server.Daemon

/-!
# All connections in one order (`server_tcp.hpp`)

Whatever the threads of the accept loops do, the calls that have been decided
so far are the calls of one client after another.  In that order each peer's
requests stand as it sent them, and each peer is sent its responses in it.
-/

namespace MatrixDB

open Lib Catalog

variable {ι κ : Type}

/-! ## The requests of a peer -/

/-- The requests of a stream, numbered from `served` on. -/
def incomingFrom (c : ι) (principal : UInt64) (served : Nat)
    (stream : Bytes) : List (Incoming ι) :=
  ((requestFrames stream).zipIdx served).map fun (request, number) =>
    ⟨c, number, ⟨principal, request⟩⟩

/-- What a peer asks for: nothing if it is not let in. -/
def DaemonConfig.incoming (config : DaemonConfig) (c : ι) (stream : Bytes) :
    List (Incoming ι) :=
  match config.letIn stream with
  | none => []
  | some (principal, rest) => incomingFrom c principal 0 rest

theorem incomingFrom_read {c : ι} {principal : UInt64} {served : Nat}
    {stream request more : Bytes}
    (read : readFrame stream = some (request, more)) :
    incomingFrom c principal served stream =
      ⟨c, served, ⟨principal, request⟩⟩ ::
        incomingFrom c principal (served + 1) more := by
  rw [incomingFrom, requestFrames_of_some read]
  rfl

theorem incoming_admitted {config : DaemonConfig} {c : ι} {stream rest : Bytes}
    {principal : UInt64} (known : config.letIn stream = some (principal, rest)) :
    config.incoming c stream = incomingFrom c principal 0 rest := by
  rw [DaemonConfig.incoming, known]

section
variable [DecidableEq ι]

/-- The calls of one connection. -/
def saidBy (c : ι) (order : List (Incoming ι × Bytes)) :
    List (Incoming ι × Bytes) :=
  order.filter fun said => said.1.connection = c

theorem saidBy_append (c : ι) (earlier later : List (Incoming ι × Bytes)) :
    saidBy c (earlier ++ later) = saidBy c earlier ++ saidBy c later :=
  List.filter_append ..

theorem saidBy_own (id : Incoming ι) (response : Bytes) :
    saidBy id.connection [(id, response)] = [(id, response)] := by
  simp [saidBy]

theorem saidBy_other {c : ι} {id : Incoming ι} (other : id.connection ≠ c)
    (response : Bytes) : saidBy c [(id, response)] = [] := by
  simp [saidBy, other]

end

/-! ## A thread and its calls -/

section
variable {S : Type}

/-- Not being served. -/
def Resting (phase : Phase S Bytes) : Prop :=
  phase = .idle ∨ ∃ response, phase = .returned response

/-- A section ends with its call still being served. -/
theorem LockStep_inside [DecidableEq ι]
    {server : LockedServer (Incoming ι) S Bytes}
    {system next : LockState (Incoming ι) S Bytes}
    {event : LockEvent (Incoming ι) Bytes} (inside : event.IsInside)
    (step : LockStep server system event next) :
    ¬Resting (system.phase event.caller) ∧
      ¬Resting (next.phase event.caller) := by
  cases step with
  | invoke | returnShared | returnExclusive => exact inside.elim
  | acquireShared before | acquireExclusive before | look before | read before
  | scribble before | finish before | disturbed before | escalate before =>
      simp [Resting, LockEvent.caller, before, LockState.move, LockState.put]

/-- How far a thread is, what it has sent, and what has been decided for its
connection. -/
inductive Follows (config : DaemonConfig) (c : ι) (stream : Bytes)
    (phase : Incoming ι → Phase S Bytes) :
    List (Incoming ι × Bytes) → Connection → Prop where
  | authenticating
      (idle : ∀ id : Incoming ι, id.connection = c → phase id = .idle) :
      Follows config c stream phase [] ⟨.authenticating, stream, []⟩
  | reading {principal : UInt64} {said : List (Incoming ι × Bytes)}
      {unread : Bytes}
      (rests : ∀ id : Incoming ι, id.connection = c → Resting (phase id))
      (all : config.incoming c stream =
        said.map Prod.fst ++ incomingFrom c principal said.length unread) :
      Follows config c stream phase said
        ⟨.reading principal said.length, unread, frames (said.map Prod.snd)⟩
  | serving {call : Call} {done : List (Incoming ι × Bytes)} {unread : Bytes}
      (rests : ∀ id : Incoming ι, id.connection = c →
        id ≠ ⟨c, done.length, call⟩ → Resting (phase id))
      (all : config.incoming c stream = done.map Prod.fst ++
        ⟨c, done.length, call⟩ ::
          incomingFrom c call.principal (done.length + 1) unread)
      (served : ¬Resting (phase ⟨c, done.length, call⟩)) :
      Follows config c stream phase
        (done ++ ((phase ⟨c, done.length, call⟩).result.map
          fun response => (⟨c, done.length, call⟩, response)).toList)
        ⟨.serving done.length call, unread, frames (done.map Prod.snd)⟩
  | sending {call : Call} {done : List (Incoming ι × Bytes)}
      {unread response : Bytes}
      (rests : ∀ id : Incoming ι, id.connection = c → Resting (phase id))
      (returned : phase ⟨c, done.length, call⟩ = .returned response)
      (all : config.incoming c stream = done.map Prod.fst ++
        ⟨c, done.length, call⟩ ::
          incomingFrom c call.principal (done.length + 1) unread) :
      Follows config c stream phase
        (done ++ [(⟨c, done.length, call⟩, response)])
        ⟨.sending done.length call response, unread,
          frames (done.map Prod.snd)⟩
  | closed {said : List (Incoming ι × Bytes)} {unread sent : Bytes}
      (rests : ∀ id : Incoming ι, id.connection = c → Resting (phase id))
      (part : said.map Prod.fst <+: config.incoming c stream)
      (cut : sent <+: frames (said.map Prod.snd)) :
      Follows config c stream phase said ⟨.closed, unread, sent⟩

variable {config : DaemonConfig} {c : ι} {stream : Bytes}
  {phase other : Incoming ι → Phase S Bytes}
  {said : List (Incoming ι × Bytes)} {conn : Connection}

/-- Only the calls of the connection matter. -/
theorem Follows.congr (follows : Follows config c stream phase said conn)
    (same : ∀ id : Incoming ι, id.connection = c → other id = phase id) :
    Follows config c stream other said conn := by
  cases follows with
  | authenticating idle =>
      exact .authenticating fun id own => (same id own).trans (idle id own)
  | reading rests all =>
      refine .reading (fun id own => ?_) all
      rw [same id own]
      exact rests id own
  | serving rests all served =>
      rw [← same _ rfl] at served ⊢
      refine .serving (fun id own different => ?_) all served
      rw [same id own]
      exact rests id own different
  | sending rests returned all =>
      refine .sending (fun id own => ?_) ((same _ rfl).trans returned) all
      rw [same id own]
      exact rests id own
  | closed rests part cut =>
      refine .closed (fun id own => ?_) part cut
      rw [same id own]
      exact rests id own

/-- What has been decided are the first requests of the peer. -/
theorem Follows.part (follows : Follows config c stream phase said conn) :
    said.map Prod.fst <+: config.incoming c stream := by
  cases follows with
  | authenticating => exact List.nil_prefix
  | reading _ all =>
      rw [all]
      exact List.prefix_append ..
  | @serving call done unread _ all =>
      rw [all, List.map_append]
      apply (List.prefix_append_right_inj _).mpr
      cases (phase ⟨c, done.length, call⟩).result with
      | none => exact List.nil_prefix
      | some response => exact ⟨_, rfl⟩
  | sending _ _ all =>
      rw [all, List.map_append]
      apply (List.prefix_append_right_inj _).mpr
      exact ⟨_, rfl⟩
  | closed _ part => exact part

/-- What has been sent are the first responses, the last one perhaps cut. -/
theorem Follows.cut (follows : Follows config c stream phase said conn) :
    conn.sent <+: frames (said.map Prod.snd) := by
  cases follows with
  | authenticating => exact List.nil_prefix
  | reading => exact List.prefix_rfl
  | serving =>
      rw [List.map_append, frames_append]
      exact List.prefix_append ..
  | sending =>
      rw [List.map_append, frames_append]
      exact List.prefix_append ..
  | closed _ _ cut => exact cut

/-- A thread that waits for a request has sent everything. -/
theorem Follows.whole (follows : Follows config c stream phase said conn)
    {principal : UInt64} {served : Nat}
    (waits : conn.thread = .reading principal served) :
    conn.sent = frames (said.map Prod.snd) ∧ served = said.length := by
  cases follows with
  | reading =>
      cases waits
      exact ⟨rfl, rfl⟩
  | authenticating | serving | sending | closed => cases waits

/-- A thread that receives has no call with the server. -/
theorem Follows.rests (follows : Follows config c stream phase said conn)
    (between : ∀ served call, conn.thread ≠ .serving served call)
    {id : Incoming ι} (own : id.connection = c) : Resting (phase id) := by
  cases follows with
  | authenticating idle => exact .inl (idle id own)
  | reading rests | sending rests | closed rests => exact rests id own
  | serving => exact absurd rfl (between _ _)

/-- Whom the server is busy with is being served. -/
theorem Follows.busy (follows : Follows config c stream phase said conn)
    {id : Incoming ι} (own : id.connection = c)
    (busy : ¬Resting (phase id)) :
    conn.thread = .serving id.number id.call := by
  cases follows with
  | authenticating idle => exact absurd (.inl (idle id own)) busy
  | reading rests | sending rests | closed rests =>
      exact absurd (rests id own) busy
  | @serving call done unread rests =>
      by_cases same : id = ⟨c, done.length, call⟩
      · subst same
        rfl
      · exact absurd (rests id own same) busy

/-- A response that is being sent has been returned. -/
theorem Follows.returned {served : Nat} {call : Call}
    {response unread sent : Bytes}
    (follows : Follows config c stream phase said
      ⟨.sending served call response, unread, sent⟩) :
    phase ⟨c, served, call⟩ = .returned response := by
  cases follows with
  | sending _ returned => exact returned

/-! ## One step -/

variable [DecidableEq ι] {server : LockedServer (Incoming ι) S Bytes}
  {system next : LockState (Incoming ι) S Bytes}

/-- A step inside a call, of this connection or of another one. -/
theorem Follows.inside {event : LockEvent (Incoming ι) Bytes}
    (follows : Follows config c stream system.phase said conn)
    (inside : event.IsInside)
    (step : LockStep server system event next) :
    Follows config c stream next.phase
      (said ++ saidBy c event.decides.toList) conn := by
  obtain ⟨busy, still⟩ := LockStep_inside inside step
  have decides := step.decides_cases
  by_cases own : event.caller.connection = c
  · cases follows with
    | authenticating idle => exact absurd (.inl (idle _ own)) busy
    | reading rests | sending rests | closed rests =>
        exact absurd (rests _ own) busy
    | @serving call done unread rests all served =>
        have caller : event.caller = ⟨c, done.length, call⟩ := by
          by_contra different
          exact busy (rests _ own different)
        rw [caller] at still decides
        have others : ∀ id : Incoming ι, id.connection = c →
            id ≠ ⟨c, done.length, call⟩ → Resting (next.phase id) := by
          intro id same different
          rw [step.phase_ne (by rw [caller]; exact different)]
          exact rests id same different
        have after := Follows.serving others all still
        rcases decides with ⟨silent, same⟩ | ⟨response, decided, before, now⟩
        · rw [silent, ← same]
          exact (List.append_nil _).symm ▸ after
        · rw [decided, before]
          rw [now] at after
          have mine := saidBy_own (⟨c, done.length, call⟩ : Incoming ι) response
          simp only [Option.map_none, Option.toList_none, List.append_nil,
            Option.toList_some]
          rw [mine]
          exact after
  · have silent : saidBy c event.decides.toList = [] := by
      rcases decides with ⟨silent, _⟩ | ⟨response, decided, _⟩
      · rw [silent]
        rfl
      · rw [decided]
        exact saidBy_other own response
    rw [silent, List.append_nil]
    apply follows.congr
    intro id same
    apply step.phase_ne
    rintro rfl
    exact own same

/-- A call or a return of another connection. -/
theorem Follows.elsewhere {event : LockEvent (Incoming ι) Bytes}
    (follows : Follows config c stream system.phase said conn)
    (step : LockStep server system event next)
    (other : event.caller.connection ≠ c) :
    Follows config c stream next.phase said conn := by
  apply follows.congr
  intro id own
  apply step.phase_ne
  rintro rfl
  exact other own

theorem LockStep_invoke {id : Incoming ι}
    (step : LockStep server system (.invoke id) next) :
    ∃ exclusive, next.phase id = .waiting exclusive := by
  cases step with
  | invoke idle => exact ⟨_, LockState.put_phase_self⟩

theorem LockStep_return {id : Incoming ι} {response : Bytes}
    (step : LockStep server system (.return id response) next) :
    (system.phase id).result = some response ∧
      next.phase id = .returned response := by
  cases step with
  | returnShared answered | returnExclusive answered =>
      exact ⟨by rw [answered]; rfl, LockState.put_phase_self⟩

theorem Follows.receive {principal : UInt64} {served : Nat}
    {unread request more sent : Bytes}
    (follows : Follows config c stream system.phase said
      ⟨.reading principal served, unread, sent⟩)
    (read : readFrame unread = some (request, more))
    (called : LockStep server system
      (.invoke ⟨c, served, ⟨principal, request⟩⟩) next) :
    Follows config c stream next.phase said
      ⟨.serving served ⟨principal, request⟩, more, sent⟩ := by
  cases follows with
  | reading rests all =>
      rw [incomingFrom_read read] at all
      obtain ⟨exclusive, waits⟩ := LockStep_invoke called
      have busy : ¬Resting
          (next.phase ⟨c, said.length, ⟨principal, request⟩⟩) := by
        rw [waits]
        rintro (never | ⟨_, never⟩) <;> cases never
      have others : ∀ id : Incoming ι, id.connection = c →
          id ≠ ⟨c, said.length, ⟨principal, request⟩⟩ →
          Resting (next.phase id) := by
        intro id own different
        rw [called.phase_ne different]
        exact rests id own
      have after := Follows.serving others all busy
      simp only [waits, Phase.result, Option.map_none, Option.toList_none,
        List.append_nil] at after
      exact after

theorem Follows.answer {served : Nat} {call : Call}
    {unread response sent : Bytes}
    (follows : Follows config c stream system.phase said
      ⟨.serving served call, unread, sent⟩)
    (returned : LockStep server system
      (.return ⟨c, served, call⟩ response) next) :
    Follows config c stream next.phase said
      ⟨.sending served call response, unread, sent⟩ := by
  cases follows with
  | @serving _ done _ rests all =>
      obtain ⟨decided, answered⟩ := LockStep_return returned
      rw [decided]
      apply Follows.sending _ answered all
      intro id own
      by_cases same : id = ⟨c, done.length, call⟩
      · rw [same, answered]
        exact .inr ⟨response, rfl⟩
      · rw [returned.phase_ne same]
        exact rests id own same

omit [DecidableEq ι] in
theorem Follows.send {phase : Incoming ι → Phase S Bytes} {served : Nat}
    {call : Call} {unread response sent : Bytes}
    (follows : Follows config c stream phase said
      ⟨.sending served call response, unread, sent⟩) (extent : Nat) :
    Follows config c stream phase said
      ⟨if (frame response).length ≤ extent then
          .reading call.principal (served + 1)
        else .closed, unread, sent ++ (frame response).take extent⟩ := by
  cases follows with
  | @sending _ done _ _ rests returned all =>
      have whole : frames ((done ++ [((⟨c, done.length, call⟩ : Incoming ι),
          response)]).map Prod.snd) =
          frames (done.map Prod.snd) ++ frame response := by
        rw [List.map_append]
        exact frames_concat _ _
      split
      · rename_i all_sent
        rw [List.take_of_length_le all_sent, ← whole]
        have requests : config.incoming c stream =
            (done ++ [((⟨c, done.length, call⟩ : Incoming ι),
              response)]).map Prod.fst ++
              incomingFrom c call.principal
                (done ++ [((⟨c, done.length, call⟩ : Incoming ι),
                  response)]).length unread := by
          rw [all, List.map_append, List.append_assoc, List.length_append]
          rfl
        have next := Follows.reading rests requests
        rwa [List.length_append] at next
      · refine .closed rests ?_ ?_
        · rw [all, List.map_append]
          exact ⟨_, List.append_assoc ..⟩
        · rw [whole]
          exact (List.prefix_append_right_inj _).mpr (List.take_prefix _ _)

omit [DecidableEq ι] in
theorem Follows.close {phase : Incoming ι → Phase S Bytes}
    {thread : ConnThread} {unread sent : Bytes}
    (follows : Follows config c stream phase said ⟨thread, unread, sent⟩)
    (between : ∀ served call, thread ≠ .serving served call) :
    Follows config c stream phase said ⟨.closed, unread, sent⟩ :=
  .closed (fun _ own => follows.rests between own) follows.part follows.cut

omit [DecidableEq ι] in
theorem Follows.letIn {phase : Incoming ι → Phase S Bytes}
    {unread rest sent : Bytes} {principal : UInt64}
    (follows : Follows config c stream phase said
      ⟨.authenticating, unread, sent⟩)
    (known : config.letIn unread = some (principal, rest)) :
    Follows config c stream phase said
      ⟨.reading principal 0, rest, sent⟩ := by
  cases follows with
  | authenticating idle =>
      exact .reading (fun id own => .inl (idle id own))
        (incoming_admitted known)

end

/-! ## A run -/

section
variable [DecidableEq ι] [SoundCost κ] {config : DaemonConfig}
  {daemon next : Daemon ι κ} {event : DaemonEvent ι}
  {trace : List (DaemonEvent ι)} {streams : ι → Bytes}
  {engine : CPUMockEngine κ}

/-- All threads. -/
def Daemon.Kept (config : DaemonConfig) (streams : ι → Bytes)
    (trace : List (DaemonEvent ι)) (daemon : Daemon ι κ) : Prop :=
  ∀ c, Follows config c (streams c) daemon.lock.phase
    (saidBy c (decisions (lockTrace trace))) (daemon.conn c)

omit [DecidableEq ι] in
theorem lockTrace_append (earlier later : List (DaemonEvent ι)) :
    lockTrace (earlier ++ later) = lockTrace earlier ++ lockTrace later :=
  List.filterMap_append

omit [DecidableEq ι] in
/-- A step that does not concern the shared server. -/
theorem decisions_lockTrace_silent
    (silent : event.lockEvent.bind LockEvent.decides = none) :
    decisions (lockTrace (trace ++ [event])) =
      decisions (lockTrace trace) := by
  rw [lockTrace_append, decisions_append]
  cases seen : event.lockEvent with
  | none => simp [lockTrace, seen, decisions]
  | some shown =>
      rw [seen, Option.bind_some] at silent
      simp [lockTrace, seen, decisions, silent]

omit [SoundCost κ] in
theorem Daemon.Kept.put {lock : LockState (Incoming ι) (CPUMockEngine κ) Bytes}
    {c : ι} {conn : Connection} {said : ι → List (Incoming ι × Bytes)}
    (own : Follows config c (streams c) lock.phase (said c) conn)
    (others : ∀ other, other ≠ c → Follows config other (streams other)
      lock.phase (said other) (daemon.conn other)) :
    ∀ other, Follows config other (streams other)
      ({ daemon with lock := lock }.put c conn).lock.phase (said other)
      (({ daemon with lock := lock }.put c conn).conn other) := by
  intro other
  by_cases same : other = c
  · subst same
    rw [Daemon.put_conn]
    exact own
  · rw [Daemon.put_conn_ne _ conn same]
    exact others other same

theorem Daemon.Kept.step (kept : daemon.Kept config streams trace)
    (step : DaemonStep config daemon event next) :
    next.Kept config streams (trace ++ [event]) := by
  unfold Daemon.Kept at kept ⊢
  cases step with
  | @letIn c stream rest sent principal conn known =>
      rw [decisions_lockTrace_silent rfl]
      have own := kept c
      rw [conn] at own
      exact Daemon.Kept.put (own.letIn known) fun other _ => kept other
  | @refuse c stream sent conn unknown =>
      rw [decisions_lockTrace_silent rfl]
      have own := kept c
      rw [conn] at own
      exact Daemon.Kept.put (own.close nofun) fun other _ => kept other
  | @hangUp c thread stream sent conn receives =>
      rw [decisions_lockTrace_silent rfl]
      have own := kept c
      rw [conn] at own
      refine Daemon.Kept.put (own.close ?_) fun other _ => kept other
      rintro served call rfl
      rcases receives with never | ⟨_, _, never⟩ <;> cases never
  | @receive c principal served stream request more sent lock conn read
      called =>
      rw [decisions_lockTrace_silent rfl]
      have own := kept c
      rw [conn] at own
      exact Daemon.Kept.put (own.receive read called) fun other different =>
        (kept other).elsewhere called different.symm
  | @inside shown lock inside moved =>
      intro c
      have after := (kept c).inside inside moved
      have split : decisions (lockTrace (trace ++ [.inside shown])) =
          decisions (lockTrace trace) ++ shown.decides.toList := by
        rw [lockTrace_append, decisions_append]
        cases decides : shown.decides <;>
          simp [lockTrace, DaemonEvent.lockEvent, decisions, decides]
      rw [split, saidBy_append]
      exact after
  | @answer c served call response more sent lock conn returned =>
      rw [decisions_lockTrace_silent rfl]
      have own := kept c
      rw [conn] at own
      exact Daemon.Kept.put (own.answer returned) fun other different =>
        (kept other).elsewhere returned different.symm
  | @send c served call response more sent conn extent =>
      rw [decisions_lockTrace_silent rfl]
      have own := kept c
      rw [conn] at own
      exact Daemon.Kept.put (own.send extent) fun other _ => kept other

theorem DaemonRun.kept
    (run : DaemonRun config (Daemon.start engine streams) trace daemon) :
    daemon.Kept config streams trace := by
  induction run with
  | done =>
      intro c
      exact .authenticating fun _ _ => rfl
  | step _ step induction => exact induction.step step

/-- The run of the shared server in it. -/
theorem DaemonRun.lockRun
    (run : DaemonRun config (Daemon.start engine streams) trace daemon) :
    LockRun config.server (LockState.start engine) (lockTrace trace)
      daemon.lock := by
  induction run with
  | done => exact .done
  | step _ step induction =>
      rw [lockTrace_append]
      cases step with
      | letIn | refuse | hangUp | send =>
          rw [lockTrace]
          exact (List.append_nil (lockTrace _)).symm ▸ induction
      | receive _ _ called => exact induction.step called
      | inside _ moved => exact induction.step moved
      | answer _ returned => exact induction.step returned

theorem DaemonRun.upTo {first : Daemon ι κ} {earlier later : List (DaemonEvent ι)}
    (run : DaemonRun config first (earlier ++ later) daemon) :
    ∃ middle, DaemonRun config first earlier middle := by
  generalize whole : earlier ++ later = trace at run
  induction run generalizing later with
  | done =>
      obtain ⟨rfl, rfl⟩ := List.append_eq_nil_iff.mp whole
      exact ⟨first, .done⟩
  | @step daemon next trace event run step induction =>
      rcases List.eq_nil_or_concat later with rfl | ⟨front, final, rfl⟩
      · rw [List.append_nil] at whole
        subst whole
        exact ⟨next, run.step step⟩
      · rw [List.concat_eq_append, ← List.append_assoc] at whole
        exact induction (List.append_inj' whole rfl).1

/-- A response that a peer was sent has been returned. -/
theorem DaemonRun.sent_returned
    (run : DaemonRun config (Daemon.start engine streams) trace daemon)
    {id : Incoming ι} {whole : Bool} (sent : .sent id whole ∈ trace) :
    ∃ response, .return id response ∈ lockTrace trace := by
  induction run with
  | done => cases sent
  | @step daemon next trace event before step induction =>
      rw [lockTrace_append]
      rcases List.mem_append.mp sent with old | new
      · obtain ⟨response, returned⟩ := induction old
        exact ⟨response, List.mem_append_left _ returned⟩
      · cases List.mem_singleton.mp new
        cases step with
        | @send c served call response more sent conn extent =>
            have own := before.kept c
            rw [conn] at own
            exact ⟨response, List.mem_append_left _
              (before.lockRun.return_mem own.returned)⟩

/-! ## What is answered -/

/-- A call through `matrix_serve`, with nobody else around.  What is answered
about the counters of the engine is left open. -/
def DaemonConfig.Responds (config : DaemonConfig) (clock : Incoming ι → UInt64)
    (id : Incoming ι) (engine : CPUMockEngine κ) (response : Bytes)
    (after : CPUMockEngine κ) : Prop :=
  (id.call.Covered → engine.matrixServe config.asserts config.policy
    id.call.principal id.call.bytes (clock id) = some (response, after)) ∧
  (¬id.call.Covered → after = engine)

/-- The shared server, free in what it answers about its counters. -/
def DaemonConfig.looseServer (config : DaemonConfig) :
    LockedServer (Incoming ι) (CPUMockEngine κ) Bytes :=
  { config.server with
    Reads := fun id seen state outcome after => ∃ look,
      (id.call.Covered → look = seen) ∧
        config.server.Reads id look state outcome after }

omit [DecidableEq ι] [SoundCost κ] in
theorem SharedOutcome.Ends.same {state after : CPUMockEngine κ}
    {ended : SharedOutcome} {outcome : Option Bytes}
    (ends : ended.Ends state outcome after) :
    state.Alike after ∧
      (state.catalog.WellFormed → SameData state after) := by
  cases ends with
  | answered | escalate =>
      exact ⟨⟨state.catalog.latency, rfl⟩, fun formed => .refl formed⟩
  | served response ns =>
      exact ⟨⟨state.catalog.latency.record ns, rfl⟩, fun formed =>
        .of_keeps formed (keeps_recordQueryLatency formed ns)⟩

omit [DecidableEq ι] in
/-- A request for counters changes nothing. -/
theorem matrixServe_uncovered {asserts : Bool} {policy : AccessPolicy}
    {after : CPUMockEngine κ} {call : Call} (counters : ¬call.Covered)
    {ns : UInt64} {response : Bytes}
    (ran : engine.matrixServe asserts policy call.principal call.bytes ns =
      some (response, after)) : after = engine := by
  unfold Call.Covered at counters
  push Not at counters
  obtain ⟨req, decoded, query, get, put⟩ := counters
  unfold CPUMockEngine.matrixServe CPUMockEngine.serveCore at ran
  simp only [decoded] at ran
  split at ran
  · cases kind : req.kind with
    | QUERY => exact absurd kind query
    | GET => exact absurd kind get
    | PUT => exact absurd kind put
    | HEALTH | STATS =>
        simp only [CPUMockEngine.dispatch, kind, Option.map_some,
          Option.some.injEq, Prod.mk.injEq] at ran
        exact ran.2.symm
  · simp only [Option.map_some, Option.some.injEq, Prod.mk.injEq] at ran
    exact ran.2.symm

variable (config) in
omit [DecidableEq ι] in
theorem looseServer_linearizes (clock : Incoming ι → UInt64) :
    Linearizes (config.looseServer (ι := ι) (κ := κ)) (config.Responds clock)
      SameData CPUMockEngine.Alike where
  trans := by
    rintro first _ _ ⟨_, rfl⟩ ⟨latency, rfl⟩
    exact ⟨latency, rfl⟩
  refl state := ⟨state.catalog.latency, rfl⟩
  keeps := by
    rintro id seen state outcome after ⟨_, _, _, ended, _, ends⟩
    exact ends.same.1
  sees := by
    rintro id looks seen state outcome after assembled alike
      ⟨look, same, mode, ended, ran, ends⟩
    by_cases covered : id.call.Covered
    · cases same covered
      rw [sharedSection_seen (assembled.of_alike alike) covered mode] at ran
      exact ⟨state, fun _ => rfl, mode, ended, ran, ends⟩
    · exact ⟨look, fun here => absurd here covered, mode, ended, ran, ends⟩
  answers := by
    rintro id state response after other ⟨look, seen, mode, ended, ran, ends⟩
      same
    have kept := ends.same.2 same.leftFormed
    by_cases covered : id.call.Covered
    · cases seen covered
      have returned :
          ended = .answered response ∨ ended = .served response := by
        cases ends with
        | answered => exact .inl rfl
        | served => exact .inr rfl
      obtain ⟨middle, serves, data⟩ := sharedSection_serves same.leftFormed
        covered mode 0 ran returned
      obtain ⟨next, again, reached⟩ :=
        matrixServe_same same covered 0 (clock id) serves
      exact ⟨next, ⟨fun _ => again, fun open_ => absurd covered open_⟩,
        kept.symm.trans (data.trans reached)⟩
    · exact ⟨other, ⟨fun here => absurd here covered, fun _ => rfl⟩,
        kept.symm.trans same⟩
  refuses := by
    rintro id state after other ⟨_, _, _, ended, _, ends⟩ same
    exact (ends.same.2 same.leftFormed).symm.trans same
  writes := by
    rintro id state response after other ⟨ns, ran⟩ same
    by_cases covered : id.call.Covered
    · obtain ⟨next, again, reached⟩ :=
        matrixServe_same same covered ns (clock id) ran
      exact ⟨next, ⟨fun _ => again, fun open_ => absurd covered open_⟩,
        reached⟩
    · cases matrixServe_uncovered covered ran
      exact ⟨other, ⟨fun here => absurd here covered, fun _ => rfl⟩, same⟩

end

/-! ## The order -/

/-- The calls that have been decided so far, as the calls of one client after
another; `streams` is what the peers send. -/
structure Daemon.InOneOrder [DecidableEq ι] [SoundCost κ]
    (config : DaemonConfig) (clock : Incoming ι → UInt64)
    (engine : CPUMockEngine κ) (streams : ι → Bytes)
    (trace : List (DaemonEvent ι)) (daemon : Daemon ι κ)
    (order : List (Incoming ι × Bytes)) (final : CPUMockEngine κ) :
    Prop where
  serves : Serves (config.Responds clock) engine order final
  once : (order.map Prod.fst).Nodup
  /-- While a call has the engine for itself, the engine it has found. -/
  data : Synced SameData daemon.lock final
  requests : ∀ c, (saidBy c order).map Prod.fst <+:
    config.incoming c (streams c)
  responses : ∀ c, (daemon.conn c).sent <+:
    frames ((saidBy c order).map Prod.snd)
  whole : ∀ c principal served,
    (daemon.conn c).thread = .reading principal served →
      (daemon.conn c).sent = frames ((saidBy c order).map Prod.snd)
  /-- A request that was read after a response was sent comes after it. -/
  realTime : ∀ before after id whole later, trace = before ++ after →
    .sent id whole ∈ before → .received later ∈ after →
    (order.map Prod.fst).idxOf id < (order.map Prod.fst).idxOf later

/-- The decisions of the shared server are such an order. -/
theorem DaemonRun.inOneOrder [DecidableEq ι] [SoundCost κ]
    {config : DaemonConfig} {engine : CPUMockEngine κ}
    (wellFormed : engine.catalog.WellFormed) {streams : ι → Bytes}
    {trace : List (DaemonEvent ι)} {daemon : Daemon ι κ}
    (run : DaemonRun config (Daemon.start engine streams) trace daemon)
    (clock : Incoming ι → UInt64) :
    ∃ order final,
      daemon.InOneOrder config clock engine streams trace order final := by
  have looser : ∀ (id : Incoming ι) (seen state : CPUMockEngine κ) outcome
      (after : CPUMockEngine κ),
      config.server.Reads id seen state outcome after →
        config.looseServer.Reads id seen state outcome after :=
    fun _ seen _ _ _ ran => ⟨seen, fun _ => rfl, ran⟩
  have loose : LockRun config.looseServer (LockState.start engine)
      (lockTrace trace) daemon.lock :=
    run.lockRun.weaken config.looseServer rfl (fun _ _ saw => saw) looser
      (fun _ _ _ _ ran => ran)
  have linearizes := looseServer_linearizes (κ := κ) config clock
  have ordered := loose.inOrder linearizes (.refl wellFormed)
  obtain ⟨final, serves, synced⟩ := ordered.serves
  have kept := run.kept
  refine ⟨decisions (lockTrace trace), final, ?_⟩
  constructor
  · exact serves
  · exact ordered.once
  · exact synced
  · exact fun c => (kept c).part
  · exact fun c => (kept c).cut
  · exact fun c principal served waits => ((kept c).whole waits).1
  · intro before after id whole later split sent received
    subst split
    obtain ⟨middle, early⟩ := run.upTo
    obtain ⟨response, returned⟩ := early.sent_returned sent
    have invoked : .invoke later ∈ lockTrace after :=
      List.mem_filterMap.mpr ⟨_, received, rfl⟩
    exact loose.realTime linearizes (.refl wellFormed) _ _ id response later
      (lockTrace_append before after) returned invoked

/-- However the threads of the connections interleave and wherever transfers
fail.  A peer that is not let in is sent nothing. -/
theorem DaemonRun.in_one_order [DecidableEq ι] [SoundCost κ]
    {config : DaemonConfig} {engine : CPUMockEngine κ}
    (wellFormed : engine.catalog.WellFormed) {streams : ι → Bytes}
    {trace : List (DaemonEvent ι)} {daemon : Daemon ι κ}
    (run : DaemonRun config (Daemon.start engine streams) trace daemon)
    (clock : Incoming ι → UInt64) :
    ∃ order final,
      daemon.InOneOrder config clock engine streams trace order final ∧
      (∀ c, config.letIn (streams c) = none → (daemon.conn c).sent = []) ∧
      ((∀ id entry left, daemon.lock.phase id ≠ .writing entry left) →
        daemon.lock.state.points = final.points) := by
  obtain ⟨order, final, ordered⟩ := run.inOneOrder wellFormed clock
  refine ⟨order, final, ordered, ?_, ?_⟩
  · intro c unknown
    have requests := ordered.requests c
    have responses := ordered.responses c
    rw [DaemonConfig.incoming, unknown] at requests
    rw [List.map_eq_nil_iff.mp (List.prefix_nil.mp requests)] at responses
    exact List.prefix_nil.mp responses
  · intro free
    exact (ordered.data.quiet free).points.symm

/-- A write of a peer with a token, and a peer with another one. -/
def twoPeers : Bool → Bytes
  | false => lengthPrefixed [1] ++ (lengthPrefixed (writeThenRead false).bytes)
  | true => lengthPrefixed [2]

def oneToken : DaemonConfig :=
  { asserts := true
    policy := .permissive
    auth := some (Authenticator.addCredential { tokens := [] } [1] 7) }

def tokenWrite : Incoming Bool :=
  ⟨false, 0, ⟨7, (writeThenRead false).bytes⟩⟩

/-- The write has the engine for itself. -/
theorem twoPeers_alone :
    ∃ trace daemon, DaemonRun oneToken (Daemon.start emptyShop twoPeers) trace
        daemon ∧
      daemon.conn false = ⟨.serving 0 tokenWrite.call, [], []⟩ ∧
      daemon.lock.phase tokenWrite = .writing emptyShop emptyShop ∧
      daemon.lock.state = emptyShop := by
  let first : Daemon Bool ℚ := Daemon.start emptyShop twoPeers
  have known : oneToken.letIn (twoPeers false) =
      some (7, lengthPrefixed (writeThenRead false).bytes) := by
    decide +kernel
  have read : readFrame (lengthPrefixed (writeThenRead false).bytes) =
      some ((writeThenRead false).bytes, []) := by
    decide +kernel
  have exclusive : lockMode tokenWrite.call.bytes = .exclusive := by
    simp [tokenWrite, writeThenRead, lockMode, deserialize_serialize]
  have begun : DaemonRun oneToken first [] first := .done
  have letIn := begun.step (.letIn rfl known)
  have reading : (first.put false ⟨.reading 7 0,
      lengthPrefixed (writeThenRead false).bytes, []⟩).conn false =
      ⟨.reading 7 0, lengthPrefixed (writeThenRead false).bytes, []⟩ := rfl
  have invoked : LockStep oneToken.server first.lock (.invoke tokenWrite)
      (first.lock.move tokenWrite (.waiting true)) := by
    have step : LockStep oneToken.server first.lock (.invoke tokenWrite)
        (first.lock.move tokenWrite
          (.waiting (!oneToken.server.startsShared tokenWrite))) :=
      .invoke rfl
    have begins : (!(oneToken.server (κ := ℚ)).startsShared tokenWrite) =
        true := by
      simp [DaemonConfig.server, concurrentServer, exclusive]
    rwa [begins] at step
  have called := letIn.step (.receive reading read invoked)
  have waits : (first.lock.move tokenWrite (.waiting true)).phase tokenWrite =
      .waiting true := LockState.put_phase_self
  have free : ∀ id, ((first.lock.move tokenWrite (.waiting true)).phase
      id).holdsExclusive = false ∧ ((first.lock.move tokenWrite
        (.waiting true)).phase id).holdsShared = false := by
    intro id
    by_cases same : id = tokenWrite
    · rw [same, waits]
      exact ⟨rfl, rfl⟩
    · have idle : (first.lock.move tokenWrite (.waiting true)).phase id =
          .idle := Function.update_of_ne same _ _
      rw [idle]
      exact ⟨rfl, rfl⟩
  have inside : (LockEvent.acquire tokenWrite :
      LockEvent (Incoming Bool) Bytes).IsInside := trivial
  have entered := called.step (.inside inside (.acquireExclusive waits free))
  exact ⟨_, _, entered, rfl, LockState.put_phase_self, rfl⟩

/-- The peer with the token has been told that its write is kept. -/
theorem twoPeers_told :
    ∃ trace daemon, DaemonRun oneToken (Daemon.start emptyShop twoPeers) trace
        daemon ∧
      daemon.conn false = ⟨.reading 7 1, [], frame (matrixSerializeResponse
        { status := ServerStatus.OK.code, results := [] })⟩ := by
  obtain ⟨trace, daemon, run, conn, alone, same⟩ := twoPeers_alone
  have returns : ((emptyShop.matrixServe true .permissive 7
      (writeThenRead false).bytes 0).map Prod.fst) =
        some (matrixSerializeResponse
          { status := ServerStatus.OK.code, results := [] }) := by
    decide +kernel
  obtain ⟨⟨response, written⟩, ran, told⟩ := Option.map_eq_some_iff.mp returns
  rw [← told]
  have inside : (LockEvent.finish tokenWrite response).IsInside := trivial
  have wrote : (daemon.lock.put tokenWrite (.wrote response) written).phase
      tokenWrite = .wrote response := LockState.put_phase_self
  have finished := run.step (.inside inside (.finish alone same ⟨0, ran⟩))
  have answered := finished.step (.answer conn (.returnExclusive wrote))
  have sent := answered.step
    (.send (Daemon.put_conn _ _ _) (frame response).length)
  refine ⟨_, _, sent, ?_⟩
  have whole : (Connection.mk
      (if (frame response).length ≤ (frame response).length then
        .reading 7 1 else .closed) []
      ([] ++ (frame response).take (frame response).length)) =
      ⟨.reading 7 1, [], frame response⟩ := by
    rw [if_pos (Nat.le_refl _), List.take_length, List.nil_append]
  exact (Daemon.put_conn _ _ _).trans whole

theorem in_one_order_told :
    ∃ trace daemon, DaemonRun oneToken (Daemon.start emptyShop twoPeers) trace
        daemon ∧
      (daemon.conn true).sent = [] ∧
      ∃ order final, daemon.InOneOrder oneToken (fun _ => 0) emptyShop twoPeers
        trace order final ∧
        frames ((saidBy false order).map Prod.snd) =
          frame (matrixSerializeResponse
            { status := ServerStatus.OK.code, results := [] }) := by
  obtain ⟨trace, daemon, run, conn⟩ := twoPeers_told
  obtain ⟨order, final, ordered, strangers, _⟩ :=
    run.in_one_order (Catalog.wellFormed_fresh 1024) fun _ => 0
  have unknown : oneToken.letIn (twoPeers true) = none := by
    decide +kernel
  have waits : (daemon.conn false).thread = .reading 7 1 := by
    rw [conn]
  refine ⟨trace, daemon, run, strangers true unknown, order, final, ordered,
    ?_⟩
  rw [← ordered.whole false 7 1 waits, conn]

end MatrixDB
