import MatrixDB.Server.Authentication

/-!
# The accept loops (`server_tcp.hpp`)

`matrix_serve_tcp` and `matrix_serve_tcp_auth` give every connection a thread
of its own; the threads share one `ConcurrentServer`.  A thread authenticates
its peer, reads a request, calls `serve`, sends the response, and so on until a
transfer fails.  The sections of the calls of all threads interleave, and a
peer may stop sending or reading after any byte.
-/

namespace MatrixDB

open Lib

/-- What an accept loop is run with; without credentials everybody is let in
as the principal 0. -/
structure DaemonConfig where
  asserts : Bool
  policy : AccessPolicy
  auth : Option Authenticator

/-- `authenticate_conn`, and what follows the token frame. -/
def authenticateConn (auth : Authenticator) (stream : Bytes) :
    Option (UInt64 × Bytes) := do
  let (length, rest) ← readU32 stream
  if length > 4096 then none
  else
    let (token, rest) ← takeBytes length.toNat rest
    let principal ← auth.authenticate token
    some (principal, rest)

/-- As whom a peer is served, and what is left of its bytes. -/
def DaemonConfig.letIn (config : DaemonConfig) (stream : Bytes) :
    Option (UInt64 × Bytes) :=
  match config.auth with
  | none => some (0, stream)
  | some auth => authenticateConn auth stream

variable {ι κ : Type}

/-- A request, whose it is and how many came before it. -/
structure Incoming (ι : Type) where
  connection : ι
  number : Nat
  call : Call
  deriving DecidableEq

/-- How far the thread of a connection is. -/
inductive ConnThread where
  | authenticating
  | reading (principal : UInt64) (served : Nat)
  | serving (served : Nat) (call : Call)
  | sending (served : Nat) (call : Call) (response : Bytes)
  | closed

/-- The thread, the bytes of the peer that it has not read, and what it has
sent. -/
structure Connection where
  thread : ConnThread
  unread : Bytes
  sent : Bytes

/-- The calls of the shared server and the connections. -/
structure Daemon (ι κ : Type) where
  lock : LockState (Incoming ι) (CPUMockEngine κ) Bytes
  conn : ι → Connection

inductive DaemonEvent (ι : Type) where
  | admitted (c : ι)
  | refused (c : ι)
  | hungUp (c : ι)
  | received (id : Incoming ι)
  | inside (event : LockEvent (Incoming ι) Bytes)
  | answered (id : Incoming ι) (response : Bytes)
  | sent (id : Incoming ι) (whole : Bool)

/-- An event inside a call of the server. -/
def Lib.LockEvent.IsInside {R : Type} : LockEvent ι R → Prop
  | .invoke _ => False
  | .return _ _ => False
  | _ => True

/-- What the shared server sees of an event. -/
def DaemonEvent.lockEvent : DaemonEvent ι → Option (LockEvent (Incoming ι) Bytes)
  | .received id => some (.invoke id)
  | .inside event => some event
  | .answered id response => some (.return id response)
  | _ => none

def lockTrace (trace : List (DaemonEvent ι)) :
    List (LockEvent (Incoming ι) Bytes) :=
  trace.filterMap DaemonEvent.lockEvent

section
variable [DecidableEq ι] [SoundCost κ]

namespace Daemon

/-- Connections that will be accepted; `streams` is what their peers send. -/
def start (engine : CPUMockEngine κ) (streams : ι → Bytes) : Daemon ι κ where
  lock := .start engine
  conn c := { thread := .authenticating, unread := streams c, sent := [] }

def put (daemon : Daemon ι κ) (c : ι) (conn : Connection) : Daemon ι κ :=
  { daemon with conn := Function.update daemon.conn c conn }

omit [SoundCost κ] in
@[simp]
theorem put_conn (daemon : Daemon ι κ) (c : ι) (conn : Connection) :
    (daemon.put c conn).conn c = conn :=
  Function.update_self ..

omit [SoundCost κ] in
theorem put_conn_ne (daemon : Daemon ι κ) {c other : ι} (conn : Connection)
    (different : other ≠ c) :
    (daemon.put c conn).conn other = daemon.conn other :=
  Function.update_of_ne different ..

end Daemon

/-- The `ConcurrentServer` of the threads. -/
def DaemonConfig.server (config : DaemonConfig) :
    LockedServer (Incoming ι) (CPUMockEngine κ) Bytes :=
  concurrentServer config.asserts config.policy Incoming.call

/-- One step of one thread; a transfer may always fail. -/
inductive DaemonStep (config : DaemonConfig) :
    Daemon ι κ → DaemonEvent ι → Daemon ι κ → Prop where
  | letIn {daemon : Daemon ι κ} {c : ι} {stream rest sent : Bytes}
      {principal : UInt64}
      (conn : daemon.conn c = ⟨.authenticating, stream, sent⟩)
      (known : config.letIn stream = some (principal, rest)) :
      DaemonStep config daemon (.admitted c)
        (daemon.put c ⟨.reading principal 0, rest, sent⟩)
  | refuse {daemon : Daemon ι κ} {c : ι} {stream sent : Bytes}
      (conn : daemon.conn c = ⟨.authenticating, stream, sent⟩)
      (unknown : config.letIn stream = none) :
      DaemonStep config daemon (.refused c)
        (daemon.put c ⟨.closed, stream, sent⟩)
  | hangUp {daemon : Daemon ι κ} {c : ι} {thread : ConnThread}
      {stream sent : Bytes} (conn : daemon.conn c = ⟨thread, stream, sent⟩)
      (receives : thread = .authenticating ∨
        ∃ principal served, thread = .reading principal served) :
      DaemonStep config daemon (.hungUp c)
        (daemon.put c ⟨.closed, stream, sent⟩)
  | receive {daemon : Daemon ι κ} {c : ι} {principal : UInt64} {served : Nat}
      {stream request more sent : Bytes}
      {lock : LockState (Incoming ι) (CPUMockEngine κ) Bytes}
      (conn : daemon.conn c = ⟨.reading principal served, stream, sent⟩)
      (read : readFrame stream = some (request, more))
      (called : LockStep config.server daemon.lock
        (.invoke ⟨c, served, ⟨principal, request⟩⟩) lock) :
      DaemonStep config daemon (.received ⟨c, served, ⟨principal, request⟩⟩)
        ({ daemon with lock := lock }.put c
          ⟨.serving served ⟨principal, request⟩, more, sent⟩)
  | inside {daemon : Daemon ι κ} {event : LockEvent (Incoming ι) Bytes}
      {lock : LockState (Incoming ι) (CPUMockEngine κ) Bytes}
      (inside : event.IsInside)
      (moved : LockStep config.server daemon.lock event lock) :
      DaemonStep config daemon (.inside event) { daemon with lock := lock }
  | answer {daemon : Daemon ι κ} {c : ι} {served : Nat} {call : Call}
      {response more sent : Bytes}
      {lock : LockState (Incoming ι) (CPUMockEngine κ) Bytes}
      (conn : daemon.conn c = ⟨.serving served call, more, sent⟩)
      (returned : LockStep config.server daemon.lock
        (.return ⟨c, served, call⟩ response) lock) :
      DaemonStep config daemon (.answered ⟨c, served, call⟩ response)
        ({ daemon with lock := lock }.put c
          ⟨.sending served call response, more, sent⟩)
  | send {daemon : Daemon ι κ} {c : ι} {served : Nat} {call : Call}
      {response more sent : Bytes}
      (conn : daemon.conn c = ⟨.sending served call response, more, sent⟩)
      (extent : Nat) :
      DaemonStep config daemon
        (.sent ⟨c, served, call⟩ (decide ((frame response).length ≤ extent)))
        (daemon.put c
          ⟨if (frame response).length ≤ extent then
              .reading call.principal (served + 1)
            else .closed, more, sent ++ (frame response).take extent⟩)

/-- Any interleaving of the threads. -/
inductive DaemonRun (config : DaemonConfig) (first : Daemon ι κ) :
    List (DaemonEvent ι) → Daemon ι κ → Prop where
  | done : DaemonRun config first [] first
  | step {daemon next : Daemon ι κ} {trace : List (DaemonEvent ι)}
      {event : DaemonEvent ι} (before : DaemonRun config first trace daemon)
      (step : DaemonStep config daemon event next) :
      DaemonRun config first (trace ++ [event]) next

end

end MatrixDB
