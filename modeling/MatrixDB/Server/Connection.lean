import MatrixDB.Server.Responses
import MatrixDB.Server.Codec
import MatrixDB.Lib.StreamLink

/-!
# One connection (`server_tcp.hpp`)

Everything on a connection travels in frames, a length and so many bytes.  The
server reads a token frame and, if the token is known, serves the request frames
that follow one after another.
-/

namespace MatrixDB

open Lib CostArith

/-! ## Frames -/

/-- `1u << 28`. -/
def maxFrame : UInt32 := (1 : UInt32) <<< 28

/-- `static_cast<uint32_t>(size)`. -/
def frameLength (body : Bytes) : UInt32 := UInt32.ofNat body.length

/-- What both `send_all` of a frame put on the wire: as many bytes as the length
says, which is not all of them if it has wrapped. -/
def frame (body : Bytes) : Bytes :=
  u32Bytes (frameLength body) ++ body.take (frameLength body).toNat

/-- A length and the whole body. -/
def lengthPrefixed (body : Bytes) : Bytes :=
  u32Bytes (frameLength body) ++ body

theorem toNat_frameLength {body : Bytes} (fits : body.length < 2 ^ 32) :
    (frameLength body).toNat = body.length :=
  UInt32.toNat_ofNat_of_lt' fits

theorem toNat_frameLength_le (body : Bytes) :
    (frameLength body).toNat ≤ body.length := by
  rw [frameLength, UInt32.toNat_ofNat']
  exact Nat.mod_le _ _

theorem frame_eq {body : Bytes} (fits : body.length < 2 ^ 32) :
    frame body = lengthPrefixed body := by
  rw [frame, lengthPrefixed, toNat_frameLength fits, List.take_length]

theorem frameLength_of_length {body : Bytes} {length : UInt32}
    (all : body.length = length.toNat) : frameLength body = length := by
  rw [frameLength, all, UInt32.ofNat_toNat]

/-- The frames of several bodies. -/
def frames (bodies : List Bytes) : Bytes := bodies.flatMap frame

theorem frames_append (before later : List Bytes) :
    frames (before ++ later) = frames before ++ frames later :=
  List.flatMap_append

theorem frames_concat (before : List Bytes) (body : Bytes) :
    frames (before ++ [body]) = frames before ++ frame body := by
  rw [frames_append]
  exact congrArg _ (List.flatMap_singleton frame body)

theorem frames_cons (body : Bytes) (later : List Bytes) :
    frames (body :: later) = frame body ++ frames later :=
  List.flatMap_cons

/-! ## Credentials (`Authenticator`) -/

/-- The credentials, in the order they were added. -/
structure Authenticator where
  tokens : List (Bytes × UInt64)

namespace Authenticator

def addCredential (auth : Authenticator) (token : Bytes)
    (principal : UInt64) : Authenticator :=
  { tokens := auth.tokens ++ [(token, principal)] }

/-- All differences of two tokens of one length. -/
def difference (a b : Bytes) : UInt8 :=
  (a.zip b).foldl (fun diff pair => diff ||| (pair.1 ^^^ pair.2)) 0

def timingSafeEqual (a b : Bytes) : Bool :=
  if a.length ≠ b.length then false else difference a b == 0

/-- The principal of the last credential that matches. -/
def authenticate (auth : Authenticator) (token : Bytes) : Option UInt64 :=
  if token.isEmpty then none
  else auth.tokens.foldl (fun matched entry =>
    if timingSafeEqual token entry.1 then some entry.2 else matched) none

theorem foldl_difference (a b : Bytes) (diff : UInt8)
    (length : a.length = b.length) :
    (a.zip b).foldl (fun diff pair => diff ||| (pair.1 ^^^ pair.2)) diff = 0 ↔
      diff = 0 ∧ a = b := by
  induction a generalizing b diff with
  | nil =>
      have empty : b = [] := List.length_eq_zero_iff.mp length.symm
      simp [empty]
  | cons first later induction =>
      cases b with
      | nil => cases length
      | cons other rest =>
          rw [List.zip_cons_cons, List.foldl_cons,
            induction rest _ (Nat.succ.inj length), UInt8.or_eq_zero_iff,
            UInt8.xor_eq_zero_iff, List.cons.injEq, and_assoc]

theorem timingSafeEqual_iff (a b : Bytes) :
    timingSafeEqual a b = true ↔ a = b := by
  unfold timingSafeEqual
  split
  · rename_i different
    constructor
    · intro never
      cases never
    · intro same
      exact absurd (congrArg List.length same) different
  · rename_i length
    rw [beq_iff_eq, difference, foldl_difference a b 0 (not_not.mp length)]
    exact and_iff_right rfl

/-- Credentials for other tokens do not matter. -/
theorem foldl_others (token : Bytes) (entries : List (Bytes × UInt64))
    (matched : Option UInt64) (others : token ∉ entries.map Prod.fst) :
    entries.foldl (fun matched entry =>
      if timingSafeEqual token entry.1 then some entry.2 else matched)
      matched = matched := by
  induction entries with
  | nil => rfl
  | cons entry later induction =>
      rw [List.map_cons, List.mem_cons, not_or] at others
      have skipped : ¬ timingSafeEqual token entry.1 = true := by
        rw [timingSafeEqual_iff]
        exact others.1
      rw [List.foldl_cons, if_neg skipped]
      exact induction others.2

theorem authenticate_unknown (auth : Authenticator) {token : Bytes}
    (unknown : token ∉ auth.tokens.map Prod.fst) :
    auth.authenticate token = none := by
  unfold authenticate
  split
  · rfl
  · exact foldl_others token auth.tokens none unknown

theorem authenticate_last {auth : Authenticator} {token : Bytes}
    {principal : UInt64} {earlier later : List (Bytes × UInt64)}
    (some : token ≠ [])
    (added : auth.tokens = earlier ++ (token, principal) :: later)
    (last : token ∉ later.map Prod.fst) :
    auth.authenticate token = .some principal := by
  have matching : timingSafeEqual token token = true :=
    (timingSafeEqual_iff token token).mpr rfl
  unfold authenticate
  rw [if_neg (mt List.isEmpty_iff.mp some), added, List.foldl_append,
    List.foldl_cons, if_pos matching]
  exact foldl_others token later (.some principal) last

end Authenticator

/-! ## The server's end -/

/-- What a server is run with; the clock says how long the `n`-th query of the
connection takes. -/
structure ServeConfig where
  asserts : Bool
  policy : AccessPolicy
  auth : Authenticator
  clock : Nat → UInt64

/-- Where the server is; a send or a receive of one field each. -/
inductive ConnPhase where
  | tokenLength
  | token (length : UInt32)
  | requestLength
  | request (length : UInt32)
  | responseLength (response : Bytes)
  | response (response : Bytes)
  | returned (ok : Bool)
  | aborted

structure ConnState (κ : Type) where
  engine : CPUMockEngine κ
  principal : UInt64
  served : Nat
  phase : ConnPhase

def ConnPhase.demand : ConnPhase → Demand UInt8
  | .tokenLength => .recv 4
  | .token length => .recv length.toNat
  | .requestLength => .recv 4
  | .request length => .recv length.toNat
  | .responseLength resp => .send (u32Bytes (frameLength resp))
  | .response resp => .send (resp.take (frameLength resp).toNat)
  | .returned _ => .stop
  | .aborted => .stop

/-- A transfer fails: before the credentials are checked the server gives up,
and afterwards its loop ends. -/
def ConnPhase.fail : ConnPhase → ConnPhase
  | .tokenLength => .returned false
  | .token _ => .returned false
  | _ => .returned true

/-- A failed transfer is the last. -/
theorem demand_fail (phase : ConnPhase) : phase.fail.demand = .stop := by
  cases phase <;> rfl

variable {κ : Type}

section
variable [CostArith κ]

/-- One `matrix_serve`, and its response to be sent. -/
def ConnState.serve (config : ServeConfig) (state : ConnState κ)
    (request : Bytes) : ConnState κ :=
  match state.engine.matrixServe config.asserts config.policy state.principal
      request (config.clock state.served) with
  | none => { state with phase := .aborted }
  | some (response, engine) =>
      { state with
        engine := engine
        served := state.served + 1
        phase := .responseLength response }

/-- The server goes on with the bytes it has received. -/
def ConnState.resume (config : ServeConfig) (state : ConnState κ)
    (got : Bytes) : ConnState κ :=
  match state.phase with
  | .tokenLength =>
      if u32OfBytes got > 4096 then { state with phase := .returned false }
      else { state with phase := .token (u32OfBytes got) }
  | .token _ =>
      match config.auth.authenticate got with
      | none => { state with phase := .returned false }
      | some principal =>
          { state with principal := principal, phase := .requestLength }
  | .requestLength =>
      if u32OfBytes got > maxFrame then { state with phase := .returned true }
      else { state with phase := .request (u32OfBytes got) }
  | .request _ => state.serve config got
  | .responseLength response => { state with phase := .response response }
  | .response _ => { state with phase := .requestLength }
  | .returned _ => state
  | .aborted => state

/-- `matrix_serve_conn_auth`; from `requestLength` on, the loop over
`matrix_serve_conn`. -/
def matrixServeConnAuth (config : ServeConfig) :
    Party UInt8 (ConnState κ) where
  demand state := state.phase.demand
  resume state got := state.resume config got
  fail state := { state with phase := state.phase.fail }

/-- Before the token frame. -/
def ConnState.accepted (engine : CPUMockEngine κ) : ConnState κ :=
  { engine := engine, principal := 0, served := 0, phase := .tokenLength }

/-- After the token frame. -/
def ConnState.admitted (engine : CPUMockEngine κ) (principal : UInt64) :
    ConnState κ :=
  { engine := engine, principal := principal, served := 0
    phase := .requestLength }

/-- Only a token, a request or a response can be empty, and what follows is
not. -/
theorem matrixServeConnAuth_alternates (config : ServeConfig) :
    (matrixServeConnAuth config : Party UInt8 (ConnState κ)).Alternates := by
  intro state weightless
  obtain ⟨engine, principal, served, phase⟩ := state
  cases phase with
  | tokenLength => cases weightless
  | requestLength => cases weightless
  | returned ok => cases weightless
  | aborted => cases weightless
  | responseLength resp =>
      have some : u32Bytes (frameLength resp) ≠ [] := by
        rw [← List.length_pos_iff, length_u32Bytes]
        decide
      have weight := Demand.weight_send some
      exact absurd (weight.symm.trans weightless) Nat.one_ne_zero
  | token length =>
      have refused : config.auth.authenticate [] = none := rfl
      simp only [matrixServeConnAuth, ConnState.resume, refused]
      exact Nat.zero_lt_two
  | request length =>
      simp only [matrixServeConnAuth, ConnState.resume, ConnState.serve]
      split
      · exact Nat.zero_lt_two
      · rename_i resp next answered
        have some : u32Bytes (frameLength resp) ≠ [] := by
          rw [← List.length_pos_iff, length_u32Bytes]
          decide
        exact Nat.lt_of_lt_of_eq Nat.zero_lt_one
          (Demand.weight_send some).symm
  | response resp => exact Nat.zero_lt_one

end

/-! ## Frames on the wire -/

/-- Bytes that end before their first frame does. -/
def Unfinished (bytes : Bytes) : Prop :=
  ∀ body more, bytes ≠ frame body ++ more

theorem unfinished_of_short {bytes : Bytes} (short : bytes.length < 4) :
    Unfinished bytes := by
  intro body more same
  rw [same, frame, List.length_append, List.length_append,
    length_u32Bytes] at short
  omega

/-- Two streams that begin with a length. -/
theorem u32Bytes_append_inj {left right : UInt32} {bytes rest : Bytes}
    (same : u32Bytes left ++ bytes = u32Bytes right ++ rest) :
    left = right ∧ bytes = rest := by
  have read := congrArg readU32 same
  rw [readU32_u32Bytes, readU32_u32Bytes, Option.some.injEq,
    Prod.mk.injEq] at read
  exact read

theorem unfinished_body {length : UInt32} {bytes : Bytes}
    (short : bytes.length < length.toNat) :
    Unfinished (u32Bytes length ++ bytes) := by
  intro body more same
  rw [frame, List.append_assoc] at same
  obtain ⟨rfl, rest⟩ := u32Bytes_append_inj same
  have enough := toNat_frameLength_le body
  rw [rest, List.length_append, List.length_take,
    Nat.min_eq_left enough] at short
  omega

/-- A length that has been received is that of the first frame. -/
theorem u32OfBytes_of_heard {body got rest : Bytes} (all : got.length = 4)
    (heard : got <+: frame body ++ rest) :
    u32OfBytes got = frameLength body := by
  obtain ⟨more, same⟩ := heard
  rw [frame, List.append_assoc, ← u32Bytes_u32OfBytes all] at same
  exact (u32Bytes_append_inj same).1

/-- A frame that has been received whole is the first frame. -/
theorem body_of_heard {length : UInt32} {body got rest : Bytes}
    (all : got.length = length.toNat)
    (heard : u32Bytes length ++ got <+: frame body ++ rest) :
    length = frameLength body ∧ got = body.take (frameLength body).toNat := by
  obtain ⟨more, same⟩ := heard
  rw [frame, List.append_assoc, List.append_assoc] at same
  obtain ⟨rfl, tails⟩ := u32Bytes_append_inj same
  refine ⟨rfl, (List.append_inj tails ?_).1⟩
  rw [all, List.length_take, Nat.min_eq_left (toNat_frameLength_le body)]

/-- An unfinished rest means that no frame is left. -/
theorem frames_eq_nil {bodies : List Bytes} {rest tail : Bytes}
    (unfinished : Unfinished rest) (same : rest = frames bodies ++ tail) :
    bodies = [] := by
  cases bodies with
  | nil => rfl
  | cons body later =>
      rw [frames_cons, List.append_assoc] at same
      exact absurd same (unfinished body _)

/-! ## The script of a connection -/

/-- A request with its number, and the response to it. -/
abbrev Exchange := (Bytes × Nat) × Bytes

def requestsOf (exchanges : List Exchange) : List Bytes :=
  exchanges.map fun exchange => exchange.1.1

def responsesOf (exchanges : List Exchange) : List Bytes :=
  exchanges.map Prod.snd

/-- The number of a request is its place. -/
theorem numbered_of_zipIdx {requests : List Bytes} {exchanges : List Exchange}
    {more : List (Bytes × Nat)}
    (order : requests.zipIdx = exchanges.map Prod.fst ++ more)
    {before later : List Exchange} {exchange : Exchange}
    (split : exchanges = before ++ exchange :: later) :
    exchange.1.2 = before.length := by
  have place := congrArg (fun list => list[before.length]?) order
  have inside : before.length < (exchanges.map Prod.fst).length := by
    rw [List.length_map, split, List.length_append, List.length_cons]
    omega
  rw [List.getElem?_append_left inside, List.getElem?_zipIdx, split] at place
  simp only [List.map_append, List.map_cons, List.getElem?_append_right,
    List.length_map, Nat.le_refl, Nat.sub_self, List.getElem?_cons_zero,
    Nat.zero_add] at place
  obtain ⟨request, _, same⟩ := Option.map_eq_some_iff.mp place
  rw [← same]

section
variable [SoundCost κ]

/-- The requests of one principal in turn. -/
def CPUMockEngine.serveAll (engine : CPUMockEngine κ) (config : ServeConfig)
    (principal : UInt64) (requests : List (Bytes × Nat)) :
    Option (List Exchange × CPUMockEngine κ) :=
  engine.serveInTurn config.asserts config.policy
    (fun request : Bytes × Nat =>
      { principal := principal, bytes := request.1 })
    (fun request => config.clock request.2) requests

/-- What is to happen on a connection: a token frame has to be taken, then come
so many exchanges, and then a rest of which no frame is answered. -/
structure Script (κ : Type) [SoundCost κ] (config : ServeConfig) where
  first : CPUMockEngine κ
  opening : Bytes
  principal : UInt64
  exchanges : List Exchange
  final : CPUMockEngine κ
  tail : Bytes
  served : first.serveAll config principal (exchanges.map Prod.fst) =
    some (exchanges, final)
  numbered : ∀ before exchange later,
    exchanges = before ++ exchange :: later →
      exchange.1.2 = before.length
  fits : ∀ exchange ∈ exchanges, exchange.1.1.length ≤ maxFrame.toNat
  ends : ∀ length request more, tail = u32Bytes length ++ request ++ more →
    length ≤ maxFrame → request.length = length.toNat →
    final.matrixServe config.asserts config.policy principal request
      (config.clock exchanges.length) = none

namespace Script

variable {config : ServeConfig} (script : Script κ config)

/-- What the server is to receive. -/
def heard : Bytes :=
  script.opening ++ (frames (requestsOf script.exchanges) ++ script.tail)

/-- What the server is to send. -/
def told : Bytes := frames (responsesOf script.exchanges)

/-- The token frame is that of the principal. -/
def Opens : Prop :=
  ∃ token : Bytes, script.opening = frame token ∧ token.length ≤ 4096 ∧
    config.auth.authenticate token = some script.principal

/-- The first exchanges have taken place and led to this engine. -/
structure Reached (before later : List Exchange) (engine : CPUMockEngine κ) :
    Prop where
  split : script.exchanges = before ++ later
  served : script.first.serveAll config script.principal
    (before.map Prod.fst) = some (before, engine)

variable {script} {before later : List Exchange} {exchange : Exchange}
  {engine : CPUMockEngine κ}

theorem reached_first : script.Reached [] script.exchanges script.first :=
  ⟨rfl, rfl⟩

theorem Reached.next (reached : script.Reached before (exchange :: later)
      engine) :
    ∃ next, engine.matrixServe config.asserts config.policy script.principal
        exchange.1.1 (config.clock before.length) =
          some (exchange.2, next) ∧
      script.Reached (before ++ [exchange]) later next := by
  have whole := script.served
  rw [reached.split] at whole
  obtain ⟨_, middle, next, _, upTo, answered, _⟩ := serveInTurn_split whole
  have same := (Option.some.inj (reached.served.symm.trans upTo))
  cases (Prod.mk.inj same).2
  rw [script.numbered before exchange later reached.split] at answered
  refine ⟨next, answered, ?_, ?_⟩
  · rw [reached.split, List.append_assoc]
    rfl
  · rw [List.map_append]
    have numbered := script.numbered before exchange later reached.split
    rw [← numbered] at answered
    exact serveInTurn_concat reached.served answered

theorem Reached.final (reached : script.Reached before [] engine) :
    before = script.exchanges ∧ engine = script.final := by
  have all : before = script.exchanges := by
    rw [reached.split, List.append_nil]
  have served := reached.served
  rw [all] at served
  exact ⟨all, (Prod.mk.inj (Option.some.inj (served.symm.trans
    script.served))).2⟩

theorem Reached.heard_eq (reached : script.Reached before later engine) :
    script.heard = script.opening ++ (frames (requestsOf before) ++
      (frames (requestsOf later) ++ script.tail)) := by
  rw [heard, reached.split, requestsOf, List.map_append, frames_append,
    List.append_assoc]
  rfl

theorem Reached.told_eq (reached : script.Reached before later engine) :
    script.told = frames (responsesOf before) ++
      frames (responsesOf later) := by
  rw [told, reached.split, responsesOf, List.map_append, frames_append]
  rfl

theorem frames_requestsOf_concat :
    frames (requestsOf (before ++ [exchange])) =
      frames (requestsOf before) ++ frame exchange.1.1 := by
  rw [requestsOf, List.map_append]
  exact frames_concat _ _

theorem frames_responsesOf_concat :
    frames (responsesOf (before ++ [exchange])) =
      frames (responsesOf before) ++ frame exchange.2 := by
  rw [responsesOf, List.map_append]
  exact frames_concat _ _

variable (script)

/-- The server in a state between two transfers, with all it has received and
sent. -/
inductive At : ConnState κ → Bytes → Bytes → Prop where
  | tokenLength {stale : UInt64} (opens : script.Opens) :
      At { engine := script.first, principal := stale, served := 0
           phase := .tokenLength } [] []
  | token {stale : UInt64} {length : UInt32} (opens : script.Opens) :
      At { engine := script.first, principal := stale, served := 0
           phase := .token length } (u32Bytes length) []
  | requestLength {before later : List Exchange} {engine : CPUMockEngine κ}
      (reached : script.Reached before later engine) :
      At { engine := engine, principal := script.principal
           served := before.length, phase := .requestLength }
        (script.opening ++ frames (requestsOf before))
        (frames (responsesOf before))
  | request {before later : List Exchange} {engine : CPUMockEngine κ}
      {length : UInt32} (reached : script.Reached before later engine)
      (capped : length ≤ maxFrame) :
      At { engine := engine, principal := script.principal
           served := before.length, phase := .request length }
        (script.opening ++ (frames (requestsOf before) ++ u32Bytes length))
        (frames (responsesOf before))
  | responseLength {before later : List Exchange} {engine : CPUMockEngine κ}
      {response given : Bytes} (reached : script.Reached before later engine)
      (rest : frames (responsesOf before) = given ++ frame response) :
      At { engine := engine, principal := script.principal
           served := before.length, phase := .responseLength response }
        (script.opening ++ frames (requestsOf before)) given
  | response {before later : List Exchange} {engine : CPUMockEngine κ}
      {response given : Bytes} (reached : script.Reached before later engine)
      (rest : frames (responsesOf before) =
        given ++ response.take (frameLength response).toNat) :
      At { engine := engine, principal := script.principal
           served := before.length, phase := .response response }
        (script.opening ++ frames (requestsOf before)) given
  | returned {taken : Bytes} :
      At { engine := script.final, principal := script.principal
           served := script.exchanges.length, phase := .returned true }
        taken script.told
  | aborted {taken : Bytes} :
      At { engine := script.final, principal := script.principal
           served := script.exchanges.length, phase := .aborted }
        taken script.told

/-! ### What the server receives -/

section
variable {script} {got : Bytes}

/-- The rest of the script begins with what is received next. -/
theorem Reached.heard_next (reached : script.Reached before later engine)
    (heard : script.opening ++ (frames (requestsOf before) ++ got) <+:
      script.heard) :
    got <+: frames (requestsOf later) ++ script.tail := by
  rw [reached.heard_eq, List.prefix_append_right_inj,
    List.prefix_append_right_inj] at heard
  exact heard

theorem At.received_tokenLength {stale : UInt64} (opens : script.Opens)
    (all : got.length = 4) (heard : got <+: script.heard) :
    script.At (ConnState.resume config
      { engine := script.first, principal := stale, served := 0
        phase := .tokenLength } got) got [] := by
  obtain ⟨token, opening, small, known⟩ := opens
  have length : u32OfBytes got = frameLength token := by
    rw [Script.heard, opening] at heard
    exact u32OfBytes_of_heard all heard
  have capped : ¬ u32OfBytes got > 4096 := by
    rw [gt_iff_lt, UInt32.lt_iff_toNat_lt, length]
    have most := toNat_frameLength_le token
    exact Nat.not_lt.mpr (Nat.le_trans most small)
  have whole : got = u32Bytes (u32OfBytes got) :=
    (u32Bytes_u32OfBytes all).symm
  simp only [ConnState.resume, if_neg capped]
  rw [whole, u32OfBytes_u32Bytes]
  exact .token ⟨token, opening, small, known⟩

theorem At.received_token {stale : UInt64} {length : UInt32}
    (opens : script.Opens) (all : got.length = length.toNat)
    (heard : u32Bytes length ++ got <+: script.heard) :
    script.At (ConnState.resume config
      { engine := script.first, principal := stale, served := 0
        phase := .token length } got) (u32Bytes length ++ got) [] := by
  obtain ⟨token, opening, small, known⟩ := opens
  rw [Script.heard, opening] at heard
  obtain ⟨rfl, rfl⟩ := body_of_heard all heard
  have fits : token.length < 2 ^ 32 := by omega
  have whole : token.take (frameLength token).toNat = token := by
    rw [toNat_frameLength fits, List.take_length]
  have taken : u32Bytes (frameLength token) ++
      token.take (frameLength token).toNat =
        script.opening ++ frames (requestsOf []) :=
    opening.symm.trans (List.append_nil _).symm
  rw [taken]
  simp only [ConnState.resume, whole, known]
  exact .requestLength reached_first

theorem At.received_requestLength
    (reached : script.Reached before later engine) (all : got.length = 4)
    (heard : script.opening ++ (frames (requestsOf before) ++ got) <+:
      script.heard) :
    script.At (ConnState.resume config
      { engine := engine, principal := script.principal
        served := before.length, phase := .requestLength } got)
      (script.opening ++ (frames (requestsOf before) ++ got))
      (frames (responsesOf before)) := by
  have next := reached.heard_next heard
  simp only [ConnState.resume]
  split
  · -- Too long a frame: no exchange of the script has one.
    rename_i oversized
    cases later with
    | nil =>
        obtain ⟨rfl, rfl⟩ := reached.final
        exact .returned
    | cons exchange later =>
        have length : u32OfBytes got = frameLength exchange.1.1 :=
          u32OfBytes_of_heard all (List.append_assoc _ _ _ ▸ next)
        have fits := script.fits exchange (by simp [reached.split])
        have most := toNat_frameLength_le exchange.1.1
        rw [gt_iff_lt, UInt32.lt_iff_toNat_lt, length] at oversized
        omega
  · rename_i capped
    have whole := (u32Bytes_u32OfBytes all).symm
    rw [whole, u32OfBytes_u32Bytes]
    exact .request reached (UInt32.not_lt.mp capped)

theorem At.received_request {length : UInt32}
    (reached : script.Reached before later engine)
    (capped : length ≤ maxFrame) (all : got.length = length.toNat)
    (heard : script.opening ++ (frames (requestsOf before) ++
      (u32Bytes length ++ got)) <+: script.heard) :
    script.At (ConnState.resume config
      { engine := engine, principal := script.principal
        served := before.length, phase := .request length } got)
      (script.opening ++ (frames (requestsOf before) ++
        (u32Bytes length ++ got)))
      (frames (responsesOf before)) := by
  have next := reached.heard_next heard
  simp only [ConnState.resume, ConnState.serve]
  cases later with
  | nil =>
      obtain ⟨rfl, rfl⟩ := reached.final
      obtain ⟨more, tail⟩ := next
      have stops := script.ends length got more tail.symm capped all
      simp only [stops]
      exact .aborted
  | cons exchange later =>
      obtain ⟨rfl, rfl⟩ := body_of_heard all (List.append_assoc _ _ _ ▸ next)
      have fits := script.fits exchange (by simp [reached.split])
      have small : exchange.1.1.length < 2 ^ 32 :=
        Nat.lt_of_le_of_lt fits (by decide)
      have whole : exchange.1.1.take (frameLength exchange.1.1).toNat =
          exchange.1.1 := by
        rw [toNat_frameLength small, List.take_length]
      obtain ⟨after, answered, onward⟩ := reached.next
      have taken : frames (requestsOf before) ++
          (u32Bytes (frameLength exchange.1.1) ++
            exchange.1.1.take (frameLength exchange.1.1).toNat) =
          frames (requestsOf (before ++ [exchange])) :=
        frames_requestsOf_concat.symm
      have count : before.length + 1 = (before ++ [exchange]).length := by
        rw [List.length_append]
        rfl
      rw [taken]
      simp only [whole, answered, count]
      exact .responseLength onward frames_responsesOf_concat

/-- The server follows the script as long as it receives the script. -/
theorem keeps : (matrixServeConnAuth config).Keeps script.heard script.told
    script.At where
  sent holds wants := by
    cases holds with
    | tokenLength => cases wants
    | token => cases wants
    | requestLength => cases wants
    | request => cases wants
    | returned => cases wants
    | aborted => cases wants
    | responseLength reached rest =>
        cases wants
        apply At.response reached
        rw [rest, frame, List.append_assoc]
    | response reached rest =>
        cases wants
        rw [← rest]
        exact .requestLength reached
  received holds wants all heard := by
    cases holds with
    | responseLength => cases wants
    | response => cases wants
    | returned => cases wants
    | aborted => cases wants
    | tokenLength opens =>
        cases wants
        exact At.received_tokenLength opens all heard
    | token opens =>
        cases wants
        exact At.received_token opens all heard
    | requestLength reached =>
        cases wants
        rw [List.append_assoc] at heard ⊢
        exact At.received_requestLength reached all heard
    | request reached capped =>
        cases wants
        rw [List.append_assoc, List.append_assoc] at heard ⊢
        exact At.received_request reached capped all heard
  said holds := by
    cases holds with
    | tokenLength => exact List.nil_prefix
    | token => exact List.nil_prefix
    | requestLength reached =>
        rw [reached.told_eq]
        exact List.prefix_append _ _
    | request reached =>
        rw [reached.told_eq]
        exact List.prefix_append _ _
    | responseLength reached rest =>
        rw [reached.told_eq, rest, List.append_assoc]
        exact List.prefix_append _ _
    | response reached rest =>
        rw [reached.told_eq, rest, List.append_assoc]
        exact List.prefix_append _ _
    | returned => exact List.prefix_rfl
    | aborted => exact List.prefix_rfl

/-- When nothing but an unfinished frame is left, all exchanges are done. -/
theorem Reached.all_done {rest : Bytes}
    (reached : script.Reached before later engine)
    (unfinished : Unfinished rest)
    (whole : script.heard =
      script.opening ++ (frames (requestsOf before) ++ rest)) :
    before = script.exchanges ∧ engine = script.final := by
  rw [reached.heard_eq, List.append_cancel_left_eq,
    List.append_cancel_left_eq] at whole
  have none := frames_eq_nil unfinished whole.symm
  rw [requestsOf, List.map_eq_nil_iff] at none
  subst none
  exact reached.final

/-- The server copes with an end of the stream after all of the script. -/
theorem copes {T : Type} {other : Party UInt8 T}
    {inv : T → Bytes → Bytes → Prop}
    (whole : ∀ state taken given, inv state taken given →
      other.demand state = .stop → given = script.heard) :
    (matrixServeConnAuth config).Copes other script.At inv := by
  intro state taken given count moved peer peerTaken peerGiven holds wants
    short peerHolds stopped all _
  rw [whole peer peerTaken peerGiven peerHolds stopped] at all
  cases holds with
  | responseLength => cases wants
  | response => cases wants
  | returned => cases wants
  | aborted => cases wants
  | tokenLength opens =>
      cases wants
      obtain ⟨token, opening, _, _⟩ := opens
      rw [Script.heard, opening] at all
      exact absurd all.symm (unfinished_of_short short token _)
  | token opens =>
      cases wants
      obtain ⟨token, opening, _, _⟩ := opens
      rw [Script.heard, opening] at all
      exact absurd all.symm (unfinished_body short token _)
  | requestLength reached =>
      cases wants
      rw [List.append_assoc] at all
      obtain ⟨rfl, rfl⟩ := reached.all_done (unfinished_of_short short) all
      exact .returned
  | request reached capped =>
      cases wants
      rw [List.append_assoc, List.append_assoc] at all
      obtain ⟨rfl, rfl⟩ := reached.all_done (unfinished_body short) all
      exact .returned

/-- A server that has stopped has sent all responses. -/
theorem At.stopped {state : ConnState κ}
    {taken given : Bytes} (holds : script.At state taken given)
    (stopped : state.phase.demand = .stop) :
    state.engine = script.final ∧ given = script.told := by
  cases holds with
  | tokenLength => cases stopped
  | token => cases stopped
  | requestLength => cases stopped
  | request => cases stopped
  | responseLength => cases stopped
  | response => cases stopped
  | returned => exact ⟨rfl, rfl⟩
  | aborted => exact ⟨rfl, rfl⟩

end

end Script

end

end MatrixDB
