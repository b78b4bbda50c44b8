import MatrixDB.Server.Connection

/-!
# A connection before and after authentication

The peer may send any bytes and stop after any of them.  Nothing happens until
the server has read the token frame of a known token; then it serves the
complete request frames that follow, one by one.
-/

namespace MatrixDB

open Lib

/-! ## The requests of a byte stream -/

/-- The first frame of a stream, and what follows it. -/
def readFrame (bytes : Bytes) : Option (Bytes × Bytes) := do
  let (length, rest) ← readU32 bytes
  if length > maxFrame then none else takeBytes length.toNat rest

theorem readFrame_eq_some {bytes request more : Bytes} :
    readFrame bytes = some (request, more) ↔
      bytes = lengthPrefixed request ++ more ∧
        request.length ≤ maxFrame.toNat := by
  constructor
  · intro read
    obtain ⟨⟨length, rest⟩, readLength, read⟩ :=
      Option.bind_eq_some_iff.mp read
    dsimp only at read
    split at read
    · cases read
    · rename_i capped
      obtain ⟨split, all⟩ := takeBytes_eq_some read
      have bytesEq := readU32_eq_some.mp readLength
      have most := UInt32.le_iff_toNat_le.mp (UInt32.not_lt.mp capped)
      refine ⟨?_, all ▸ most⟩
      rw [bytesEq, split, lengthPrefixed, frameLength_of_length all,
        List.append_assoc]
  · rintro ⟨rfl, most⟩
    have fits : request.length < 2 ^ 32 := Nat.lt_of_le_of_lt most (by decide)
    have length := toNat_frameLength fits
    have capped : ¬ frameLength request > maxFrame := by
      rw [gt_iff_lt, UInt32.lt_iff_toNat_lt, length]
      exact Nat.not_lt.mpr most
    unfold readFrame lengthPrefixed
    rw [List.append_assoc]
    refine (bind_of_eq (readU32_u32Bytes _ _)).trans ?_
    dsimp only
    rw [if_neg capped, length]
    exact takeBytes_append request more

theorem length_of_readFrame {bytes request more : Bytes}
    (read : readFrame bytes = some (request, more)) :
    more.length < bytes.length := by
  obtain ⟨rfl, _⟩ := readFrame_eq_some.mp read
  simp only [lengthPrefixed, List.length_append, length_u32Bytes]
  omega

/-- The complete frames at the start of a stream, up to the first that is too
long. -/
def requestFrames (bytes : Bytes) : List Bytes :=
  match _ : readFrame bytes with
  | none => []
  | some (request, more) => request :: requestFrames more
termination_by bytes.length
decreasing_by exact length_of_readFrame ‹_›

theorem requestFrames_of_none {bytes : Bytes}
    (read : readFrame bytes = none) : requestFrames bytes = [] := by
  rw [requestFrames]
  split
  · rfl
  · rename_i found
    rw [read] at found
    cases found

theorem requestFrames_of_some {bytes request more : Bytes}
    (read : readFrame bytes = some (request, more)) :
    requestFrames bytes = request :: requestFrames more := by
  rw [requestFrames]
  split
  · rename_i missing
    rw [read] at missing
    cases missing
  · rename_i other rest found
    rw [read] at found
    cases found
    rfl

/-- A stream is its complete frames and a rest without one. -/
theorem exists_requestFrames (bytes : Bytes) :
    ∃ tail, bytes = frames (requestFrames bytes) ++ tail ∧
      readFrame tail = none ∧
      ∀ request ∈ requestFrames bytes,
        request.length ≤ maxFrame.toNat := by
  induction size : bytes.length using Nat.strong_induction_on
    generalizing bytes with
  | _ size induction =>
      cases read : readFrame bytes with
      | none =>
          rw [requestFrames_of_none read]
          exact ⟨bytes, rfl, read, fun _ never => by cases never⟩
      | some found =>
          obtain ⟨request, more⟩ := found
          obtain ⟨split, most⟩ := readFrame_eq_some.mp read
          have shorter := length_of_readFrame read
          obtain ⟨tail, rest, none, capped⟩ :=
            induction more.length (size ▸ shorter) more rfl
          have fits : request.length < 2 ^ 32 :=
            Nat.lt_of_le_of_lt most (by decide)
          rw [requestFrames_of_some read]
          refine ⟨tail, ?_, none, ?_⟩
          · rw [frames_cons, frame_eq fits, List.append_assoc, ← rest]
            exact split
          · intro other member
            rcases List.mem_cons.mp member with rfl | later
            · exact most
            · exact capped other later

/-! ## Serving until the server stops -/

variable {κ : Type}

section
variable [SoundCost κ] {ι : Type} {calls : ι → Call} {clock : ι → UInt64}
  {asserts : Bool} {policy : AccessPolicy}

/-- The requests of a run up to the first that is not answered. -/
theorem exists_longest_serveInTurn (engine : CPUMockEngine κ)
    (order : List ι) :
    ∃ served final later,
      order = served.map Prod.fst ++ later ∧
      engine.serveInTurn asserts policy calls clock (served.map Prod.fst) =
        some (served, final) ∧
      (later = [] ∨ ∃ i rest, later = i :: rest ∧
        final.matrixServe asserts policy (calls i).principal (calls i).bytes
          (clock i) = none) := by
  induction order generalizing engine with
  | nil => exact ⟨[], engine, [], rfl, rfl, .inl rfl⟩
  | cons i order induction =>
      cases answered : engine.matrixServe asserts policy (calls i).principal
          (calls i).bytes (clock i) with
      | none => exact ⟨[], engine, i :: order, rfl, rfl, .inr ⟨i, order, rfl,
          answered⟩⟩
      | some answer =>
          obtain ⟨response, next⟩ := answer
          obtain ⟨served, final, later, split, ran, stops⟩ := induction next
          refine ⟨(i, response) :: served, final, later, ?_, ?_, stops⟩
          · rw [split]
            rfl
          · simp [CPUMockEngine.serveInTurn, answered, ran]

end

section
variable [SoundCost κ] {config : ServeConfig}

/-- Either all requests of a stream are answered, or the next one stops the
server. -/
def Exhausts (config : ServeConfig) (principal : UInt64)
    (exchanges : List Exchange) (final : CPUMockEngine κ)
    (requests : List Bytes) : Prop :=
  ∃ later, requests.zipIdx = exchanges.map Prod.fst ++ later ∧
    (later = [] ∨ ∃ request rest, later = request :: rest ∧
      final.Stops config.asserts config.policy principal request.1)

/-- Every stream behind a token frame is a script. -/
theorem exists_script {engine : CPUMockEngine κ}
    (wellFormed : engine.catalog.WellFormed) (principal : UInt64)
    (opening rest : Bytes) :
    ∃ script : Script κ config, script.first = engine ∧
      script.opening = opening ∧ script.principal = principal ∧
      script.heard = opening ++ rest ∧
      Exhausts config principal script.exchanges script.final
        (requestFrames rest) := by
  obtain ⟨tail, split, none, capped⟩ := exists_requestFrames rest
  have longest : ∃ exchanges final later,
      (requestFrames rest).zipIdx = exchanges.map Prod.fst ++ later ∧
      engine.serveAll config principal (exchanges.map Prod.fst) =
        some (exchanges, final) ∧ _ :=
    exists_longest_serveInTurn engine (requestFrames rest).zipIdx
  obtain ⟨exchanges, final, later, order, served, stops⟩ := longest
  have requests : requestFrames rest =
      requestsOf exchanges ++ later.map Prod.fst := by
    have firsts := congrArg (List.map Prod.fst) order
    rw [List.zipIdx_map_fst, List.map_append, List.map_map] at firsts
    exact firsts
  have whole : opening ++ (frames (requestsOf exchanges) ++
      (frames (later.map Prod.fst) ++ tail)) = opening ++ rest := by
    rw [← List.append_assoc (frames _), ← frames_append, ← requests, ← split]
  refine ⟨
    { first := engine
      opening := opening
      principal := principal
      exchanges := exchanges
      final := final
      tail := frames (later.map Prod.fst) ++ tail
      served := served
      numbered := fun _ _ _ => numbered_of_zipIdx order
      fits := ?_
      ends := ?_ }, rfl, rfl, rfl, whole, later, order, ?_⟩
  · intro exchange member
    apply capped
    rw [requests]
    exact List.mem_append_left _ (List.mem_map_of_mem member)
  · intro length request more same most all
    rcases stops with rfl | ⟨next, others, rfl, unanswered⟩
    · -- A complete frame would have been read.
      have found : readFrame tail = some (request, more) := by
        apply readFrame_eq_some.mpr
        constructor
        · rw [lengthPrefixed, frameLength_of_length all]
          exact same
        · rw [all]
          exact UInt32.le_iff_toNat_le.mp most
      rw [none] at found
      cases found
    · have fits : next.1.length ≤ maxFrame.toNat := by
        apply capped
        rw [requests]
        simp
      have small : next.1.length < 2 ^ 32 :=
        Nat.lt_of_le_of_lt fits (by decide)
      have heard : u32Bytes length ++ request <+:
          frame next.1 ++ (frames (others.map Prod.fst) ++ tail) := by
        refine ⟨more, same.symm.trans ?_⟩
        rw [List.map_cons, frames_cons, List.append_assoc]
      obtain ⟨_, body⟩ := body_of_heard all heard
      rw [toNat_frameLength small, List.take_length] at body
      have order' : (requestFrames rest).zipIdx =
          (exchanges ++ [(next, ([] : Bytes))]).map Prod.fst ++ others := by
        rw [order, List.map_append, List.append_assoc]
        rfl
      have number := numbered_of_zipIdx order' rfl
      rw [body, ← number]
      exact unanswered
  · rcases stops with none | ⟨next, others, more, unanswered⟩
    · exact .inl none
    · have formed := (keeps_serveInTurn wellFormed served).wellFormed
      rw [← Option.not_isSome_iff_eq_none,
        isSome_matrixServe_iff_not_stops formed, not_not] at unanswered
      exact .inr ⟨next, others, more, unanswered⟩

/-! ## The peer -/

/-- A peer that sends these bytes and stops. -/
def feeder (stream : Bytes) : Party UInt8 Bool where
  demand done := if done then .stop else .send stream
  resume _ _ := true
  fail done := done

/-- What the peer has sent. -/
def Fed (stream : Bytes) (done : Bool) (_ given : Bytes) : Prop :=
  given = if done then stream else []

theorem feeder_never_waits {stream : Bytes} {done : Bool} {count : Nat} :
    (feeder stream).demand done ≠ .recv count := by
  intro wants
  cases done with
  | false => cases wants
  | true => cases wants

theorem feeder_keeps (stream hears : Bytes) :
    (feeder stream).Keeps hears stream (Fed stream) where
  sent := by
    intro done taken given items fed wants
    cases done with
    | true => cases wants
    | false =>
        cases wants
        cases fed
        rfl
  received := fun _ wants => absurd wants feeder_never_waits
  said := by
    intro done taken given fed
    cases done with
    | false =>
        cases fed
        exact List.nil_prefix
    | true =>
        cases fed
        exact List.prefix_rfl

theorem feeder_copes {T : Type} {stream : Bytes} (other : Party UInt8 T)
    (inv : T → Bytes → Bytes → Prop) :
    (feeder stream).Copes other (Fed stream) inv :=
  fun _ wants => absurd wants feeder_never_waits

theorem fed_whole {stream : Bytes} (done : Bool) (taken given : Bytes)
    (fed : Fed stream done taken given)
    (stopped : (feeder stream).demand done = .stop) : given = stream := by
  cases done with
  | false => cases stopped
  | true => exact fed

theorem feeder_alternates (stream : Bytes) : (feeder stream).Alternates :=
  fun _ _ => Nat.zero_lt_two

/-- A connection on which the peer sends a stream. -/
abbrev Conversation (config : ServeConfig) (engine : CPUMockEngine κ)
    (stream : Bytes) (count : Nat)
    (link : Link UInt8 Bool (ConnState κ)) : Prop :=
  Link.Run (feeder stream) (matrixServeConnAuth config)
    (Link.start false (ConnState.accepted engine)) count link

section
variable {engine : CPUMockEngine κ} {stream told : Bytes} {count : Nat}
  {link : Link UInt8 Bool (ConnState κ)}
  {inv : ConnState κ → Bytes → Bytes → Prop}

theorem conversation_inStep
    (keeps : (matrixServeConnAuth config).Keeps stream told inv)
    (copes : (matrixServeConnAuth config).Copes (feeder stream) inv
      (Fed stream))
    (holds : inv (ConnState.accepted engine) [] [])
    (run : Conversation config engine stream count link) :
    link.InStep (feeder stream) (matrixServeConnAuth config) (Fed stream) inv
      stream told :=
  run.inStep (feeder_keeps stream told) keeps (feeder_copes _ _) copes rfl
    holds

/-- Every conversation comes to an end. -/
theorem conversation_bounded
    (inStep : link.InStep (feeder stream) (matrixServeConnAuth config)
      (Fed stream) inv stream told)
    (keeps : (matrixServeConnAuth config).Keeps stream told inv)
    (run : Conversation config engine stream count link) :
    count ≤ 8 * (stream.length + told.length) + 8 := by
  have effort := run.length_le ⟨feeder_alternates stream,
    matrixServeConnAuth_alternates config⟩
    (fun _ _ _ => ⟨fun _ _ _ wants => absurd wants feeder_never_waits,
      fun _ _ _ _ _ => demand_fail _⟩)
  have most : link.effort (feeder stream) (matrixServeConnAuth config) ≤ _ :=
    Link.effort_le inStep.fifo
  have fed := (inStep.left.said (feeder_keeps stream told)).length_le
  have said := (inStep.right.said keeps).length_le
  omega

/-- When nothing can move any more, the server has stopped. -/
theorem conversation_stopped
    (inStep : link.InStep (feeder stream) (matrixServeConnAuth config)
      (Fed stream) inv stream told)
    (stuck : ∀ next, ¬ Link.Step (feeder stream) (matrixServeConnAuth config)
      link next) :
    ∃ taken given, inv link.right.state taken given ∧
      link.right.state.phase.demand = .stop ∧ link.right.given = given := by
  obtain ⟨_, _, _, left⟩ := inStep.left
  obtain ⟨taken, given, holds, right⟩ := inStep.right
  rcases Link.stopped_or_deadlocked left right stuck with
    ⟨_, stopped⟩ | ⟨⟨_, wants, _⟩, _⟩
  · exact ⟨taken, given, holds, stopped, (right.stop stopped).2.1⟩
  · exact absurd wants feeder_never_waits

end

/-! ## Without a known token -/

/-- The stream does not begin with the frame of a known token. -/
def Unauthenticated (auth : Authenticator) (stream : Bytes) : Prop :=
  ∀ token rest, stream = lengthPrefixed token ++ rest → 1 ≤ token.length →
    token.length ≤ 4096 → token ∉ auth.tokens.map Prod.fst

/-- A server that has done nothing but read. -/
inductive Silent (engine : CPUMockEngine κ) :
    ConnState κ → Bytes → Bytes → Prop where
  | tokenLength {stale : UInt64} :
      Silent engine { engine := engine, principal := stale, served := 0
                      phase := .tokenLength } [] []
  | token {stale : UInt64} {length : UInt32} (small : length.toNat ≤ 4096) :
      Silent engine { engine := engine, principal := stale, served := 0
                      phase := .token length } (u32Bytes length) []
  | refused {stale : UInt64} {taken : Bytes} :
      Silent engine { engine := engine, principal := stale, served := 0
                      phase := .returned false } taken []

omit [SoundCost κ] in
theorem Silent.untouched {engine : CPUMockEngine κ} {state : ConnState κ}
    {taken given : Bytes} (silent : Silent engine state taken given) :
    state.engine = engine ∧ given = [] := by
  cases silent with
  | tokenLength => exact ⟨rfl, rfl⟩
  | token => exact ⟨rfl, rfl⟩
  | refused => exact ⟨rfl, rfl⟩

theorem silent_keeps (engine : CPUMockEngine κ) {stream : Bytes}
    (unknown : Unauthenticated config.auth stream) :
    (matrixServeConnAuth config).Keeps stream [] (Silent engine) where
  sent silent wants := by
    cases silent with
    | tokenLength => cases wants
    | token => cases wants
    | refused => cases wants
  received silent wants all heard := by
    cases silent with
    | refused => cases wants
    | tokenLength =>
        cases wants
        simp only [matrixServeConnAuth, ConnState.resume, List.nil_append]
        split
        · exact .refused
        · rename_i got capped
          have small := UInt32.le_iff_toNat_le.mp (UInt32.not_lt.mp capped)
          have whole := (u32Bytes_u32OfBytes all).symm
          rw [whole, u32OfBytes_u32Bytes]
          exact .token small
    | @token stale length small =>
        cases wants
        rename_i got
        obtain ⟨rest, split⟩ := heard
        have refused : config.auth.authenticate got = none := by
          cases got with
          | nil => rfl
          | cons first later =>
              apply Authenticator.authenticate_unknown
              apply unknown _ rest
              · rw [lengthPrefixed, frameLength_of_length all]
                exact split.symm
              · exact Nat.succ_le_succ (Nat.zero_le _)
              · rw [all]
                exact small
        simp only [matrixServeConnAuth, ConnState.resume, refused]
        exact .refused
  said silent := by
    rw [silent.untouched.2]

theorem silent_copes (engine : CPUMockEngine κ) {T : Type}
    (other : Party UInt8 T) (inv : T → Bytes → Bytes → Prop) :
    (matrixServeConnAuth config).Copes other (Silent engine) inv := by
  intro state taken given count moved _ _ _ silent wants _ _ _ _ _
  cases silent with
  | tokenLength => exact .refused
  | token => exact .refused
  | refused => cases wants

/-! ## With a known token -/

/-- The stream begins with the frame of a token, and this principal was the
last to be given it. -/
structure Authenticated (auth : Authenticator) (stream : Bytes)
    (principal : UInt64) (token rest : Bytes) : Prop where
  stream : stream = lengthPrefixed token ++ rest
  some : 1 ≤ token.length
  small : token.length ≤ 4096
  registered : ∃ earlier later,
    auth.tokens = earlier ++ (token, principal) :: later ∧
      token ∉ later.map Prod.fst

theorem Script.at_accepted (script : Script κ config) (opens : script.Opens) :
    script.At (ConnState.accepted script.first) [] [] :=
  .tokenLength opens

/-- The engine after some of the exchanges of the script. -/
theorem Script.At.reached {script : Script κ config} {state : ConnState κ}
    {taken given : Bytes} (holds : script.At state taken given) :
    ∃ before later, script.Reached before later state.engine := by
  cases holds with
  | tokenLength => exact ⟨_, _, reached_first⟩
  | token => exact ⟨_, _, reached_first⟩
  | requestLength reached => exact ⟨_, _, reached⟩
  | request reached => exact ⟨_, _, reached⟩
  | responseLength reached => exact ⟨_, _, reached⟩
  | response reached => exact ⟨_, _, reached⟩
  | returned => exact ⟨_, [], (List.append_nil _).symm, script.served⟩
  | aborted => exact ⟨_, [], (List.append_nil _).symm, script.served⟩

/-- No length wraps while the group limit is at most its default. -/
theorem frames_responses {engine final : CPUMockEngine κ}
    {principal : UInt64} {exchanges : List Exchange}
    (wellFormed : engine.catalog.WellFormed)
    (bounded : engine.catalog.maxQueryGroups ≤ maxFrame)
    (served : engine.serveAll config principal (exchanges.map Prod.fst) =
      some (exchanges, final)) :
    frames (responsesOf exchanges) =
      (responsesOf exchanges).flatMap lengthPrefixed := by
  apply List.flatMap_congr
  intro response member
  obtain ⟨exchange, inside, rfl⟩ := List.mem_map.mp member
  obtain ⟨before, later, split⟩ := List.append_of_mem inside
  rw [split] at served
  obtain ⟨_, middle, next, _, upTo, answered, _⟩ := serveInTurn_split served
  have keeps := keeps_serveInTurn wellFormed upTo
  have most := length_matrixServe_le keeps.wellFormed answered
  have limit := UInt32.le_iff_toNat_le.mp bounded
  have cap : maxFrame.toNat = 2 ^ 28 := rfl
  rw [keeps.maxQueryGroups] at most
  exact frame_eq (by omega)

/-- A known token has been registered for the last time. -/
theorem exists_last_registration {token : Bytes}
    (entries : List (Bytes × UInt64)) (known : token ∈ entries.map Prod.fst) :
    ∃ principal earlier later, entries =
      earlier ++ (token, principal) :: later ∧
        token ∉ later.map Prod.fst := by
  induction entries with
  | nil => cases known
  | cons entry entries induction =>
      by_cases again : token ∈ entries.map Prod.fst
      · obtain ⟨principal, earlier, later, split, last⟩ := induction again
        exact ⟨principal, entry :: earlier, later, by rw [split]; rfl, last⟩
      · obtain ⟨other, principal⟩ := entry
        rcases List.mem_cons.mp known with same | later
        · exact ⟨principal, [], entries, by rw [same]; rfl, again⟩
        · exact absurd later again

theorem authenticated_or_not (auth : Authenticator) (stream : Bytes) :
    Unauthenticated auth stream ∨ ∃ principal token rest,
      Authenticated auth stream principal token rest := by
  by_cases unknown : Unauthenticated auth stream
  · exact .inl unknown
  · right
    unfold Unauthenticated at unknown
    push Not at unknown
    obtain ⟨token, rest, stream, some, small, known⟩ := unknown
    obtain ⟨principal, earlier, later, added, last⟩ :=
      exists_last_registration auth.tokens known
    exact ⟨principal, token, rest, stream, some, small, earlier, later, added,
      last⟩

/-- The script of an authenticated stream. -/
theorem Authenticated.exists_script {engine : CPUMockEngine κ}
    {stream token rest : Bytes} {principal : UInt64}
    (wellFormed : engine.catalog.WellFormed)
    (authenticated : Authenticated config.auth stream principal token rest) :
    ∃ script : Script κ config, script.first = engine ∧
      script.principal = principal ∧ script.heard = stream ∧ script.Opens ∧
      Exhausts config principal script.exchanges script.final
        (requestFrames rest) := by
  obtain ⟨whole, some, small, earlier, later, added, last⟩ := authenticated
  obtain ⟨script, first, opening, own, heard, exhausts⟩ :
      ∃ script : Script κ config, _ :=
    MatrixDB.exists_script wellFormed principal (lengthPrefixed token) rest
  have fits : token.length < 2 ^ 32 := by omega
  have known : config.auth.authenticate token = .some principal :=
    Authenticator.authenticate_last (List.length_pos_iff.mp some) added last
  refine ⟨script, first, own, heard.trans whole.symm, ⟨token, ?_, small, ?_⟩,
    exhausts⟩
  · rw [opening, frame_eq fits]
  · rw [known, own]

/-- Before authentication nothing happens on a connection, and afterwards it is
that of its principal: the server sends the responses of `matrix_serve` to the
complete request frames, in their order, each with its length, up to the first
request at which `matrix_serve` stops the process. -/
theorem connection_authenticates {strtod : Bytes → StrtodResult}
    {engine : CPUMockEngine κ} (live : engine.Live strtod)
    (bounded : engine.catalog.maxQueryGroups ≤ maxFrame)
    (config : ServeConfig) (stream : Bytes) :
    (∃ most, ∀ count link, Conversation config engine stream count link →
      count ≤ most) ∧
    (Unauthenticated config.auth stream →
      ∀ count link, Conversation config engine stream count link →
        link.right.given = [] ∧ link.right.state.engine = engine) ∧
    ∀ principal token rest,
      Authenticated config.auth stream principal token rest →
      ∃ exchanges final,
        engine.serveAll config principal (exchanges.map Prod.fst) =
          some (exchanges, final) ∧
        Exhausts config principal exchanges final (requestFrames rest) ∧
        ∀ count link, Conversation config engine stream count link →
          link.right.given <+:
            (responsesOf exchanges).flatMap lengthPrefixed ∧
          (∃ before later, exchanges = before ++ later ∧
            engine.serveAll config principal (before.map Prod.fst) =
              some (before, link.right.state.engine)) ∧
          ((∀ next, ¬ Link.Step (feeder stream) (matrixServeConnAuth config)
              link next) →
            link.right.state.phase.demand = .stop ∧
            link.right.given =
              (responsesOf exchanges).flatMap lengthPrefixed ∧
            link.right.state.engine = final) := by
  obtain ⟨analytics, reached, same⟩ := live
  have wellFormed : engine.catalog.WellFormed := by
    rw [same]
    exact reached.settled.wellFormed
  have scripted : ∀ script : Script κ config, script.first = engine →
      script.heard = stream → script.Opens → ∀ count link,
      Conversation config engine stream count link →
      link.InStep (feeder stream) (matrixServeConnAuth config) (Fed stream)
        script.At stream script.told := by
    rintro script rfl rfl opens count link run
    exact conversation_inStep Script.keeps (Script.copes fed_whole)
      (script.at_accepted opens) run
  refine ⟨?_, ?_, ?_⟩
  · rcases authenticated_or_not config.auth stream with
      unknown | ⟨principal, token, rest, authenticated⟩
    · refine ⟨_, fun count link run => conversation_bounded
        (conversation_inStep (silent_keeps engine unknown)
          (silent_copes engine _ _) .tokenLength run)
        (silent_keeps engine unknown) run⟩
    · obtain ⟨script, first, _, heard, opens, _⟩ :=
        authenticated.exists_script wellFormed
      refine ⟨_, fun count link run => conversation_bounded
        (scripted script first heard opens count link run) ?_ run⟩
      rw [← heard]
      exact Script.keeps
  · intro unknown count link run
    have inStep := conversation_inStep (silent_keeps engine unknown)
      (silent_copes engine _ _) .tokenLength run
    have said := inStep.right.said (silent_keeps engine unknown)
    obtain ⟨_, _, silent, _⟩ := inStep.right
    exact ⟨List.prefix_nil.mp said, silent.untouched.1⟩
  · intro principal token rest authenticated
    obtain ⟨script, rfl, own, heard, opens, exhausts⟩ :=
      authenticated.exists_script wellFormed
    have served := script.served
    rw [own] at served
    have told : script.told =
        (responsesOf script.exchanges).flatMap lengthPrefixed :=
      frames_responses wellFormed bounded served
    refine ⟨script.exchanges, script.final, served, exhausts, ?_⟩
    intro count link run
    have inStep := scripted script rfl heard opens count link run
    have keeps : (matrixServeConnAuth config).Keeps script.heard script.told
        script.At := Script.keeps
    rw [heard] at keeps
    rw [← told]
    refine ⟨inStep.right.said keeps, ?_, ?_⟩
    · obtain ⟨_, _, holds, _⟩ := inStep.right
      obtain ⟨before, later, split, ran⟩ := holds.reached
      rw [own] at ran
      exact ⟨before, later, split, ran⟩
    · intro stuck
      obtain ⟨taken, given, holds, stopped, gave⟩ :=
        conversation_stopped inStep stuck
      obtain ⟨final, all⟩ := holds.stopped stopped
      exact ⟨stopped, gave.trans all, final⟩

end

/-- A token that was given to one principal and then to another. -/
def sharedToken : ServeConfig :=
  { asserts := true
    policy := .permissive
    auth := (Authenticator.addCredential { tokens := [] } [1] 3).addCredential
      [1] 7
    clock := fun _ => 0 }

/-- The token, a request to read, and half a length. -/
def tokenThenRead : Bytes :=
  lengthPrefixed [1] ++
    (lengthPrefixed (writeThenRead true).bytes ++ [106, 0])

theorem connection_authenticates_last :
    Authenticated sharedToken.auth tokenThenRead 7 [1]
        (lengthPrefixed (writeThenRead true).bytes ++ [106, 0]) ∧
      ∃ exchanges final,
        emptyShop.serveAll sharedToken 7 (exchanges.map Prod.fst) =
          some (exchanges, final) ∧
        ∀ count link,
          Conversation sharedToken emptyShop tokenThenRead count link →
          link.right.given <+:
            (responsesOf exchanges).flatMap lengthPrefixed := by
  have known : Authenticated sharedToken.auth tokenThenRead 7 [1]
      (lengthPrefixed (writeThenRead true).bytes ++ [106, 0]) :=
    ⟨rfl, Nat.le_refl 1, by decide, [([1], 3)], [], rfl, List.not_mem_nil⟩
  refine ⟨known, ?_⟩
  obtain ⟨exchanges, final, served, _, runs⟩ :=
    (connection_authenticates live_emptyShop (by decide) sharedToken
      tokenThenRead).2.2 7 [1] _ known
  exact ⟨exchanges, final, served, fun count link run =>
    (runs count link run).1⟩

end MatrixDB
