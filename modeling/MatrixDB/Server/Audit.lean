import MatrixDB.Server.Core
import Mathlib.Data.List.Forall2

/-!
# Rejected requests and the audit trail (`server.hpp`)

Every check of `execute_query_impl` stands before its first borrow, so a
request that is not answered with `OK` has changed nothing, apart from the
time that was measured.  The auditing overload of `matrix_serve` records one
entry for each request, whatever became of it.
-/

namespace MatrixDB

open Lib

/-! ## Rejected requests -/

variable {κ : Type}

/-- The same engine up to the query latency statistics. -/
def CPUMockEngine.SameButLatency (before after : CPUMockEngine κ) : Prop :=
  after = { before with
    catalog := { before.catalog with latency := after.catalog.latency } }

section
variable [CostArith κ] {asserts : Bool}

theorem executeQuery_rejected {catalog after : Catalog κ} {ns : UInt64}
    {q : MatrixQuery} {status : MatrixQueryStatus} {out : List UInt64}
    (ran : catalog.executeQuery ns q = some (status, out, after))
    (rejected : status ≠ .OK) :
    out = [] ∧ after = { catalog with latency := after.latency } := by
  unfold Catalog.executeQuery Catalog.executeQueryImpl at ran
  split at ran
  · cases ran
    exact ⟨rfl, rfl⟩
  · -- A query that takes a route is answered with `OK`.
    obtain ⟨answer, followed, same⟩ := Option.map_eq_some_iff.mp ran
    obtain ⟨result, _, rfl⟩ := Option.map_eq_some_iff.mp followed
    cases same
    exact absurd rfl rejected

theorem dispatch_rejected {engine after : CPUMockEngine κ}
    {req : MatrixRequest} {ns : UInt64} {resp : MatrixResponse}
    (ran : engine.dispatch asserts req ns = some (resp, after))
    (rejected : resp.status ≠ ServerStatus.OK.code) :
    resp.results = [] ∧ engine.SameButLatency after := by
  unfold CPUMockEngine.dispatch at ran
  cases kind : req.kind with
  | QUERY =>
      simp only [kind] at ran
      obtain ⟨⟨status, out, catalog⟩, queried, same⟩ :=
        Option.map_eq_some_iff.mp ran
      cases same
      have failed : status ≠ .OK := by
        intro ok
        rw [ok] at rejected
        exact rejected rfl
      obtain ⟨empty, kept⟩ := executeQuery_rejected queried failed
      refine ⟨empty, ?_⟩
      unfold CPUMockEngine.SameButLatency
      rw [← kept]
  | PUT =>
      simp only [kind] at ran
      obtain ⟨points, _, same⟩ := Option.map_eq_some_iff.mp ran
      cases same
      exact absurd rfl rejected
  | GET =>
      simp only [kind] at ran
      cases ran
      exact absurd rfl rejected
  | HEALTH =>
      simp only [kind] at ran
      cases ran
      exact absurd rfl rejected
  | STATS =>
      simp only [kind] at ran
      cases ran
      exact absurd rfl rejected

end

/-! ## The audit trail -/

/-- The arguments of one audited call. -/
structure AuditedCall where
  policy : AccessPolicy
  principal : UInt64
  bytes : Bytes
  ns : UInt64

/-- What an entry says about a call and the response to it. -/
structure Records (call : AuditedCall) (response : MatrixResponse)
    (entry : AuditEntry) : Prop where
  principal : entry.principal = call.principal
  status : entry.status = response.status
  malformed : matrixDeserializeRequest call.bytes = none →
    entry.kind = 0 ∧ entry.key = 0 ∧ entry.column = 0
  decoded : ∀ req, matrixDeserializeRequest call.bytes = some req →
    entry.kind = req.kind.code ∧ entry.key = req.key ∧
      entry.column = req.query.valueCol

section
variable [CostArith κ] {asserts : Bool}

/-- What one call does to the engine, and what is recorded of it. -/
theorem serveCore_records {engine after : CPUMockEngine κ}
    {call : AuditedCall} {response : Bytes} {entry : AuditEntry}
    (ran : engine.serveCore asserts call.policy call.principal call.bytes
      call.ns = some (response, entry, after)) :
    ∃ resp, response = matrixSerializeResponse resp ∧
      Records call resp entry ∧
      (resp.status ≠ ServerStatus.OK.code →
        resp.results = [] ∧ engine.SameButLatency after) := by
  unfold CPUMockEngine.serveCore at ran
  cases read : matrixDeserializeRequest call.bytes with
  | none =>
      simp only [read] at ran
      cases ran
      refine ⟨_, rfl, ⟨rfl, rfl, ?_, ?_⟩, fun _ => ⟨rfl, rfl⟩⟩
      · intro _
        exact ⟨rfl, rfl, rfl⟩
      · intro req same
        rw [read] at same
        cases same
  | some req =>
      simp only [read] at ran
      have decoded : ∀ other, matrixDeserializeRequest call.bytes =
          some other → req = other := by
        intro other same
        rw [read] at same
        exact Option.some.inj same
      have wellFormed : ¬ matrixDeserializeRequest call.bytes = none := by
        rw [read]
        exact Option.some_ne_none req
      split at ran
      · obtain ⟨⟨resp, engine'⟩, dispatched, same⟩ :=
          Option.map_eq_some_iff.mp ran
        cases same
        refine ⟨resp, rfl, ⟨rfl, rfl, ?_, ?_⟩, ?_⟩
        · intro malformed
          exact absurd malformed wellFormed
        · intro other same
          cases decoded other same
          exact ⟨rfl, rfl, rfl⟩
        · exact dispatch_rejected dispatched
      · cases ran
        refine ⟨_, rfl, ⟨rfl, rfl, ?_, ?_⟩, fun _ => ⟨rfl, rfl⟩⟩
        · intro malformed
          exact absurd malformed wellFormed
        · intro other same
          cases decoded other same
          exact ⟨rfl, rfl, rfl⟩

/-- `matrix_serve` with an audit log. -/
def CPUMockEngine.matrixServeAudited (asserts : Bool)
    (engine : CPUMockEngine κ) (audit : List AuditEntry)
    (call : AuditedCall) :
    Option (Bytes × CPUMockEngine κ × List AuditEntry) :=
  (engine.serveCore asserts call.policy call.principal call.bytes
    call.ns).map fun result =>
      (result.1, result.2.2, audit ++ [result.2.1])

/-- One call after another, on one log. -/
def CPUMockEngine.serveAudited (asserts : Bool) :
    List AuditedCall → CPUMockEngine κ → List AuditEntry →
      Option (List Bytes × CPUMockEngine κ × List AuditEntry)
  | [], engine, audit => some ([], engine, audit)
  | call :: calls, engine, audit => do
      let (response, engine, audit) ←
        engine.matrixServeAudited asserts audit call
      let (responses, engine, audit) ← serveAudited asserts calls engine audit
      some (response :: responses, engine, audit)

/-- A sequence of calls appends one entry for each call, in their order. -/
theorem serveAudited_records {calls : List AuditedCall}
    {engine after : CPUMockEngine κ} {audit audit' : List AuditEntry}
    {responses : List Bytes}
    (ran : CPUMockEngine.serveAudited asserts calls engine audit =
      some (responses, after, audit')) :
    ∃ resps entries, responses = resps.map matrixSerializeResponse ∧
      audit' = audit ++ entries ∧ resps.length = calls.length ∧
      List.Forall₂ (fun served entry => Records served.1 served.2 entry)
        (calls.zip resps) entries := by
  induction calls generalizing engine audit responses with
  | nil =>
      cases ran
      exact ⟨[], [], rfl, (List.append_nil _).symm, rfl, .nil⟩
  | cons call calls induction =>
      obtain ⟨⟨response, next, longer⟩, first, ran⟩ :=
        Option.bind_eq_some_iff.mp ran
      obtain ⟨⟨later, last, longest⟩, others, ran⟩ :=
        Option.bind_eq_some_iff.mp ran
      cases ran
      obtain ⟨⟨bytes, entry, engine'⟩, served, same⟩ :=
        Option.map_eq_some_iff.mp first
      cases same
      obtain ⟨resp, rfl, records, _⟩ := serveCore_records served
      obtain ⟨resps, entries, rfl, rfl, length, matching⟩ := induction others
      refine ⟨resp :: resps, entry :: entries, rfl, ?_, ?_, ?_⟩
      · rw [List.append_assoc]
        rfl
      · rw [List.length_cons, List.length_cons, length]
      · exact .cons records matching

/-- A request that is not answered with `OK` gets no results and leaves the
engine as it was, up to the query latency statistics; and every sequence of
requests appends to the audit log exactly one entry for each request. -/
theorem rejected_requests_no_effect (asserts : Bool) :
    (∀ (engine after : CPUMockEngine κ) (policy : AccessPolicy)
        (principal : UInt64) (bytes response : Bytes) (ns : UInt64)
        (entry : AuditEntry),
      engine.serveCore asserts policy principal bytes ns =
        some (response, entry, after) →
      ∃ resp, response = matrixSerializeResponse resp ∧
        entry.status = resp.status ∧
        (resp.status ≠ ServerStatus.OK.code →
          resp.results = [] ∧ engine.SameButLatency after)) ∧
    (∀ (calls : List AuditedCall) (engine after : CPUMockEngine κ)
        (audit audit' : List AuditEntry) (responses : List Bytes),
      CPUMockEngine.serveAudited asserts calls engine audit =
        some (responses, after, audit') →
      ∃ resps entries, responses = resps.map matrixSerializeResponse ∧
        audit' = audit ++ entries ∧ resps.length = calls.length ∧
        List.Forall₂ (fun served entry => Records served.1 served.2 entry)
          (calls.zip resps) entries) := by
  constructor
  · intro engine after policy principal bytes response ns entry ran
    let call : AuditedCall := ⟨policy, principal, bytes, ns⟩
    have served : engine.serveCore asserts call.policy call.principal
        call.bytes call.ns = some (response, entry, after) := ran
    obtain ⟨resp, written, records, rejected⟩ := serveCore_records served
    exact ⟨resp, written, records.status, rejected⟩
  · intro calls engine after audit audit' responses ran
    exact serveAudited_records ran

end

end MatrixDB
