import MatrixDB.Catalog.Scans
import MatrixDB.Engine.Batching
import MatrixDB.RingBuffer

/-!
# The stages of the ingestion pipeline (`main.cpp`)

A producer puts point operations into one ring and scans into another.  One
consumer collects point operations until a batch is full or old enough and
hands it to the engine; another one runs a scan at a time.  `main` waits for
both counters and then stops the consumers.  Every access to a ring is a step
of its own; a flush and a scan, which nobody else looks into, are one step.
-/

namespace MatrixDB

open Lib

def BATCH_SIZE_LIMIT : Nat := 512
def TEMPORAL_LIMIT_US : Nat := 50

def pointCapacity : Capacity := ⟨4096, by decide, by decide⟩
def scanCapacity : Capacity := ⟨64, by decide, by decide⟩

/-- What the producer sends, and to which ring. -/
inductive Ingest where
  | point (q : DatabaseQuery)
  | scan (q : ScanQuery)

def pointsOf (program : List Ingest) : List DatabaseQuery :=
  program.filterMap fun
    | .point q => some q
    | .scan _ => none

def scansOf (program : List Ingest) : List ScanQuery :=
  program.filterMap fun
    | .point _ => none
    | .scan q => some q

/-- Where the consumer of point operations is in its loop. -/
inductive Batcher where
  | head
  | popping
  /-- The two triggers are looked at. -/
  | checking
  | stopped
  deriving DecidableEq

/-- Where the consumer of scans is; it drains its ring before it stops. -/
inductive Scanner where
  | head (draining : Bool)
  | popping (draining : Bool)
  | executing (draining : Bool)
  | stopped
  deriving DecidableEq

/-- `S` is the engine that runs scans.  The last two fields are history. -/
structure Pipeline (S : Type) where
  pointRing : Threads pointCapacity DatabaseQuery
  scanRing : Threads scanCapacity ScanQuery
  toSend : List Ingest
  batcher : Batcher
  batch : List DatabaseQuery
  totalProcessed : Nat
  scanner : Scanner
  scansProcessed : Nat
  runState : Bool
  world : World
  scanEngine : S
  flushed : List (List DatabaseQuery)
  scanned : List ScanQuery

/-- Who moves.  The consumers pop into variables that hold anything, and the
batcher reads how many microseconds old its batch is. -/
inductive PipelineAction where
  | producer
  | batcher (incoming : DatabaseQuery) (elapsed : Nat)
  | scanner (incoming : ScanQuery)
  | main

/-- The next access of `while (!try_emplace(value))`. -/
def Threads.offer {capacity : Capacity} {T : Type}
    (threads : Threads capacity T) (value : T) :
    Option (Threads capacity T × RingEvent) :=
  match threads.producer with
  | .idle => threads.step id (.tryEmplace value)
  | _ => threads.step id .producer

namespace Pipeline

variable {S : Type}

def start (program : List Ingest) (world : World) (scanEngine : S)
    (q : DatabaseQuery) (scan : ScanQuery) : Pipeline S where
  pointRing := .start pointCapacity q q
  scanRing := .start scanCapacity scan scan
  toSend := program
  batcher := .head
  batch := []
  totalProcessed := 0
  scanner := .head false
  scansProcessed := 0
  runState := true
  world := world
  scanEngine := scanEngine
  flushed := []
  scanned := []

def stepProducer (p : Pipeline S) : Option (Pipeline S) :=
  match p.toSend with
  | [] => none
  | .point q :: later =>
      (p.pointRing.offer q).map fun (ring, event) =>
        { p with
          pointRing := ring
          toSend := if event = .emplaceReturned true then later
            else p.toSend }
  | .scan q :: later =>
      (p.scanRing.offer q).map fun (ring, event) =>
        { p with
          scanRing := ring
          toSend := if event = .emplaceReturned true then later
            else p.toSend }

/-- The dual trigger. -/
def mustFlush (batch : List DatabaseQuery) (elapsed : Nat) : Bool :=
  !batch.isEmpty &&
    (BATCH_SIZE_LIMIT ≤ batch.length || TEMPORAL_LIMIT_US ≤ elapsed)

/-- `none` also where the array of the batch would be left. -/
def stepBatcher (asserts : Bool) (p : Pipeline S) (incoming : DatabaseQuery)
    (elapsed : Nat) : Option (Pipeline S) :=
  match p.batcher with
  | .head =>
      if p.runState then
        (p.pointRing.step id (.tryPop incoming)).map fun (ring, _) =>
          { p with pointRing := ring, batcher := .popping }
      else some { p with batcher := .stopped }
  | .popping =>
      (p.pointRing.step id .consumer).bind fun (ring, event) =>
        match event with
        | .popReturned true =>
            if p.batch.length < BATCH_SIZE_LIMIT then
              some { p with
                pointRing := ring
                batch := p.batch ++ [ring.output]
                batcher := .checking }
            else none
        | .popReturned false =>
            some { p with pointRing := ring, batcher := .checking }
        | _ => some { p with pointRing := ring }
  | .checking =>
      if mustFlush p.batch elapsed then
        ((World.machine asserts).runAll
          (p.world.engine.actions (.executeBatch p.batch)) p.world).map
          fun world =>
            { p with
              world := world
              totalProcessed := p.totalProcessed + p.batch.length
              batch := []
              flushed := p.flushed ++ [p.batch]
              batcher := .head }
      else some { p with batcher := .head }
  | .stopped => none

def stepScanner (executeScan : S → ScanQuery → Option S) (p : Pipeline S)
    (incoming : ScanQuery) : Option (Pipeline S) :=
  match p.scanner with
  | .head draining =>
      (p.scanRing.step id (.tryPop incoming)).map fun (ring, _) =>
        { p with
          scanRing := ring
          scanner := .popping (draining || !p.runState) }
  | .popping draining =>
      (p.scanRing.step id .consumer).map fun (ring, event) =>
        match event with
        | .popReturned true =>
            { p with scanRing := ring, scanner := .executing draining }
        | .popReturned false =>
            { p with
              scanRing := ring
              scanner := if draining then .stopped else .head false }
        | _ => { p with scanRing := ring }
  | .executing draining =>
      (executeScan p.scanEngine p.scanRing.output).map fun scanEngine =>
        { p with
          scanEngine := scanEngine
          scansProcessed := p.scansProcessed + 1
          scanned := p.scanned ++ [p.scanRing.output]
          scanner := .head draining }
  | .stopped => none

/-- The producer has been joined, and the counters have reached what it was to
send. -/
def waited (program : List Ingest) (p : Pipeline S) : Bool :=
  p.toSend.isEmpty && (pointsOf program).length ≤ p.totalProcessed &&
    (scansOf program).length ≤ p.scansProcessed

def stepMain (program : List Ingest) (p : Pipeline S) : Option (Pipeline S) :=
  if p.runState && p.waited program then some { p with runState := false }
  else none

def step (asserts : Bool) (executeScan : S → ScanQuery → Option S)
    (program : List Ingest) (p : Pipeline S) :
    PipelineAction → Option (Pipeline S)
  | .producer => p.stepProducer
  | .batcher incoming elapsed => p.stepBatcher asserts incoming elapsed
  | .scanner incoming => p.stepScanner executeScan incoming
  | .main => p.stepMain program

/-- Any interleaving of the four threads. -/
inductive Reachable (asserts : Bool) (executeScan : S → ScanQuery → Option S)
    (program : List Ingest) (first : Pipeline S) : Pipeline S → Prop where
  | start : Reachable asserts executeScan program first first
  | step {p after : Pipeline S} {action : PipelineAction} :
      Reachable asserts executeScan program first p →
      p.step asserts executeScan program action = some after →
      Reachable asserts executeScan program first after

end Pipeline

end MatrixDB
