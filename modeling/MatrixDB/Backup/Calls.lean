import MatrixDB.Catalog.Snapshot
import MatrixDB.Engine.CheckpointFile
import MatrixDB.Server.Core

/-!
# Backups (`backup` and `restore`)

A backup is a catalog snapshot and a checkpoint of the point-op store under one
prefix.  `restore` hands both to the loaders that recovery uses, in an engine
that is running already.
-/

namespace MatrixDB

open Lib CostArith

/-- `<prefix>.catalog` and `<prefix>.kv`. -/
structure BackupFiles where
  catalog : Option Bytes
  kv : Option Bytes
  deriving DecidableEq, Repr

def BackupFiles.missing : BackupFiles := { catalog := none, kv := none }

namespace CPUMockEngine

variable {κ : Type}

/-- A snapshot that cannot be written leaves the old one in place. -/
def backup (engine : CPUMockEngine κ) (room : Nat)
    (order : Catalog.WalkOrder) (old : BackupFiles) :
    Option (BackupFiles × CPUMockEngine κ) :=
  (engine.catalog.saveCatalog room order).map fun (written, catalog) =>
    ({ catalog := written.or old.catalog
       kv := some (encodeCheckpoint engine.points.engine.kv) },
      { engine with catalog })

/-- The half of `restore` that loads the checkpoint. -/
def restoreKv (points : World) (file : Option Bytes) : Option World :=
  (loadCheckpoint points.engine.kv file).map fun kv =>
    { points with engine := { points.engine with kv } }

variable [CostArith κ]

/-- The half that loads the columns; a missing file is reported only. -/
def restoreCatalog (catalog : Catalog κ) : Option Bytes → Option (Catalog κ)
  | none => some catalog
  | some file => (catalog.loadCatalog file).map Prod.snd

/-- What the loaders return is ignored; `none` where one of them aborts. -/
def restore (engine : CPUMockEngine κ) (files : BackupFiles) :
    Option (CPUMockEngine κ) := do
  let catalog ← restoreCatalog engine.catalog files.catalog
  let points ← restoreKv engine.points files.kv
  some { catalog, points }

end CPUMockEngine

/-! ## Runs with backups -/

/-- The engine of a constructor without a log path. -/
def PointOps.inMemory : PointOps :=
  { PointOps.onStore .SYNC_EACH KVStore.fresh with coldStore := none }

/-- A running engine with its RAM budget, and the backups on its disk. -/
structure Site (κ : Type) where
  engine : CPUMockEngine κ
  hostCap : Nat
  backups : NameMap BackupFiles

inductive SiteCall where
  | points (event : Event)
  | backup (path : Bytes) (room : Nat) (order : Catalog.WalkOrder)
  | restore (path : Bytes)

namespace Site

variable {κ : Type}

/-- The files under a prefix. -/
def filesAt (site : Site κ) (path : Bytes) : BackupFiles :=
  (site.backups.lookup path).getD .missing

/-- The next process starts without columns. -/
def catalogAfter (site : Site κ) : Event → Catalog κ
  | .call _ => site.engine.catalog
  | .restart _ => .fresh site.hostCap
  | .crash _ _ _ _ => .fresh site.hostCap

/-- Just constructed, on some files. -/
inductive Opened : Site κ → Prop where
  | inMemory (hostCap : Nat) (disk : Disk) (backups : NameMap BackupFiles) :
      Opened
        { engine :=
            { catalog := .fresh hostCap
              points := { engine := .inMemory, disk, notes := [] } }
          hostCap
          backups }
  | onPath (hostCap : Nat) (sync : SyncPolicy) (disk : Disk)
      (points : PointOps) (backups : NameMap BackupFiles)
      (recovered : openEngine sync disk = some points) :
      Opened
        { engine :=
            { catalog := .fresh hostCap
              points := { engine := points, disk, notes := [] } }
          hostCap
          backups }

variable [CostArith κ]

def run (asserts : Bool) (site : Site κ) : SiteCall → Option (Site κ)
  | .points event =>
      (site.engine.points.runEvent asserts event).map fun points =>
        { site with engine := { catalog := site.catalogAfter event, points } }
  | .backup path room order =>
      (site.engine.backup room order (site.filesAt path)).map
        fun (files, engine) =>
          { site with
            engine
            backups := site.backups.insert path files }
  | .restore path =>
      (site.engine.restore (site.filesAt path)).map fun engine =>
        { site with engine }

def runAll (asserts : Bool) : List SiteCall → Site κ → Option (Site κ)
  | [], site => some site
  | call :: later, site => do
      let next ← site.run asserts call
      runAll asserts later next

end Site

end MatrixDB
