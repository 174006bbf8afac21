import PayFormula.Document.Basic
import PayFormula.Uri

/-!
# The document store

The open documents by their URIs. Each version of a text is a snapshot of its
own, with a flag that tells its readers to stop. Opening and changing a document
build a snapshot, put it into the map in one step and then cancel the snapshot
that it displaced; closing takes an entry out and cancels it.
-/
namespace PayFormula

structure Snapshot where
  document : Document
  isCancelled : Bool
  deriving Repr, Inhabited

/-- Where a snapshot stands among all that were built. -/
abbrev SnapshotId := Nat

structure Store where
  /-- Every snapshot ever built, in order. -/
  snapshots : List Snapshot
  entries : List (Uri × SnapshotId)
  deriving Repr, Inhabited

namespace Store

def empty : Store := ⟨[], []⟩

def snapshot? (s : Store) (id : SnapshotId) : Option Snapshot := s.snapshots[id]?

def get? (s : Store) (uri : Uri) : Option SnapshotId := s.entries.lookup uri

/-- The snapshot of an open document. -/
def current? (s : Store) (uri : Uri) : Option Snapshot := (s.get? uri).bind s.snapshot?

def size (s : Store) : Nat := s.entries.length

def isEmpty (s : Store) : Bool := s.entries.isEmpty

/-- Builds a snapshot, which is in no entry yet. -/
def build (s : Store) (text : String) : SnapshotId × Store :=
  (s.snapshots.length, { s with snapshots := s.snapshots ++ [⟨.ofSource text, false⟩] })

/-- Takes an entry out and hands out its snapshot. -/
def remove (s : Store) (uri : Uri) : Option SnapshotId × Store :=
  (s.get? uri, { s with entries := s.entries.filter (·.1 ≠ uri) })

/-- Puts a snapshot into an entry and hands out the one that was there. -/
def swap (s : Store) (uri : Uri) (id : SnapshotId) : Option SnapshotId × Store :=
  let (displaced, s) := s.remove uri
  (displaced, { s with entries := (uri, id) :: s.entries })

def cancel (s : Store) (id : SnapshotId) : Store :=
  let stop (snapshot : Snapshot) : Snapshot := { snapshot with isCancelled := true }
  { s with snapshots := s.snapshots.modify id stop }

def cancelDisplaced (s : Store) (displaced : Option SnapshotId) : Store :=
  match displaced with
  | some id => s.cancel id
  | none => s

/-- Opens a document, or puts another text in its place. -/
def upsert (s : Store) (uri : Uri) (text : String) : SnapshotId × Store :=
  let (id, s) := s.build text
  let (displaced, s) := s.swap uri id
  (id, s.cancelDisplaced displaced)

def close (s : Store) (uri : Uri) : Store :=
  let (displaced, s) := s.remove uri
  s.cancelDisplaced displaced

end Store

end PayFormula
