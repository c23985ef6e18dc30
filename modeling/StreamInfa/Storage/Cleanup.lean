import StreamInfa.Control.Events

/-!
Retirement of stream records by the cleanup task (`src/storage/cleanup.rs`).

A cycle deletes the objects of streams that have been in ERROR for a day and moves
them to DELETED, and removes the records of streams that have been DELETED for a day.
The segments of LIVE streams, which a cycle also looks after, do not concern the
records.
-/

namespace StreamInfa.Storage

open Control

/-- Age threshold for streams in ERROR, in hours. -/
def errorStateMaxAgeHours : ℤ := 24

/-- Retention of DELETED records, in hours. -/
def deletedStateRetentionHours : ℤ := 24

/-- The hours since the stream ended, rounded toward zero. -/
def ageHours (now : DateTime) (entry : StreamEntry) : ℤ :=
  (now.nanos - (entry.metadata.endedAt.getD entry.metadata.createdAt).nanos).tdiv 3600000000000

def errorExpired (now : DateTime) (entry : StreamEntry) : Bool :=
  decide (entry.state = .error ∧ errorStateMaxAgeHours ≤ ageHours now entry)

def tombstoneExpired (now : DateTime) (entry : StreamEntry) : Bool :=
  decide (entry.state = .deleted ∧ deletedStateRetentionHours ≤ ageHours now entry)

/-- The streams a cycle moves from ERROR to DELETED; those in `failing` are the ones whose
objects cannot be deleted. -/
def retiredStreams (m : StreamStateManager) (now : DateTime) (failing : List StreamId) :
    List StreamId :=
  (m.streams.keysWhere (errorExpired now)).filter fun id => id ∉ failing

/-- The records after a cycle that begins at `now` and deletes at `stamp`. -/
def cleanupRecords (m : StreamStateManager) (now stamp : DateTime) (failing : List StreamId) :
    StreamStateManager :=
  let m := (retiredStreams m now failing).foldl
    (fun m id => orUnchanged m (m.transition id .deleted stamp)) m
  (m.streams.keysWhere (tombstoneExpired now)).foldl (fun m id => (m.removeStream id).2) m

end StreamInfa.Storage
