import ClusterSnapshot.Operation.Capture
import ClusterSnapshot.Operation.Replay

/-!
# Copying a cluster

A copy captures the source and replays what was captured here, both under the same options and with
the same number of tasks. Captured pods are not decorated.
-/

namespace ClusterSnapshot

namespace Operator

variable {σ : Type}

/-- Copies the user's part of the cluster behind `source` into this one. -/
def copyFrom (op : Operator σ) (source : Server σ) (options : Options) : Attempt σ Unit := do
  let s ← ((Operator.new source).withMaxConcurrency op.maxConcurrency).capture options
  op.replay (Snapshot.toReplay s) options
  Attempt.report (.copied s.objectCount)

end Operator

end ClusterSnapshot
