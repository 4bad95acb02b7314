import ReconcileTrigger.Dict
import ReconcileTrigger.Settings.Basic

/-!
What the well-known labels of an object say.
-/

namespace ReconcileTrigger.Settings.Labels

def isDoNotReconcile (l : Labels) (labels : Dict String) : Bool :=
  labels.get? l.doNotReconcileKey == some l.doNotReconcileValue

/-- The version label has appeared or changed. Its removal is no upgrade. -/
def isUpgrade (l : Labels) (old new : Dict String) : Bool :=
  match old.get? l.versionKey, new.get? l.versionKey with
  | none, some _ => true
  | some previous, some current => previous != current
  | _, none => false

end ReconcileTrigger.Settings.Labels
