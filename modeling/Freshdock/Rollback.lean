import Freshdock.Docker.Ops

/-!
# Rollback

A failed update is undone by removing the replacement, giving the archived container its name
back and starting it.
-/

set_option autoImplicit false

namespace Freshdock

open Interaction Docker

/-- The record of a completed rollback. -/
structure RollbackEvent where
  container : String
  reason : RollbackReason
  oldImageRef : String
  newImageRef : String
  restoredFrom : String
  deriving DecidableEq, Repr

/-- Undo an update. The stop is best-effort; the first of the other calls that fails leaves
the rest to the operator. -/
def rollback (originalName newId oldName : String) (images : String × String)
    (reason : RollbackReason) : Op RollbackEvent := do
  let _ ← Op.lift (stop .update newId none none).run
  remove .update newId true
  renameTo .update oldName originalName
  start .update originalName
  pure {
    container := originalName
    reason
    oldImageRef := images.1
    newImageRef := images.2
    restoredFrom := oldName }

end Freshdock
