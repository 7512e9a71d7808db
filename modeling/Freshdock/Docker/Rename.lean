import Freshdock.Calls

/-!
# Archive names

A container that is being replaced is renamed to `<name>-old-<timestamp>`, with a sequence
number when that name is taken. The choice of a name asks, candidate by candidate, whether the
name exists; it is written once for any way of asking, and used with a plain predicate and
with the daemon.
-/

set_option autoImplicit false

namespace Freshdock.Docker

open Interaction Text

universe u

/-- The most sequence numbers that are tried when an archive name collides. -/
def maxCollisionAttempts : Nat := 64

def oldNameFor (original : String) (tsUnix : Int) : String :=
  original ++ "-old-" ++ toString tsUnix

/-- The archive names of `original` at a timestamp, with or without a sequence number. -/
def IsArchiveOf (original : String) (tsUnix : Int) (name : String) : Prop :=
  name = oldNameFor original tsUnix ∨
    ∃ n : Nat, name = oldNameFor original tsUnix ++ "-" ++ toString n

def isAllDigits (s : String) : Bool := !s.toList.isEmpty && s.toList.all isAsciiDigit

/-- Does `name` look like an archive: `<name>-old-<ts>` or `<name>-old-<ts>-<n>`? -/
def isArchiveName (name : String) : Bool :=
  match rsplitOnce name "-old-" with
  | none => false
  | some (_, tail) =>
    match splitOnce tail '-' with
    | some (ts, seq) => isAllDigits ts && isAllDigits seq
    | none => isAllDigits tail

section

variable {m : Type → Type u} [Monad m]

/-- The first numbered candidate that does not exist, and the last one when all do. -/
def firstAvailable (base : String) (taken : String → m Bool) : List Nat → m String
  | [] => pure (base ++ "-" ++ toString maxCollisionAttempts)
  | n :: rest => do
      let candidate := base ++ "-" ++ toString n
      if ← taken candidate then firstAvailable base taken rest else pure candidate

/-- A free archive name for `original`, whatever way `taken` asks for names. -/
def chooseOldName (original : String) (tsUnix : Int) (taken : String → m Bool) : m String := do
  let base := oldNameFor original tsUnix
  if ← taken base then firstAvailable base taken (List.range' 1 maxCollisionAttempts)
  else pure base

end

def nextAvailableOldName (original : String) (tsUnix : Int) (taken : String → Bool) : String :=
  Id.run (chooseOldName original tsUnix fun name => pure (taken name))

/-- Does the daemon know a container by this name? -/
def nameTaken (name : String) : Prog Bool := do
  let reply ← request (.inspectContainer name)
  pure (Except.isOk reply)

def nextAvailableOldNameAsync (original : String) (tsUnix : Int) : Prog String :=
  chooseOldName original tsUnix nameTaken

/-- Rename a container to a free archive name, which is returned. -/
def renameToOld (role : Role) (original : String) (tsUnix : Int) : Op String := do
  let newName ← Op.lift (nextAvailableOldNameAsync original tsUnix)
  Op.call (request (.renameContainer role original newName))
  pure newName

/-! ## What choosing a name does -/

section

variable {rely guar : CallEvent → Prop}
  (inspects : ∀ name reply, guar ⟨.inspectContainer name, reply⟩)

include inspects

theorem emits_nameTaken (name : String) : Emits rely guar (nameTaken name) fun _ => True :=
  emits_bind (emits_request (inspects name) fun _ _ => trivial) fun _ _ => emits_done trivial

theorem emits_firstAvailable (base : String) (numbers : List Nat) :
    Emits rely guar (firstAvailable base nameTaken numbers)
      fun name => ∃ n : Nat, name = base ++ "-" ++ toString n := by
  induction numbers with
  | nil => exact emits_done ⟨maxCollisionAttempts, rfl⟩
  | cons n rest ih =>
      refine emits_bind (emits_nameTaken inspects _) fun taken _ => ?_
      cases taken with
      | true => exact ih
      | false => exact emits_done ⟨n, rfl⟩

/-- Choosing an archive name only inspects, and the choice has the archive form. -/
theorem emits_nextAvailableOldName (original : String) (tsUnix : Int) :
    Emits rely guar (nextAvailableOldNameAsync original tsUnix) (IsArchiveOf original tsUnix) := by
  refine emits_bind (emits_nameTaken inspects _) fun taken _ => ?_
  cases taken with
  | true => exact (emits_firstAvailable inspects _ _).weaken fun name hname => Or.inr hname
  | false => exact emits_done (Or.inl rfl)

end

end Freshdock.Docker
