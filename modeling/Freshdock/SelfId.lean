import Freshdock.Foundation.Text

/-!
# Which container is freshdock itself

Docker gives a container its short id as hostname, so a hostname shaped like a container id
names the container freshdock runs in.
-/

set_option autoImplicit false

namespace Freshdock.SelfId

open Text

/-- Docker's short id is twelve hexadecimal characters. -/
def looksLikeContainerId (name : String) : Bool :=
  12 ≤ name.utf8ByteSize && name.toList.all isAsciiHexdigit

/-- Freshdock's own container id prefix, when the hostname is shaped like one. -/
def ownContainerIdPrefix (hostname : Option String) : Option String :=
  (hostname.filter looksLikeContainerId).map toAsciiLowercase

/-- Does `id` belong to the container that `idPrefix` came from? -/
def isOwnContainer (idPrefix id : Option String) : Bool :=
  match idPrefix, id with
  | some p, some i => looksLikeContainerId p && startsWith i (toAsciiLowercase p)
  | _, _ => false

end Freshdock.SelfId
