import Freshdock.Foundation.Text

/-!
# Image references

How an image reference is read: the repository and tag a pull names (`ImageRef.parse`), the
registry host of a repository, Docker's familiar spelling of a repository, and which references
name fixed bits.
-/

set_option autoImplicit false

namespace Freshdock.Registry

open Text

structure ImageRef where
  repository : String
  tag : String
  deriving DecidableEq, Repr

/-- The two hosts Docker folds to Hub. -/
def isDockerHubHost (host : String) : Bool := host == "docker.io" || host == "index.docker.io"

/-- The registry host of a repository and the path within it. A first segment that does not
look like a host belongs to the path, and the host is Hub. -/
def splitRepository (repository : String) : String × String :=
  let first := (split repository '/').headD ""
  if eqIgnoreAsciiCase first "localhost" || contains first '.' || contains first ':' then
    (first, ((splitOnce repository '/').map Prod.snd).getD "")
  else ("docker.io", repository)

/-- Without a leading Hub host, unless the rest is a registry of its own. -/
def stripDockerHubHost (name : String) : String :=
  let (host, rest) := splitRepository name
  let restStaysOnHub := rest ≠ "" && isDockerHubHost (splitRepository rest).1
  if isDockerHubHost host && restStaysOnHub then rest else name

/-- Docker's familiar repository name: no Hub host, and no bare `library/`. -/
def familiarRepository (repository : String) : String :=
  let (host, path) := splitRepository repository
  if isDockerHubHost host then
    ((stripPrefix path "library/").filter fun rest => !contains rest '/').getD path
  else repository

/-- Read a `name[:tag]` reference. A colon after the last slash is the tag separator, the tag
defaults to `latest`, and a single-component name is an official image. -/
def ImageRef.parse (input : String) : ImageRef :=
  let (name, tag) :=
    match rsplitOnce input ":" with
    | some (n, t) => if contains t '/' then (input, "latest") else (n, t)
    | none => (input, "latest")
  let name := stripDockerHubHost name
  let repository := if contains name '/' then name else "library/" ++ name
  ⟨repository, tag⟩

/-! ## Image ids and digests -/

/-- Is this a bare image id rather than a reference? -/
def isImageId (image : String) : Bool :=
  match stripPrefix image "sha256:" with
  | some hex => hex.utf8ByteSize == 64 && hex.toList.all isAsciiHexdigit
  | none => false

/-- The characters that the first bytes make up, if the cut is between two characters. -/
def firstBytes : List Char → Nat → Option (List Char)
  | _, 0 => some []
  | [], _ + 1 => none
  | c :: cs, n + 1 =>
      if c.utf8Size ≤ n + 1 then (firstBytes cs (n + 1 - c.utf8Size)).map (c :: ·) else none

/-- A digest or an id, cut short for display. A cut within a character panics: `none`. -/
def shortDigest (d : String) : Option String :=
  match stripPrefix d "sha256:" with
  | some hex => (firstBytes hex.toList (min hex.utf8ByteSize 12)).map fun cut =>
      "sha256:" ++ String.ofList cut ++ "…"
  | none =>
      if 19 < d.utf8ByteSize then
        (firstBytes d.toList 19).map fun cut => String.ofList cut ++ "…"
      else some d

/-- Is this reference pinned to a digest? -/
def isPinned (image : String) : Bool := startsWith image "sha256:" || contains image '@'

/-- Is the container running an image the tag no longer resolves to? -/
def behindTag (containerImageId tagImageId : Option String) : Bool :=
  match containerImageId, tagImageId with
  | some c, some t => c != t
  | _, _ => false

end Freshdock.Registry
