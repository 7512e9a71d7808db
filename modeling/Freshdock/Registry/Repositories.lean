import Freshdock.Foundation.Splitting
import Freshdock.Probe

/-!
# Two spellings of a repository

An image is pulled under one spelling of its repository, with a leading Hub host dropped and
`library/` put before a single component, and its recorded digests are found under another one,
Docker's familiar spelling. The first is a function of the second (`pulled_eq`), and a one-to-one
one (`pulled_injective`), for every name but those that keep their Hub host (`keepsHubHost`): with
nothing behind it, or with a registry of its own. No such name agrees with another in both
spellings, and each of them breaks the agreement (`repositories_agree`).
-/

set_option autoImplicit false

namespace Freshdock.Registry

open Text Probe

/-! ## The tag -/

/-- The place of the last `c`. -/
def rfindChars (c : Char) : List Char → Option Nat
  | [] => none
  | x :: xs =>
      match rfindChars c xs with
      | some i => some (i + 1)
      | none => if x = c then some 0 else none

def rfind (s : String) (c : Char) : Option Nat := rfindChars c s.toList

theorem rfindChars_append (c : Char) (front back : List Char) : rfindChars c (front ++ back) =
    ((rfindChars c back).map (front.length + ·)).or (rfindChars c front) := by
  induction front with
  | nil => simp [rfindChars]
  | cons x front ih =>
      rw [List.cons_append, rfindChars, ih]
      cases rfindChars c back with
      | some i => simp [Nat.add_right_comm]
      | none => rfl

theorem rfindChars_lt {c : Char} {cs : List Char} {i : Nat} (h : rfindChars c cs = some i) :
    i < cs.length := by
  induction cs generalizing i with
  | nil => cases h
  | cons x xs ih =>
      rw [rfindChars] at h
      cases hrest : rfindChars c xs with
      | some j =>
          rw [hrest] at h
          obtain rfl := Option.some.inj h
          exact Nat.succ_lt_succ (ih hrest)
      | none =>
          simp only [hrest] at h
          split_ifs at h
          obtain rfl := Option.some.inj h
          exact Nat.succ_pos _

theorem rfindChars_eq_none_iff {c : Char} {cs : List Char} :
    rfindChars c cs = none ↔ c ∉ cs := by
  induction cs with
  | nil => simp [rfindChars]
  | cons x xs ih =>
      rw [rfindChars, List.mem_cons, not_or, ← ih]
      cases rfindChars c xs with
      | some i => simp
      | none => simp [eq_comm]

/-- **The tag is behind the last colon, unless a slash comes later.** -/
theorem stripTag_eq (image : String) : stripTag image =
    match rfind image ':', rfind image '/' with
    | some colon, some slash =>
        if slash < colon then String.ofList (image.toList.take colon) else image
    | some colon, none => String.ofList (image.toList.take colon)
    | none, _ => image := by
  have hcolon : (":" : String) = String.singleton ':' := rfl
  unfold stripTag
  rw [hcolon]
  cases hsplit : rsplitOnce image (String.singleton ':') with
  | none =>
      rw [rsplitOnce_singleton_eq_none_iff] at hsplit
      rw [rfind, rfindChars_eq_none_iff.mpr hsplit]
  | some found =>
      obtain ⟨name, tag⟩ := found
      obtain ⟨himage, htag⟩ := rsplitOnce_singleton_eq_some_iff.mp hsplit
      have hchars : image.toList = name.toList ++ ':' :: tag.toList := by
        rw [himage]
        simp
      have hlast : rfind image ':' = some name.toList.length := by
        rw [rfind, hchars, rfindChars_append, rfindChars, rfindChars_eq_none_iff.mpr htag]
        rfl
      have htake : String.ofList (image.toList.take name.toList.length) = name := by
        rw [hchars, List.take_left, String.ofList_toList]
      have hslash : rfind image '/' =
          ((rfindChars '/' tag.toList).map (name.toList.length + · + 1)).or
            (rfindChars '/' name.toList) := by
        rw [rfind, hchars, rfindChars_append, rfindChars]
        cases rfindChars '/' tag.toList <;> rfl
      rw [hlast, hslash]
      cases htagSlash : rfindChars '/' tag.toList with
      | some i =>
          have hmem : '/' ∈ tag.toList := by
            by_contra hno
            rw [rfindChars_eq_none_iff.mpr hno] at htagSlash
            cases htagSlash
          simp only [Option.map_some, Option.some_or]
          rw [if_pos (by simpa [contains] using hmem), if_neg (by omega)]
      | none =>
          have hno := rfindChars_eq_none_iff.mp htagSlash
          simp only [Option.map_none, Option.none_or]
          rw [if_neg (by simpa [contains] using hno)]
          cases hname : rfindChars '/' name.toList with
          | none => exact htake.symm
          | some slash =>
              dsimp only
              rw [if_pos (rfindChars_lt hname), htake]

/-- A tag that is put behind a name is the one that is taken off. -/
theorem stripTag_append {name tag : String} (noColon : ':' ∉ tag.toList)
    (noSlash : '/' ∉ tag.toList) : stripTag (name ++ ":" ++ tag) = name := by
  have hcolon : (":" : String) = String.singleton ':' := rfl
  have hsplit : rsplitOnce (name ++ String.singleton ':' ++ tag) (String.singleton ':') =
      some (name, tag) := rsplitOnce_singleton_eq_some_iff.mpr ⟨rfl, noColon⟩
  rw [stripTag, hcolon, hsplit]
  exact if_neg (by simpa [contains] using noSlash)

/-- What is left without the tag is the front of the reference. -/
theorem mem_of_mem_stripTag {c : Char} {image : String} (h : c ∈ (stripTag image).toList) :
    c ∈ image.toList := by
  unfold stripTag at h
  cases hsplit : rsplitOnce image ":" with
  | none => simpa [hsplit] using h
  | some found =>
      obtain ⟨name, tag⟩ := found
      simp only [hsplit] at h
      split_ifs at h with hslash
      · exact h
      · rw [(rsplitOnce_eq_some_iff.mp hsplit).1]
        simp [h]

/-! ## The host -/

/-- Does the first segment of a name look like a registry? -/
def isHost (first : String) : Bool :=
  eqIgnoreAsciiCase first "localhost" || contains first '.' || contains first ':'

theorem splitRepository_eq (name : String) : splitRepository name =
    if isHost (((splitOnce name '/').map Prod.fst).getD name) then
      (((splitOnce name '/').map Prod.fst).getD name, ((splitOnce name '/').map Prod.snd).getD "")
    else ("docker.io", name) := by
  rw [splitRepository, headD_split]
  rfl

/-- **A name is a path on Hub, a host, or a path behind a host.** -/
theorem splitRepository_cases (name : String) :
    splitRepository name = ("docker.io", name) ∨
      isHost (splitRepository name).1 = true ∧ '/' ∉ (splitRepository name).1.toList ∧
        (name = (splitRepository name).1 ∧ (splitRepository name).2 = "" ∨
          name = (splitRepository name).1 ++ "/" ++ (splitRepository name).2) := by
  rw [splitRepository_eq]
  by_cases hhost : isHost (((splitOnce name '/').map Prod.fst).getD name) = true
  · rw [if_pos hhost]
    refine .inr ⟨hhost, ?_⟩
    cases hsplit : splitOnce name '/' with
    | none => exact ⟨splitOnce_eq_none_iff.mp hsplit, .inl ⟨rfl, rfl⟩⟩
    | some found =>
        obtain ⟨host, path⟩ := found
        obtain ⟨hname, hslash⟩ := splitOnce_eq_some_iff.mp hsplit
        exact ⟨hslash, .inr hname⟩
  · exact .inl (if_neg hhost)

theorem mem_of_mem_path {c : Char} {name : String} (h : c ∈ (splitRepository name).2.toList) :
    c ∈ name.toList := by
  rcases splitRepository_cases name with hpath | ⟨-, -, ⟨-, hempty⟩ | hname⟩
  · rwa [hpath] at h
  · rw [hempty] at h
    cases h
  · rw [hname]
    simp [h]

/-! ## The two spellings -/

/-- Does a name keep the Hub host it says? It does when nothing of Hub's is behind the host. -/
def keepsHubHost (name : String) : Bool :=
  let (host, path) := splitRepository name
  isDockerHubHost host && path != name &&
    (path == "" || !isDockerHubHost (splitRepository path).1)

theorem keepsHubHost_iff {name : String} : keepsHubHost name = true ↔
    isDockerHubHost (splitRepository name).1 = true ∧ (splitRepository name).2 ≠ name ∧
      ((splitRepository name).2 = "" ∨
        isDockerHubHost (splitRepository (splitRepository name).2).1 = false) := by
  simp [keepsHubHost, and_assoc]

/-- A single component in its place on Hub. -/
def namespaced (name : String) : String := if contains name '/' then name else "library/" ++ name

/-- The repository that is pulled for a name without its tag. -/
def pulledRepository (name : String) : String := namespaced (stripDockerHubHost name)

/-- The familiar name of a path on Hub. -/
def dropLibrary (path : String) : String :=
  ((stripPrefix path "library/").filter fun rest => !contains rest '/').getD path

theorem familiarRepository_eq (name : String) : familiarRepository name =
    if isDockerHubHost (splitRepository name).1 then dropLibrary (splitRepository name).2
    else name := by
  unfold familiarRepository
  generalize splitRepository name = parts
  rfl

theorem stripDockerHubHost_eq (name : String) : stripDockerHubHost name =
    if isDockerHubHost (splitRepository name).1 = true ∧ (splitRepository name).2 ≠ "" ∧
        isDockerHubHost (splitRepository (splitRepository name).2).1 = true then
      (splitRepository name).2
    else name := by
  unfold stripDockerHubHost
  generalize splitRepository name = parts
  obtain ⟨host, path⟩ := parts
  simp

theorem repository_parse (image : String) :
    (ImageRef.parse image).repository = pulledRepository (stripTag image) := by
  cases hsplit : rsplitOnce image ":" with
  | none => simp only [ImageRef.parse, stripTag, hsplit, pulledRepository, namespaced]
  | some found =>
      cases hslash : contains found.2 '/' <;>
        simp [ImageRef.parse, stripTag, hsplit, hslash, pulledRepository, namespaced]

/-- Is this the full name of an official image? -/
def IsOfficial (name : String) : Prop := ∃ image, '/' ∉ image.toList ∧ name = "library/" ++ image

theorem IsOfficial.splitRepository {name : String} (official : IsOfficial name) :
    splitRepository name = ("docker.io", name) := by
  obtain ⟨image, -, rfl⟩ := official
  have hsplit : splitOnce ("library/" ++ image) '/' = some ("library", image) :=
    splitOnce_eq_some_iff.mpr ⟨rfl, by decide⟩
  have hlibrary : ¬ isHost "library" = true := by decide
  rw [splitRepository_eq, hsplit]
  exact if_neg hlibrary

theorem dropLibrary_official {image : String} (h : '/' ∉ image.toList) :
    dropLibrary ("library/" ++ image) = image := by
  have hstrip : stripPrefix ("library/" ++ image) "library/" = some image :=
    stripPrefix_eq_some_iff.mpr rfl
  have hslash : contains image '/' = false := by simpa [contains] using h
  rw [dropLibrary, hstrip]
  simp [Option.filter, hslash]

theorem dropLibrary_of_not_official {path : String} (h : ¬ IsOfficial path) :
    dropLibrary path = path := by
  unfold dropLibrary
  cases hstrip : stripPrefix path "library/" with
  | none => rfl
  | some image =>
      cases hslash : contains image '/' with
      | true => simp [Option.filter, hslash]
      | false =>
          refine absurd ⟨image, ?_, stripPrefix_eq_some_iff.mp hstrip⟩ h
          simpa [contains] using hslash

theorem not_official_dropLibrary (path : String) : ¬ IsOfficial (dropLibrary path) := by
  by_cases h : IsOfficial path
  · obtain ⟨image, hslash, rfl⟩ := h
    rw [dropLibrary_official hslash]
    rintro ⟨image', -, rfl⟩
    simp at hslash
  · rwa [dropLibrary_of_not_official h]

/-- The familiar name of a path has the same place on Hub. -/
theorem namespaced_dropLibrary (path : String) :
    namespaced (dropLibrary path) = namespaced path := by
  by_cases h : IsOfficial path
  · obtain ⟨image, hslash, rfl⟩ := h
    have hbare : contains image '/' = false := by simpa [contains] using hslash
    have hfull : contains ("library/" ++ image) '/' = true := by simp [contains]
    rw [dropLibrary_official hslash, namespaced, namespaced, hbare, hfull]
    rfl
  · rw [dropLibrary_of_not_official h]

/-- **Two names in one place on Hub are one**, unless one of them is the other in full. -/
theorem namespaced_injective {name name' : String} (h : namespaced name = namespaced name')
    (plain : ¬ IsOfficial name) (plain' : ¬ IsOfficial name') : name = name' := by
  have hofficial {n : String} (hn : contains n '/' = false) : IsOfficial ("library/" ++ n) :=
    ⟨n, by simpa [contains] using hn, rfl⟩
  unfold namespaced at h
  cases hslash : contains name '/' <;> cases hslash' : contains name' '/' <;>
    simp only [hslash, hslash', if_true, Bool.false_eq_true, if_false] at h
  · exact (String.append_right_inj _).mp h
  · exact absurd (h ▸ hofficial hslash) plain'
  · exact absurd (h ▸ hofficial hslash') plain
  · exact h

theorem not_official_familiarRepository (name : String) :
    ¬ IsOfficial (familiarRepository name) := by
  rw [familiarRepository_eq]
  split_ifs with hhub
  · exact not_official_dropLibrary _
  · intro official
    rw [official.splitRepository] at hhub
    exact hhub rfl

/-! ## Names that give up their Hub host -/

/-- **The repository that is pulled is the familiar one, in its place on Hub.** -/
theorem pulledRepository_eq {name : String} (gives : keepsHubHost name = false) :
    pulledRepository name = namespaced (familiarRepository name) := by
  have hstrip : stripDockerHubHost name =
      if isDockerHubHost (splitRepository name).1 then (splitRepository name).2 else name := by
    have hkeeps := mt keepsHubHost_iff.mpr (ne_true_of_eq_false gives)
    rw [stripDockerHubHost_eq]
    by_cases hhub : isDockerHubHost (splitRepository name).1 = true
    · by_cases hpath : (splitRepository name).2 = name
      · simp [hpath]
      · -- what is behind the host is Hub's
        obtain ⟨hne, hstays⟩ := not_or.mp fun hleft => hkeeps ⟨hhub, hpath, hleft⟩
        rw [if_pos ⟨hhub, hne, eq_true_of_ne_false hstays⟩, if_pos hhub]
    · rw [if_neg fun h => hhub h.1, if_neg hhub]
  rw [pulledRepository, hstrip, familiarRepository_eq]
  split_ifs
  · exact (namespaced_dropLibrary _).symm
  · rfl

/-- **The two spellings agree on names that give up their Hub host.** -/
theorem pulledRepository_eq_iff {name name' : String} (gives : keepsHubHost name = false)
    (gives' : keepsHubHost name' = false) : pulledRepository name = pulledRepository name' ↔
      familiarRepository name = familiarRepository name' := by
  rw [pulledRepository_eq gives, pulledRepository_eq gives']
  refine ⟨fun h => ?_, fun h => by rw [h]⟩
  exact namespaced_injective h (not_official_familiarRepository _)
    (not_official_familiarRepository _)

/-! ## Names that keep it -/

section Keeps

variable {name : String}

theorem pulledRepository_of_keeps (keeps : keepsHubHost name = true) :
    pulledRepository name = namespaced name := by
  obtain ⟨-, -, hpath⟩ := keepsHubHost_iff.mp keeps
  rw [pulledRepository, stripDockerHubHost_eq, if_neg]
  rintro ⟨-, hne, hhub⟩
  rcases hpath with hpath | hpath
  · exact hne hpath
  · rw [hhub] at hpath
    cases hpath

theorem not_official_of_keeps (keeps : keepsHubHost name = true) : ¬ IsOfficial name := by
  intro official
  have hpath := (keepsHubHost_iff.mp keeps).2.1
  rw [official.splitRepository] at hpath
  exact hpath rfl

/-- What is behind the host is the familiar name. -/
theorem familiarRepository_of_keeps (keeps : keepsHubHost name = true) :
    familiarRepository name = (splitRepository name).2 := by
  obtain ⟨hhub, -, hpath⟩ := keepsHubHost_iff.mp keeps
  rw [familiarRepository_eq, if_pos hhub]
  refine dropLibrary_of_not_official fun official => ?_
  rcases hpath with hpath | hpath
  · rw [hpath] at official
    obtain ⟨image, -, himage⟩ := official
    simp at himage
  · rw [official.splitRepository] at hpath
    cases hpath

/-- **A name that keeps its Hub host agrees with no other name in both spellings.** -/
theorem eq_of_keeps {name' : String} (keeps : keepsHubHost name = true)
    (pulled : pulledRepository name = pulledRepository name')
    (familiar : familiarRepository name = familiarRepository name') : name = name' := by
  rw [pulledRepository_of_keeps keeps] at pulled
  cases hkeeps : keepsHubHost name' with
  | true =>
      rw [pulledRepository_of_keeps hkeeps] at pulled
      exact namespaced_injective pulled (not_official_of_keeps keeps) (not_official_of_keeps hkeeps)
  | false =>
      -- the name would be what is behind its own host
      rw [pulledRepository_eq hkeeps, ← familiar] at pulled
      have hself := namespaced_injective pulled (not_official_of_keeps keeps)
        (not_official_familiarRepository _)
      rw [familiarRepository_of_keeps keeps] at hself
      exact absurd hself.symm (keepsHubHost_iff.mp keeps).2.1

/-- The other of the two hosts that Docker folds to Hub. -/
def otherHubHost (host : String) : String :=
  if host = "docker.io" then "index.docker.io" else "docker.io"

theorem otherHubHost_ne (host : String) : otherHubHost host ≠ host := by
  unfold otherHubHost
  split_ifs with h
  · rw [h]
    decide
  · exact Ne.symm h

/-- The same path behind the other host. -/
def behindOtherHubHost (name : String) : String :=
  otherHubHost (splitRepository name).1 ++ "/" ++ (splitRepository name).2

theorem splitRepository_behindOtherHubHost (name : String) :
    splitRepository (behindOtherHubHost name) =
      (otherHubHost (splitRepository name).1, (splitRepository name).2) := by
  generalize hparts : splitRepository name = parts
  have hhost : '/' ∉ (otherHubHost parts.1).toList ∧ isHost (otherHubHost parts.1) = true := by
    unfold otherHubHost
    split_ifs <;> decide
  have hsplit : splitOnce (behindOtherHubHost name) '/' = some (otherHubHost parts.1, parts.2) := by
    refine splitOnce_eq_some_iff.mpr ⟨?_, hhost.1⟩
    rw [behindOtherHubHost, hparts]
    rfl
  rw [splitRepository_eq, hsplit]
  simp only [Option.map_some, Option.getD_some, hhost.2, if_true]

theorem keeps_behindOtherHubHost (keeps : keepsHubHost name = true) :
    keepsHubHost (behindOtherHubHost name) = true := by
  obtain ⟨-, -, hpath⟩ := keepsHubHost_iff.mp keeps
  have hother : isDockerHubHost (otherHubHost (splitRepository name).1) = true := by
    unfold otherHubHost
    split_ifs <;> rfl
  have hlonger : (splitRepository name).2 ≠ behindOtherHubHost name := by
    intro heq
    have hlength := congrArg (fun s : String => s.toList.length) heq
    simp only [behindOtherHubHost, String.toList_append, List.length_append] at hlength
    have hslash : ("/" : String).toList.length = 1 := rfl
    omega
  rw [keepsHubHost_iff, splitRepository_behindOtherHubHost]
  dsimp only
  exact ⟨hother, hlonger, hpath⟩

/-- **Every name that keeps its Hub host breaks the agreement**: its path behind the other Hub
host has the same familiar name and is pulled from another repository. -/
theorem disagree_of_keeps (keeps : keepsHubHost name = true) :
    familiarRepository name = familiarRepository (behindOtherHubHost name) ∧
      pulledRepository name ≠ pulledRepository (behindOtherHubHost name) := by
  have hsplit := splitRepository_behindOtherHubHost name
  have hfamiliar : familiarRepository name = familiarRepository (behindOtherHubHost name) := by
    rw [familiarRepository_of_keeps keeps,
      familiarRepository_of_keeps (keeps_behindOtherHubHost keeps), hsplit]
  refine ⟨hfamiliar, fun hpulled => ?_⟩
  rw [← eq_of_keeps keeps hpulled hfamiliar] at hsplit
  generalize splitRepository name = parts at hsplit
  obtain ⟨host, path⟩ := parts
  exact otherHubHost_ne host (Prod.mk.inj hsplit).1.symm

end Keeps

/-! ## References -/

/-- An unpinned reference has no digest, and neither has its path behind the other Hub host. -/
theorem isPinned_behindOtherHubHost {image : String} (unpinned : isPinned image = false) :
    isPinned (behindOtherHubHost (stripTag image) ++ ":" ++ "latest") = false := by
  simp only [isPinned, Bool.or_eq_false_iff] at unpinned ⊢
  have hdigest : '@' ∉ image.toList := by simpa [contains] using unpinned.2
  have hpath : '@' ∉ (splitRepository (stripTag image)).2.toList :=
    fun h => hdigest (mem_of_mem_stripTag (mem_of_mem_path h))
  refine ⟨?_, ?_⟩
  · unfold behindOtherHubHost otherHubHost
    split_ifs <;> simp [startsWith, List.isPrefixOf]
  · unfold behindOtherHubHost otherHubHost
    split_ifs <;> simpa [contains] using hpath

/-- **The two spellings of a repository agree**: two references whose names give up their Hub host
are pulled from one repository just when their familiar names are one. A name that keeps it agrees
in both spellings with no other name, and disagrees about some reference. -/
theorem repositories_agree :
    (∀ a b, keepsHubHost (stripTag a) = false → keepsHubHost (stripTag b) = false →
      ((ImageRef.parse a).repository = (ImageRef.parse b).repository ↔
        familiarRepository (stripTag a) = familiarRepository (stripTag b))) ∧
    (∀ a b, keepsHubHost (stripTag a) = true →
      (ImageRef.parse a).repository = (ImageRef.parse b).repository →
      familiarRepository (stripTag a) = familiarRepository (stripTag b) →
      stripTag a = stripTag b) ∧
    ∀ a, isPinned a = false → keepsHubHost (stripTag a) = true → ∃ b, isPinned b = false ∧
      familiarRepository (stripTag a) = familiarRepository (stripTag b) ∧
      (ImageRef.parse a).repository ≠ (ImageRef.parse b).repository := by
  simp only [repository_parse]
  refine ⟨fun _ _ => pulledRepository_eq_iff, fun _ _ => eq_of_keeps, fun a unpinned keeps => ?_⟩
  refine ⟨behindOtherHubHost (stripTag a) ++ ":" ++ "latest",
    isPinned_behindOtherHubHost unpinned, ?_⟩
  rw [stripTag_append (by decide) (by decide)]
  exact disagree_of_keeps keeps

/-- Two spellings of one image, the reference of a registry that is named like a path behind a
Hub host, and such a reference itself. -/
theorem repositories_agree_alpine :
    ((ImageRef.parse "docker.io/library/alpine:3").repository =
        (ImageRef.parse "alpine").repository ↔
      familiarRepository (stripTag "docker.io/library/alpine:3") =
        familiarRepository (stripTag "alpine")) ∧
    stripTag "docker.io/localhost/a:1" = stripTag "docker.io/localhost/a:2" ∧
    ∃ b, isPinned b = false ∧
      familiarRepository (stripTag "docker.io/localhost/a:1") = familiarRepository (stripTag b) ∧
      (ImageRef.parse "docker.io/localhost/a:1").repository ≠ (ImageRef.parse b).repository := by
  refine ⟨?_, ?_, ?_⟩
  · exact repositories_agree.1 "docker.io/library/alpine:3" "alpine" (by decide) (by decide)
  · exact repositories_agree.2.1 "docker.io/localhost/a:1" "docker.io/localhost/a:2" (by decide)
      (by decide) (by decide)
  · exact repositories_agree.2.2 "docker.io/localhost/a:1" (by decide) (by decide)

/-- **A path that is a registry of its own keeps its Hub host in one spelling only.** -/
theorem hub_host_kept_in_one_spelling :
    ¬ ∀ a b, isPinned a = false → isPinned b = false →
      ((ImageRef.parse a).repository = (ImageRef.parse b).repository ↔
        familiarRepository (stripTag a) = familiarRepository (stripTag b)) := by
  intro agree
  have hagree := agree "docker.io/localhost/foo" "localhost/foo" (by decide) (by decide)
  have hrepository : (ImageRef.parse "docker.io/localhost/foo").repository ≠
      (ImageRef.parse "localhost/foo").repository := by decide
  exact hrepository (hagree.mpr (by decide))

end Freshdock.Registry
