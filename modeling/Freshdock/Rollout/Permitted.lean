import Freshdock.Rollout.PlanFacts

/-!
# The planned members are the permitted ones

A plan targets exactly the members that may be updated for the moved image, and accounts for
every other member on that image as skipped (`plans_permitted`). `Permitted` states the
conditions one by one, in the terms of the labels, the images and the states of the members;
the planner checks them in a fixed order.

**Once.** The planner groups the targets by service and sorts them. No member is lost or
doubled on the way: the names of the targets and of the skipped are, in another order, those of
the members on the moved image (`listed_perm`).

**Archives.** The planner drops archives before it looks for the trigger, so that a trigger that
is an archive has an empty plan.
-/

set_option autoImplicit false

namespace Freshdock.Rollout

open Docker Registry SelfId
open Compose (ProjectMember Graph)
open Labels (Policy PolicyDefaults)

/-! ## The statement -/

/-- The member has a project and a service label that are not blank. -/
def Identified (m : ProjectMember) : Prop :=
  (Compose.nonEmpty (m.labels Compose.labelProject)).isSome ∧
    (Compose.nonEmpty (m.labels Compose.labelService)).isSome

/-- The member is on the image of `origin`: by its reference, or, unless it is pinned, by its
image id. -/
def OnImageOf (origin m : ProjectMember) : Prop :=
  ImageRef.parse m.imageRef = ImageRef.parse origin.imageRef ∨
    isPinned m.imageRef = false ∧ ∃ id, m.imageId = some id ∧ origin.imageId = some id

/-- A member that the plan has to account for. -/
structure Accountable (origin m : ProjectMember) : Prop where
  notArchive : isArchiveName m.name = false
  notOneoff : Compose.isOneoff m.labels = false
  image : OnImageOf origin m

/-- Some service of the project waits for the member's service to complete. -/
def AwaitedMember (members : List ProjectMember) (m : ProjectMember) : Prop :=
  ∃ service, Compose.nonEmpty (m.labels Compose.labelService) = some service ∧
    service ∈ Compose.servicesAwaitedForCompletion (Compose.graphOf (liveMembers members))

/-- A member that may be updated. -/
structure Permitted (members : List ProjectMember) (origin : ProjectMember) (tag : Option String)
    (defaults : PolicyDefaults) (own : Option String) (m : ProjectMember) : Prop
    extends Accountable origin m where
  notSelf : isOwnContainer own (some m.id) = false
  notOptedOut : Labels.explicitlyOptsOut m.labels = false
  policy : ∃ policy, Labels.parsePolicy m.labels defaults = .ok policy ∧ policy.mode ≠ .watch ∧
    ((policy.enabled = true ∧ policy.mode ≠ .off) ∨ AwaitedMember members m)
  notCurrent : ¬ AwaitedMember members m → ∀ id, tag = some id → m.imageId ≠ some id
  state : m.running = false ↔ AwaitedMember members m

/-- The names that a plan lists as targets or as skipped. -/
def RolloutPlan.listed (p : RolloutPlan) : List String :=
  p.targets.map PlannedTarget.container ++ p.skipped.map SkippedMember.container

/-- **Exactly the permitted members are planned, for one plan**: the targets are the permitted members, a
target is a one-shot exactly when its service is awaited, every accountable member is listed
exactly once, and nothing else is listed. -/
structure PlansPermitted (project : String) (members : List ProjectMember) (trigger : String)
    (tag : Option String) (defaults : PolicyDefaults) (own : Option String)
    (origin : ProjectMember) : Prop where
  targets : ∀ m ∈ members, Identified m →
    ((∃ t ∈ (plan project members trigger tag defaults own).targets, t.container = m.name) ↔
      Permitted members origin tag defaults own m)
  kind : ∀ m ∈ members, ∀ t ∈ (plan project members trigger tag defaults own).targets,
    t.container = m.name → (t.kind = .oneShot ↔ AwaitedMember members m)
  once : ∀ m ∈ members, Identified m → Accountable origin m →
    (plan project members trigger tag defaults own).listed.count m.name = 1
  only : ∀ name ∈ (plan project members trigger tag defaults own).listed,
    ∃ m ∈ members, m.name = name ∧ Identified m ∧ Accountable origin m

/-! ## One member -/

theorem parse_isSome_iff {m : ProjectMember} :
    (Compose.parse m.labels).isSome ↔ Compose.isOneoff m.labels = false ∧ Identified m := by
  unfold Compose.parse Identified
  cases Compose.isOneoff m.labels with
  | true => simp
  | false =>
      cases Compose.nonEmpty (m.labels Compose.labelProject) <;>
        cases Compose.nonEmpty (m.labels Compose.labelService) <;> simp [Option.bind]

theorem service_of_parse {m : ProjectMember} {info : Compose.ComposeInfo}
    (h : Compose.parse m.labels = some info) :
    Compose.nonEmpty (m.labels Compose.labelService) = some info.service := by
  unfold Compose.parse at h
  split at h
  · cases h
  · simp only [Option.bind_eq_bind, Option.bind_eq_some_iff] at h
    obtain ⟨project, -, service, hservice, hinfo⟩ := h
    cases hinfo
    exact hservice

theorem sameImage_iff {origin m : ProjectMember} :
    sameImage m (ImageRef.parse origin.imageRef) origin.imageId = true ↔ OnImageOf origin m := by
  unfold sameImage OnImageOf
  by_cases href : ImageRef.parse m.imageRef = ImageRef.parse origin.imageRef
  · simp [href]
  · cases hpinned : isPinned m.imageRef with
    | true => simp [href]
    | false =>
        cases m.imageId with
        | none => simp [href]
        | some id => cases origin.imageId <;> simp [href, @eq_comm _ id]

section Planned

variable {members : List ProjectMember} {origin m : ProjectMember} {tag : Option String}
  {defaults : PolicyDefaults} {own : Option String}

theorem awaited_iff {info : Compose.ComposeInfo} (hinfo : Compose.parse m.labels = some info) :
    (planInput (liveMembers members) origin tag defaults own).awaited.contains info.service = true ↔
      AwaitedMember members m := by
  unfold AwaitedMember
  simp [service_of_parse hinfo, planInput]

/-- The gates after the labels were read, as conditions. -/
theorem admitPolicy_iff {input : PlanInput} {oneShot : Bool} {policy admitted : Policy} :
    input.admitPolicy oneShot m policy = .ok admitted ↔
      policy = admitted ∧ policy.mode ≠ .watch ∧
        ((policy.enabled = true ∧ policy.mode ≠ .off) ∨ oneShot = true) ∧
        (oneShot = false → ∀ id, input.tagImageId = some id → m.imageId ≠ some id) ∧
        m.running = !oneShot := by
  unfold PlanInput.admitPolicy
  by_cases hwatch : policy.mode = .watch
  · simp [hwatch]
  cases oneShot with
  | true => cases m.running <;> simp [hwatch]
  | false =>
      by_cases henabled : policy.enabled = true ∧ policy.mode ≠ .off
      · cases htag : input.tagImageId with
        | none => cases m.running <;> simp [hwatch, henabled]
        | some current =>
            by_cases hcurrent : m.imageId = some current
            · simp [hwatch, henabled, hcurrent]
            · cases m.running <;> simp [hwatch, henabled, hcurrent]
      · have hgate : (policy.enabled && policy.mode != .off) = false := by
          simpa [not_and] using henabled
        simp [hwatch, hgate, henabled]

/-- All gates, as conditions. -/
theorem admission_iff {input : PlanInput} {oneShot : Bool} {policy : Policy} :
    input.admission oneShot m = .ok policy ↔
      input.isSelf m = false ∧ Labels.explicitlyOptsOut m.labels = false ∧
        Labels.parsePolicy m.labels input.defaults = .ok policy ∧ policy.mode ≠ .watch ∧
        ((policy.enabled = true ∧ policy.mode ≠ .off) ∨ oneShot = true) ∧
        (oneShot = false → ∀ id, input.tagImageId = some id → m.imageId ≠ some id) ∧
        m.running = !oneShot := by
  unfold PlanInput.admission
  cases input.isSelf m with
  | true => simp
  | false =>
      cases Labels.explicitlyOptsOut m.labels with
      | true => simp
      | false =>
          cases Labels.parsePolicy m.labels input.defaults with
          | error e => simp
          | ok policy' =>
              simp only [Bool.false_eq_true, if_false, true_and, Except.ok.injEq]
              rw [admitPolicy_iff]
              constructor
              · rintro ⟨rfl, conditions⟩
                exact ⟨rfl, conditions⟩
              · rintro ⟨rfl, conditions⟩
                exact ⟨rfl, conditions⟩

/-- **A member becomes a target exactly when it is permitted.** -/
theorem targetOf_isSome_iff (hlive : m ∈ liveMembers members) (identified : Identified m) :
    (targetOf (planInput (liveMembers members) origin tag defaults own) m).isSome ↔
      Permitted members origin tag defaults own m := by
  constructor
  · intro h
    obtain ⟨t, htarget⟩ := Option.isSome_iff_exists.mp h
    obtain ⟨info, hinfo, himage, hadmission, -⟩ := targetOf_eq_some.mp htarget
    obtain ⟨hself, hopted, hpolicy, hwatch, henabled, hcurrent, hrunning⟩ :=
      admission_iff.mp hadmission
    have hawaited := @awaited_iff members origin m tag defaults own info hinfo
    exact {
      notArchive := by simpa using (List.mem_filter.mp hlive).2
      notOneoff := (parse_isSome_iff.mp (by rw [hinfo]; rfl)).1
      image := sameImage_iff.mp himage
      notSelf := hself
      notOptedOut := hopted
      policy := ⟨t.policy, hpolicy, hwatch, henabled.imp_right hawaited.mp⟩
      notCurrent := fun hnot id htag =>
        hcurrent (Bool.eq_false_iff.mpr fun h => hnot (hawaited.mp h)) id htag
      state := by
        rw [← hawaited, hrunning]
        simp }
  · intro permitted
    obtain ⟨info, hinfo⟩ := Option.isSome_iff_exists.mp
      (parse_isSome_iff.mpr ⟨permitted.notOneoff, identified⟩)
    have hawaited := @awaited_iff members origin m tag defaults own info hinfo
    obtain ⟨policy, hpolicy, hwatch, henabled⟩ := permitted.policy
    have hstate := permitted.state
    rw [← hawaited] at hstate
    have hrunning : m.running =
        !(planInput (liveMembers members) origin tag defaults own).awaited.contains info.service := by
      cases hrun : m.running with
      | false => rw [hstate.mp hrun]; rfl
      | true =>
          rw [hrun] at hstate
          rw [Bool.eq_false_iff.mpr (mt hstate.mpr (by simp))]
          rfl
    have hcurrent : (planInput (liveMembers members) origin tag defaults own).awaited.contains
        info.service = false → ∀ id, tag = some id → m.imageId ≠ some id := by
      intro hnot
      refine permitted.notCurrent fun h => ?_
      rw [hawaited.mpr h] at hnot
      cases hnot
    have hadmission := (@admission_iff m
      (planInput (liveMembers members) origin tag defaults own) _ policy).mpr
      ⟨permitted.notSelf, permitted.notOptedOut, hpolicy, hwatch, henabled.imp_right hawaited.mpr,
        hcurrent, hrunning⟩
    exact Option.isSome_iff_exists.mpr ⟨⟨m.name, info.service, _, policy⟩, targetOf_eq_some.mpr
      ⟨info, hinfo, sameImage_iff.mpr permitted.image, hadmission, rfl, rfl, rfl⟩⟩

/-- The kind of a target says whether its service is awaited. -/
theorem kind_of_targetOf {t : PlannedTarget}
    (h : targetOf (planInput (liveMembers members) origin tag defaults own) m = some t) :
    t.kind = .oneShot ↔ AwaitedMember members m := by
  obtain ⟨info, hinfo, -, -, -, -, hkind⟩ := targetOf_eq_some.mp h
  rw [hkind, ← @awaited_iff members origin m tag defaults own info hinfo]
  split <;> simp_all

end Planned

/-! ## The walk -/

/-- The record of a member that is skipped, if it is. -/
def skipOf (input : PlanInput) (m : ProjectMember) : Option SkippedMember :=
  match Compose.parse m.labels with
  | none => none
  | some info =>
      if !sameImage m input.updatedImage input.updatedImageId then none
      else
        match input.admission (input.awaited.contains info.service) m with
        | .error reason => some ⟨m.name, reason⟩
        | .ok _ => none

/-- Is the member one that the plan has to account for? -/
def accounts (input : PlanInput) (m : ProjectMember) : Bool :=
  (Compose.parse m.labels).isSome && sameImage m input.updatedImage input.updatedImageId

section Walk

variable {input : PlanInput} {m : ProjectMember}

/-- A step records its member as skipped, if it is. -/
theorem skipped_planMember (state : PlanState) :
    (planMember input state m).skipped = state.skipped ++ (skipOf input m).toList := by
  have hnote (service : String) : (noteCandidate input service state m).skipped = state.skipped := by
    unfold noteCandidate
    split <;> rfl
  cases hparse : Compose.parse m.labels with
  | none => simp [planMember, skipOf, hparse]
  | some info =>
      simp only [planMember, skipOf, hparse, noteTarget]
      cases sameImage m input.updatedImage input.updatedImageId with
      | false => simp [hnote]
      | true =>
          simp only [Bool.not_true, Bool.false_eq_true, ite_false]
          cases input.admission (input.awaited.contains info.service) m with
          | error reason => simp [PlanState.skip, hnote]
          | ok policy => simp [PlanState.addTarget, hnote]

theorem skipped_foldl (members : List ProjectMember) (state : PlanState) :
    (members.foldl (planMember input) state).skipped =
      state.skipped ++ members.filterMap (skipOf input) := by
  induction members generalizing state with
  | nil => simp
  | cons m members ih =>
      rw [List.foldl_cons, ih, skipped_planMember, List.append_assoc]
      cases hskip : skipOf input m <;> simp [hskip]

/-- A member that is accounted for is a target or skipped, and no other member is either. -/
theorem names_of_member :
    (accounts input m = false ∧ targetOf input m = none ∧ skipOf input m = none) ∨
      accounts input m = true ∧
        ((∃ t, targetOf input m = some t ∧ t.container = m.name ∧ skipOf input m = none) ∨
          ∃ reason, targetOf input m = none ∧ skipOf input m = some ⟨m.name, reason⟩) := by
  unfold accounts targetOf skipOf
  cases Compose.parse m.labels with
  | none => simp
  | some info =>
      cases sameImage m input.updatedImage input.updatedImageId with
      | false => simp
      | true =>
          dsimp only [Bool.not_true]
          cases input.admission (input.awaited.contains info.service) m <;> simp

/-- Targets and skipped members together are the members that are accounted for. -/
theorem names_perm (members : List ProjectMember) :
    ((members.filterMap (targetOf input)).map PlannedTarget.container ++
      (members.filterMap (skipOf input)).map SkippedMember.container).Perm
        ((members.filter (accounts input)).map ProjectMember.name) := by
  induction members with
  | nil => exact .refl []
  | cons m members ih =>
      rcases @names_of_member input m with ⟨hno, htarget, hskip⟩ |
          ⟨hyes, ⟨t, htarget, hname, hskip⟩ | ⟨reason, htarget, hskip⟩⟩
      · simpa [hno, htarget, hskip] using ih
      · simpa [hyes, htarget, hskip, hname] using ih.cons m.name
      · simp only [List.filterMap_cons, htarget, hskip, List.filter_cons, hyes, ite_true,
          List.map_cons]
        exact List.perm_middle.trans (ih.cons m.name)

end Walk

/-! ## The plan -/

/-- The targets that were collected service by service are those of the members. -/
theorem targets_perm {project : String} {graph : Graph} {input : PlanInput}
    (members : List ProjectMember) :
    (assemble project graph (members.foldl (planMember input) .empty)).targets.Perm
      (members.filterMap (targetOf input)) := by
  have nodup := Kahn.nodup_order (Compose.dependencies graph)
    (members.foldl (planMember input) .empty).byService.keys
  have covers : ∀ t ∈ members.filterMap (targetOf input), t.service ∈
      Kahn.order (Compose.dependencies graph)
        (members.foldl (planMember input) .empty).byService.keys := by
    intro t ht
    refine Kahn.mem_order.mpr (@mem_keys_of_mem_targetsAt t _ t.service ?_)
    rw [targetsAt_foldl, targetsAt_empty, List.nil_append]
    exact List.mem_filter.mpr ⟨ht, by simp⟩
  refine List.Perm.trans ?_ (SortedMap.flatMap_groups_perm nodup covers)
  refine List.Perm.flatMap_left _ fun service _ => ?_
  refine (List.perm_insertionSort _ _).trans (List.Perm.of_eq ?_)
  have hcollected := @targetsAt_foldl input members .empty service
  rwa [targetsAt_empty, List.nil_append] at hcollected

section Plan

variable {project trigger : String} {members : List ProjectMember} {tag : Option String}
  {defaults : PolicyDefaults} {own : Option String} {origin m : ProjectMember}

/-- **The targets and the skipped members of a plan are, in some order, the members that are
accounted for.** -/
theorem listed_perm (horigin : originOf members trigger = some origin) :
    (plan project members trigger tag defaults own).listed.Perm
      (((liveMembers members).filter
        (accounts (planInput (liveMembers members) origin tag defaults own))).map
          ProjectMember.name) := by
  refine List.Perm.trans ?_ (names_perm (liveMembers members))
  rw [plan_eq_assemble horigin, RolloutPlan.listed]
  generalize planInput (liveMembers members) origin tag defaults own = input
  have skipped : (assemble project (Compose.graphOf (liveMembers members))
      ((liveMembers members).foldl (planMember input) .empty)).skipped.Perm
        ((liveMembers members).filterMap (skipOf input)) := by
    refine (List.perm_insertionSort _ _).trans (List.Perm.of_eq ?_)
    rw [skipped_foldl]
    rfl
  exact ((targets_perm (liveMembers members)).map _).append (skipped.map _)

theorem accounts_iff :
    accounts (planInput (liveMembers members) origin tag defaults own) m = true ∧
      m ∈ liveMembers members ↔ m ∈ members ∧ Identified m ∧ Accountable origin m := by
  have hlive : m ∈ liveMembers members ↔ m ∈ members ∧ isArchiveName m.name = false := by
    simp [liveMembers]
  rw [accounts, Bool.and_eq_true, parse_isSome_iff, hlive]
  change (_ ∧ sameImage m (ImageRef.parse origin.imageRef) origin.imageId = true) ∧ _ ↔ _
  rw [sameImage_iff]
  constructor
  · rintro ⟨⟨⟨notOneoff, identified⟩, image⟩, hm, notArchive⟩
    exact ⟨hm, identified, notArchive, notOneoff, image⟩
  · rintro ⟨hm, identified, notArchive, notOneoff, image⟩
    exact ⟨⟨⟨notOneoff, identified⟩, image⟩, hm, notArchive⟩

/-- The trigger's row, in a listing of unique names. -/
theorem originOf_of_mem (nodup : (members.map ProjectMember.name).Nodup) (horigin : origin ∈ members)
    (notArchive : isArchiveName origin.name = false) :
    originOf members origin.name = some origin := by
  have hlive : origin ∈ liveMembers members := List.mem_filter.mpr ⟨horigin, by simp [notArchive]⟩
  cases hfind : originOf members origin.name with
  | none => exact absurd (List.find?_eq_none.mp hfind origin hlive) (by simp)
  | some found =>
      have hname : found.name = origin.name := by simpa using List.find?_some hfind
      have hfound := mem_of_live (List.mem_of_find?_eq_some hfind)
      rw [List.inj_on_of_nodup_map nodup hfound horigin hname]

/-- A target of a member's name is the member's. -/
theorem targetOf_of_container (nodup : (members.map ProjectMember.name).Nodup)
    (horigin : originOf members trigger = some origin) (hm : m ∈ members) {t : PlannedTarget}
    (ht : t ∈ (plan project members trigger tag defaults own).targets)
    (hname : t.container = m.name) :
    m ∈ liveMembers members ∧
      targetOf (planInput (liveMembers members) origin tag defaults own) m = some t := by
  obtain ⟨origin', horigin', m', hlive, htarget⟩ := mem_targets_plan.mp ht
  obtain rfl : origin = origin' := by simpa [horigin] using horigin'
  obtain ⟨-, -, -, -, hcontainer, -⟩ := targetOf_eq_some.mp htarget
  obtain rfl : m' = m :=
    List.inj_on_of_nodup_map nodup (mem_of_live hlive) hm (hcontainer.symm.trans hname)
  exact ⟨hlive, htarget⟩

/-- **A plan targets the permitted members and accounts for the rest**, when its trigger is not an
archive. -/
theorem plans_permitted (nodup : (members.map ProjectMember.name).Nodup) (horigin : origin ∈ members)
    (notArchive : isArchiveName origin.name = false) :
    PlansPermitted project members origin.name tag defaults own origin := by
  have hfind := originOf_of_mem nodup horigin notArchive
  have perm := @listed_perm project origin.name members tag defaults own origin hfind
  exact {
    targets := by
      intro m hm identified
      constructor
      · rintro ⟨t, ht, hname⟩
        obtain ⟨hlive, htarget⟩ := targetOf_of_container nodup hfind hm ht hname
        exact (targetOf_isSome_iff hlive identified).mp (by rw [htarget]; rfl)
      · intro permitted
        have hlive : m ∈ liveMembers members :=
          List.mem_filter.mpr ⟨hm, by simp [permitted.notArchive]⟩
        obtain ⟨t, htarget⟩ := Option.isSome_iff_exists.mp
          ((targetOf_isSome_iff hlive identified).mpr permitted)
        obtain ⟨-, -, -, -, hname, -⟩ := targetOf_eq_some.mp htarget
        exact ⟨t, mem_targets_plan.mpr ⟨origin, hfind, m, hlive, htarget⟩, hname⟩
    kind := by
      intro m hm t ht hname
      exact kind_of_targetOf (targetOf_of_container nodup hfind hm ht hname).2
    once := by
      intro m hm identified accountable
      obtain ⟨haccounts, hlive⟩ := (@accounts_iff members tag defaults own origin m).mpr
        ⟨hm, identified, accountable⟩
      rw [perm.count_eq]
      refine List.count_eq_one_of_mem ?_ (List.mem_map_of_mem (List.mem_filter.mpr ⟨hlive, haccounts⟩))
      exact nodup.sublist ((List.filter_sublist.trans List.filter_sublist).map _)
    only := by
      intro name hname
      obtain ⟨m, hm, rfl⟩ := List.mem_map.mp (perm.mem_iff.mp hname)
      obtain ⟨hlive, haccounts⟩ := List.mem_filter.mp hm
      obtain ⟨hm, identified, accountable⟩ := accounts_iff.mp ⟨haccounts, hlive⟩
      exact ⟨m, hm, rfl, identified, accountable⟩ }

end Plan

/-! An archive next to the container it was kept for. -/

def listedMember (name : String) (dependsOn : String) (running : Bool) : ProjectMember where
  name := name
  id := "id-" ++ name
  imageRef := "app"
  imageId := none
  labels := LabelMap.ofPairs [("com.docker.compose.project", "stack"),
    ("com.docker.compose.service", "web"), ("com.docker.compose.depends_on", dependsOn),
    ("freshdock.enable", "true"), ("freshdock.mode", "live")]
  running := running

def keptWeb : ProjectMember := listedMember "web" "" true

def archivedMember : ProjectMember := listedMember "web-old-1700000000" "" false

def archivedMembers : List ProjectMember := [archivedMember, keptWeb]

theorem permitted_keptWeb :
    Permitted archivedMembers archivedMember none ⟨none, false, false⟩ none keptWeb where
  notArchive := by decide
  notOneoff := by decide
  image := .inl rfl
  notSelf := by decide
  notOptedOut := by decide
  policy := ⟨_, rfl, nofun, .inl ⟨rfl, nofun⟩⟩
  notCurrent _ _ h := by cases h
  state := by
    refine ⟨nofun, ?_⟩
    rintro ⟨service, -, hawaited⟩
    rw [show Compose.servicesAwaitedForCompletion (Compose.graphOf (liveMembers archivedMembers)) = []
      by decide] at hawaited
    cases hawaited

/-- When the archive is the trigger, `web` is permitted, and no target. -/
theorem not_plansPermitted_archive :
    (archivedMembers.map ProjectMember.name).Nodup ∧ archivedMember ∈ archivedMembers ∧
      ¬ PlansPermitted "stack" archivedMembers archivedMember.name none ⟨none, false, false⟩ none
        archivedMember := by
  refine ⟨by decide, List.mem_cons_self, fun permitted => ?_⟩
  obtain ⟨t, ht, -⟩ := (permitted.targets keptWeb (List.mem_cons_of_mem _ List.mem_cons_self)
    (by unfold Identified; decide)).mpr permitted_keptWeb
  rw [show (plan "stack" archivedMembers archivedMember.name none ⟨none, false, false⟩ none).targets =
    [] by decide] at ht
  cases ht

/-- When `web` is the trigger, it is the one target. -/
theorem plans_permitted_web :
    PlansPermitted "stack" archivedMembers "web" none ⟨none, false, false⟩ none keptWeb :=
  plans_permitted (by decide) (List.mem_cons_of_mem _ List.mem_cons_self) (by decide)

end Freshdock.Rollout
