import Mathlib.Data.Stream.Init
import Freshdock.Foundation.Fallible
import Freshdock.Scheduler
import Freshdock.System

/-!
# What the targets hear

Whatever the scheduler does and however the sending goes, a target of the configuration is sent
the events that it subscribes to, rendered, in the order in which they happen, and nothing else
(`targets_hear`). What the other targets are, and whether messages to them get through, makes no
difference to it.

For the scheduler the targets make no difference at all: without them it could do the same
(`notifying_changes_nothing`).
-/

set_option autoImplicit false

namespace Freshdock.System

open Interaction Registry Notify
open Config (NotificationTarget Targets)

/-! ## One event -/

section OneEvent

/-- The messages that an event leads to. -/
def messages (targets : List Target) (event : NotifyEvent) : List NotifyCall :=
  match render event with
  | some msg =>
      (targets.filter (·.triggers.contains (trigger event))).map fun target => ⟨target.notifier, msg⟩
  | none => []

/-- The calls are those in the list, or those up to some point that ended the program. -/
def Sends (calls : List NotifyCall) (run : List NotifyCallEvent) (out : Option Unit) : Prop :=
  run.map Event.call <+: calls ∧ (out = some () → run.map Event.call = calls)

theorem produces_sendAll {trigger : Trigger} {msg : RenderedMessage} {targets : List Target}
    {run : List NotifyCallEvent} {out : Option Unit}
    (h : Produces (sendAll trigger msg targets) run out) :
    Sends ((targets.filter (·.triggers.contains trigger)).map fun target => ⟨target.notifier, msg⟩)
      run out := by
  induction targets generalizing run with
  | nil =>
      obtain ⟨rfl, -⟩ := produces_done_iff.mp h
      exact ⟨List.nil_prefix, fun _ => rfl⟩
  | cons target targets ih =>
      rw [sendAll] at h
      by_cases subscribed : target.triggers.contains trigger = true
      · rw [if_pos subscribed] at h
        rw [List.filter_cons, if_pos subscribed, List.map_cons]
        cases h with
        | cut => exact ⟨List.nil_prefix, nofun⟩
        | unanswered => exact ⟨List.prefix_cons_inj _ |>.mpr List.nil_prefix, nofun⟩
        | answered _ _ r rest =>
            obtain ⟨hfront, hall⟩ := ih rest
            refine ⟨(List.prefix_cons_inj _).mpr hfront, fun hout => ?_⟩
            rw [List.map_cons, hall hout]
      · rw [if_neg subscribed] at h
        rw [List.filter_cons, if_neg subscribed]
        exact ih h

/-- **A dispatch sends the messages of its event**, whatever becomes of them. -/
theorem produces_dispatch {targets : List Target} {event : NotifyEvent}
    {run : List NotifyCallEvent} {out : Option Unit}
    (h : Produces (dispatch targets event) run out) : Sends (messages targets event) run out := by
  unfold dispatch at h
  unfold messages
  by_cases empty : targets.isEmpty = true
  · rw [if_pos empty] at h
    obtain ⟨rfl, -⟩ := produces_done_iff.mp h
    rw [List.isEmpty_iff.mp empty]
    cases render event <;> exact ⟨List.nil_prefix, fun _ => rfl⟩
  · rw [if_neg empty] at h
    cases hmsg : render event with
    | none =>
        rw [hmsg] at h
        cases h
        exact ⟨List.nil_prefix, nofun⟩
    | some msg =>
        rw [hmsg] at h
        exact produces_sendAll h

/-- A message for the target of a name. -/
def toName (name : String) (c : NotifyCall) : Option RenderedMessage :=
  if c.notifier.name = name then some c.message else none

/-- What one target is told of an event. -/
def toldOf (target : Target) (event : NotifyEvent) : Option RenderedMessage :=
  if target.triggers.contains (trigger event) then render event else none

theorem messages_cons (target : Target) (targets : List Target) (event : NotifyEvent) :
    messages (target :: targets) event =
      ((toldOf target event).map (NotifyCall.mk target.notifier)).toList ++ messages targets event := by
  unfold messages toldOf
  cases render event with
  | none => simp
  | some msg =>
      by_cases subscribed : target.triggers.contains (trigger event) = true
      · simp only [List.filter_cons, if_pos subscribed]
        rfl
      · simp only [List.filter_cons, if_neg subscribed]
        rfl

/-- Nothing is sent under a name that no target has. -/
theorem messages_of_not_mem {targets : List Target} {name : String} (event : NotifyEvent)
    (h : name ∉ targets.map fun target => target.notifier.name) :
    (messages targets event).filterMap (toName name) = [] := by
  rw [List.filterMap_eq_nil_iff]
  intro c hc
  unfold messages at hc
  cases hmsg : render event with
  | none =>
      rw [hmsg] at hc
      cases hc
  | some msg =>
      rw [hmsg] at hc
      obtain ⟨target, htarget, rfl⟩ := List.mem_map.mp hc
      refine if_neg fun hname => h ?_
      exact List.mem_map.mpr ⟨target, (List.mem_filter.mp htarget).1, hname⟩

/-- The one target of a name is sent what it is told. -/
theorem messages_of_mem {targets : List Target} {target : Target} (event : NotifyEvent)
    (distinct : (targets.map fun target => target.notifier.name).Nodup) (h : target ∈ targets) :
    (messages targets event).filterMap (toName target.notifier.name) =
      (toldOf target event).toList := by
  induction targets with
  | nil => cases h
  | cons first targets ih =>
      rw [List.map_cons, List.nodup_cons] at distinct
      rw [messages_cons, List.filterMap_append]
      rcases List.mem_cons.mp h with rfl | hmem
      · rw [messages_of_not_mem event distinct.1, List.append_nil]
        cases toldOf target event with
        | none => rfl
        | some msg => simp [toName]
      · rw [ih distinct.2 hmem]
        have other : first.notifier.name ≠ target.notifier.name := fun hname =>
          distinct.1 (hname ▸ List.mem_map_of_mem hmem)
        cases toldOf first event with
        | none => rfl
        | some msg => simp [toName, other]

end OneEvent

/-! ## Whole runs -/

section Runs

variable {registry : OciRegistry} {targets : List Target}

/-- The messages sent under a name. -/
def heard (name : String) (below : List SystemEvent) : List RenderedMessage :=
  below.filterMap fun e => match e.call with
    | .notify c => toName name c
    | _ => none

/-- The messages under a name that a call of the scheduler leads to. -/
def spoken (targets : List Target) (name : String) : Call → List RenderedMessage
  | .dispatch event => (messages targets event).filterMap (toName name)
  | _ => []

theorem heard_append (name : String) (below below' : List SystemEvent) :
    heard name (below ++ below') = heard name below ++ heard name below' :=
  List.filterMap_append

theorem heard_ofNotify (name : String) (run : List NotifyCallEvent) :
    heard name (run.map ofNotify) = (run.map Event.call).filterMap (toName name) := by
  unfold heard
  rw [List.filterMap_map, List.filterMap_map]
  rfl

/-- What is heard of one call. -/
theorem heard_of_carriedOut (name : String) {c : Call} {run : List SystemEvent}
    {reply : Option c.Reply} (h : CarriedOut registry targets c run reply) :
    heard name run <+: spoken targets name c ∧
      (reply.isSome = true → heard name run = spoken targets name c) := by
  cases h with
  | @fetched image events reply hrun =>
      have silent : heard name (events.map ofRegistry) = [] := by
        unfold heard
        rw [List.filterMap_map]
        exact List.filterMap_eq_nil_iff.mpr fun _ _ => rfl
      rw [silent]
      exact ⟨List.nil_prefix, fun _ => rfl⟩
  | dispatched hrun =>
      obtain ⟨hfront, hall⟩ := produces_dispatch hrun
      rw [heard_ofNotify]
      refine ⟨hfront.filterMap _, fun answered => ?_⟩
      rw [hall (Option.eq_some_of_isSome answered)]
      rfl
  | host nofetch nodispatch hrun =>
      have silent : heard name run = [] := by
        rcases Produces.request_cases (c := SystemCall.host c) hrun with
          ⟨rfl, -⟩ | ⟨reply, rfl, -⟩ <;> rfl
      have nothing : spoken targets name c = [] := by
        cases c <;> first | rfl | exact absurd rfl (nodispatch _)
      rw [silent, nothing]
      exact ⟨List.nil_prefix, fun _ => rfl⟩

/-- **What is heard of a run is what its events lead to**, up to the point where it was cut. -/
theorem heard_of_carried (name : String) {events : List CallEvent} {below : List SystemEvent}
    (carried : Carried (carryOut registry targets) events below) :
    heard name below <+: events.flatMap (fun e => spoken targets name e.call) ∧
      ((∀ e ∈ events, e.reply.isSome = true) →
        heard name below = events.flatMap fun e => spoken targets name e.call) := by
  induction carried with
  | nil => exact ⟨List.nil_prefix, fun _ => rfl⟩
  | answered hrun _ ih =>
      have hfirst := (heard_of_carriedOut name (carriedOut hrun)).2 rfl
      rw [heard_append, List.flatMap_cons, hfirst]
      refine ⟨(List.prefix_append_right_inj _).mpr ih.1, fun answered => ?_⟩
      rw [ih.2 fun e he => answered e (List.mem_cons_of_mem _ he)]
  | unanswered hrun =>
      have hlast := heard_of_carriedOut name (carriedOut hrun)
      rw [List.flatMap_singleton]
      exact ⟨hlast.1, fun answered => hlast.2 (answered _ List.mem_cons_self)⟩

end Runs

/-! ## The targets of the configuration -/

section Configured

variable {lib : MailLib} {name : String} {table : NotificationTarget} {target : Target}

theorem smtpNotifier_name {host : String} {port : Nat} {username password : Option String}
    {fromAddr : String} {toAddrs : List String} {tls : Config.SmtpTls} {notifier : Notifier}
    (h : smtpNotifier lib name host port username password fromAddr toAddrs tls = .ok notifier) :
    notifier.name = name := by
  obtain ⟨sender, -, h⟩ := bind_ok h
  obtain ⟨recipients, -, h⟩ := bind_ok h
  split_ifs at h
  obtain ⟨-, -, h⟩ := bind_ok h
  obtain ⟨credentials, -, h⟩ := bind_ok h
  cases h
  rfl

/-- A target has the name of its table. -/
theorem buildTarget_name (h : buildTarget lib name table = .ok target) :
    target.notifier.name = name := by
  obtain ⟨⟨triggers, notifier⟩, hnotifier, h⟩ := bind_ok h
  obtain ⟨triggers', -, h⟩ := bind_ok h
  cases h
  cases table with
  | smtp =>
      obtain ⟨⟨tls, port⟩, -, hsmtp⟩ := bind_ok hnotifier
      obtain ⟨notifier', hnotifier', h⟩ := bind_ok hsmtp
      cases h
      exact smtpNotifier_name hnotifier'
  | _ =>
      cases hnotifier
      rfl

variable {tables : List (String × NotificationTarget)}

theorem mem_fromConfig_iff : target ∈ fromConfig lib tables ↔
    ∃ entry ∈ tables, buildTarget lib entry.1 entry.2 = .ok target := by
  unfold fromConfig
  simp only [List.mem_filterMap, toOption_eq_some_iff]

/-- The names of the targets are among the names of the tables, in their order. -/
theorem names_sublist (lib : MailLib) (tables : List (String × NotificationTarget)) :
    ((fromConfig lib tables).map fun target => target.notifier.name).Sublist
      (tables.map Prod.fst) := by
  induction tables with
  | nil => exact .slnil
  | cons entry tables ih =>
      unfold fromConfig at ih ⊢
      rw [List.filterMap_cons, List.map_cons]
      cases built : buildTarget lib entry.1 entry.2 with
      | error e => exact ih.cons _
      | ok target =>
          rw [← buildTarget_name built]
          exact ih.cons_cons _

/-- What one target is told of the events of a run. -/
def told (target : Target) (events : List CallEvent) : List RenderedMessage :=
  events.flatMap fun e => match e.call with
    | .dispatch event => (toldOf target event).toList
    | _ => []

/-- All calls of a run that returned were answered. -/
theorem answered_of_produces {α : Type} {p : Prog α} {events : List CallEvent} {a : α}
    (h : Produces p events (some a)) : ∀ e ∈ events, e.reply.isSome = true := by
  generalize hout : some a = out at h
  induction h with
  | done => simp
  | cut => cases hout
  | unanswered => cases hout
  | answered c next r _ ih =>
      intro e he
      rcases List.mem_cons.mp he with rfl | he
      · rfl
      · exact ih hout e he

/-- **Every target hears what it subscribes to.** In a run of any program of freshdock, the
messages sent under the name of a table are the events of the run that its target subscribes to,
rendered and in order (up to some point, when the run was cut there); under the name of a table
that no target can be built from, and under any other name, nothing is sent. -/
theorem targets_hear (lib : MailLib) (config : Targets) (perm : tables.Perm config.entries)
    {α : Type} {registry : OciRegistry} {p : Prog α} {below : List SystemEvent} {out : Option α}
    (run : Produces (wired registry (fromConfig lib tables) p) below out) :
    ∃ events, Produces p events out ∧ ∀ name,
      (∀ table target, config.get? name = some table → buildTarget lib name table = .ok target →
        heard name below <+: told target events ∧
          (out.isSome = true → heard name below = told target events)) ∧
      ((∀ table target, config.get? name = some table → buildTarget lib name table ≠ .ok target) →
        heard name below = []) := by
  have keys : (tables.map Prod.fst).Nodup :=
    (perm.map Prod.fst).nodup_iff.mpr (config.sorted.imp fun h => ne_of_lt h)
  have distinct := keys.sublist (names_sublist lib tables)
  obtain ⟨events, hevents, carried⟩ := run.of_inline
  refine ⟨events, hevents, fun name => ⟨fun table target hget built => ?_, fun unbuilt => ?_⟩⟩
  · have mem : target ∈ fromConfig lib tables :=
      mem_fromConfig_iff.mpr ⟨(name, table),
        perm.mem_iff.mpr (SortedMap.mem_entries_iff.mpr hget), built⟩
    have spoke : ∀ c, spoken (fromConfig lib tables) name c = match c with
        | .dispatch event => (toldOf target event).toList
        | _ => [] := by
      intro c
      cases c <;> try rfl
      rw [← buildTarget_name built]
      exact messages_of_mem _ distinct mem
    have hheard := heard_of_carried name carried
    simp only [spoke] at hheard
    refine ⟨hheard.1, fun hout => hheard.2 ?_⟩
    obtain ⟨a, rfl⟩ := Option.isSome_iff_exists.mp hout
    exact answered_of_produces hevents
  · have absent : name ∉ (fromConfig lib tables).map fun target => target.notifier.name := by
      intro hmem
      obtain ⟨target, htarget, rfl⟩ := List.mem_map.mp hmem
      obtain ⟨⟨name', table⟩, hentry, built⟩ := mem_fromConfig_iff.mp htarget
      obtain rfl : target.notifier.name = name' := buildTarget_name built
      exact unbuilt table target (SortedMap.mem_entries_iff.mp (perm.mem_iff.mp hentry)) built
    have silent : ∀ c, spoken (fromConfig lib tables) name c = [] := by
      intro c
      cases c <;> try rfl
      exact messages_of_not_mem _ absent
    have hheard := (heard_of_carried name carried).1
    rw [List.flatMap_eq_nil_iff.mpr fun e _ => silent e.call] at hheard
    exact List.prefix_nil.mp hheard

/-! ### A watched container -/

/-- Two targets for all events, one of them with a trigger that there is not. -/
def opsConfig : Targets :=
  (SortedMap.empty.insert "ops" (.webhook "https://ops.example.com/hook" none)).insert "old"
    (.webhook "https://old.example.com/hook" (some ["update"]))

/-- No mail is sent here. -/
def noMail : MailLib := ⟨fun _ => .error "", fun _ => .error ""⟩

/-- Without the host and the registry. Messages do not get through. -/
def deafHandler : Handler SystemCall SystemCall.Reply Unit
  | .host _, s => (none, s)
  | .registry _, s => (none, s)
  | .notify _, s => (some (.error (.status 503)), s)

/-- No registry is asked. -/
def noRegistry : OciRegistry := ⟨⟨.empty⟩, none, fun _ => none⟩

/-- A new image for a watched container is reported. -/
def watchReport : Prog Unit := request (.dispatch (.updateAvailable "web" "nginx:1" "sha256:12"))

def watchRun : Run SystemCall SystemCall.Reply Unit Unit :=
  play deafHandler (wired noRegistry (fromConfig noMail opsConfig.entries) watchReport) ()

theorem targets_hear_ops : ∃ events, Produces watchReport events (some ()) ∧
    heard "ops" watchRun.trace =
      told ⟨Trigger.all, .webhook "ops" "https://ops.example.com/hook"⟩ events ∧
    heard "old" watchRun.trace = [] := by
  obtain ⟨events, hevents, hears⟩ := targets_hear noMail opsConfig (.refl _)
    (play_produces deafHandler (wired noRegistry _ watchReport) ())
  refine ⟨events, hevents, ?_, ?_⟩
  · exact ((hears "ops").1 _ _ rfl rfl).2 rfl
  · refine (hears "old").2 fun table target hget => ?_
    cases hget
    exact nofun

end Configured

/-! ## With and without targets -/

section Silence

variable {registry : OciRegistry} {targets : List Target} {α : Type} {p : Prog α}

def isMessage (e : SystemEvent) : Bool :=
  match e.call with
  | .notify _ => true
  | _ => false

/-- A run without its messages. -/
def unsent (below : List SystemEvent) : List SystemEvent := below.filter fun e => !isMessage e

theorem unsent_ofRegistry (events : List RegistryEvent) :
    unsent (events.map ofRegistry) = events.map ofRegistry := by
  rw [unsent, List.filter_eq_self]
  intro e he
  obtain ⟨_, -, rfl⟩ := List.mem_map.mp he
  rfl

theorem unsent_ofNotify (events : List NotifyCallEvent) : unsent (events.map ofNotify) = [] := by
  rw [unsent, List.filter_eq_nil_iff]
  intro e he
  obtain ⟨_, -, rfl⟩ := List.mem_map.mp he
  exact Bool.false_ne_true

/-- Calls other than dispatches are carried out without messages. -/
theorem carryOut_of_not_dispatch {c : Call} (h : ∀ event, c ≠ .dispatch event)
    (targets' : List Target) : carryOut registry targets c = carryOut registry targets' c := by
  cases c <;> first | rfl | exact absurd rfl (h _)

theorem unsent_of_not_dispatch {c : Call} (h : ∀ event, c ≠ .dispatch event)
    {run : List SystemEvent} {reply : Option c.Reply}
    (hrun : Produces (carryOut registry targets c) run reply) : unsent run = run := by
  cases carriedOut hrun with
  | fetched => exact unsent_ofRegistry _
  | dispatched => exact absurd rfl (h _)
  | host _ _ hrun =>
      rcases Produces.request_cases (c := SystemCall.host c) hrun with
        ⟨rfl, -⟩ | ⟨reply, rfl, -⟩ <;> rfl

/-- A call without its messages is carried out as if there were no targets. -/
theorem produces_unsent {c : Call} {run : List SystemEvent} {reply : Option c.Reply}
    (hrun : Produces (carryOut registry targets c) run reply) :
    Produces (carryOut registry [] c) (unsent run) reply := by
  by_cases hc : ∃ event, c = .dispatch event
  · obtain ⟨event, rfl⟩ := hc
    obtain ⟨events, -, rfl⟩ := renames_notify.of_inline hrun
    rw [unsent_ofNotify]
    cases reply with
    | none => exact .cut _
    | some _ => exact .done ()
  · have other : ∀ event, c ≠ .dispatch event := fun event h => hc ⟨event, h⟩
    have same : carryOut registry targets c = carryOut registry [] c :=
      carryOut_of_not_dispatch other []
    rw [unsent_of_not_dispatch other hrun, ← same]
    exact hrun

/-- **Notifying changes nothing.** What freshdock does and returns in a run with targets, it can
do and return without any. -/
theorem notifying_changes_nothing {below : List SystemEvent} {out : Option α}
    (run : Produces (wired registry targets p) below out) :
    Produces (wired registry [] p) (unsent below) out := by
  obtain ⟨events, hevents, carried⟩ := run.of_inline
  exact hevents.inline (carried.filter _ fun _ _ _ => produces_unsent)

theorem notifying_changes_nothing_ops :
    Produces (wired noRegistry [] watchReport) (unsent watchRun.trace) (some ()) :=
  notifying_changes_nothing (play_produces deafHandler
    (wired noRegistry (fromConfig noMail opsConfig.entries) watchReport) ())

/-! ### However the sending goes -/

/-- The messages, with what becomes of each: the first one has the first fate. -/
def sent (fates : Stream' (Except NotifyError Unit)) : List NotifyCall → List NotifyCallEvent
  | [] => []
  | c :: calls => ⟨c, some fates.head⟩ :: sent fates.tail calls

theorem produces_sent_sendAll (fates : Stream' (Except NotifyError Unit)) (trigger : Trigger)
    (msg : RenderedMessage) (targets : List Target) :
    Produces (sendAll trigger msg targets) (sent fates
      ((targets.filter (·.triggers.contains trigger)).map fun target => ⟨target.notifier, msg⟩))
      (some ()) := by
  induction targets generalizing fates with
  | nil => exact .done ()
  | cons target targets ih =>
      rw [sendAll, List.filter_cons]
      by_cases subscribed : target.triggers.contains trigger = true
      · rw [if_pos subscribed, if_pos subscribed]
        exact .answered _ _ _ (ih fates.tail)
      · rw [if_neg subscribed, if_neg subscribed]
        exact ih fates

/-- A dispatch of an event that can be shown returns, whatever becomes of its messages. -/
theorem produces_sent_dispatch (fates : Stream' (Except NotifyError Unit))
    {event : NotifyEvent} (shown : (render event).isSome = true) (targets : List Target) :
    Produces (dispatch targets event) (sent fates (messages targets event)) (some ()) := by
  obtain ⟨msg, hmsg⟩ := Option.isSome_iff_exists.mp shown
  unfold dispatch messages
  rw [hmsg]
  by_cases empty : targets.isEmpty = true
  · rw [if_pos empty, List.isEmpty_iff.mp empty]
    exact .done ()
  · rw [if_neg empty]
    exact produces_sent_sendAll fates _ msg targets

def fateOf : SystemEvent → Option (Option (Except NotifyError Unit))
  | ⟨.notify _, reply⟩ => some reply
  | _ => none

/-- What became of the messages of a run, in their order. -/
def fatesOf (below : List SystemEvent) : List (Option (Except NotifyError Unit)) :=
  below.filterMap fateOf

/-- The messages of a run had these fates, one after the other. -/
def Fated (fates : Stream' (Except NotifyError Unit)) (below : List SystemEvent) : Prop :=
  fatesOf below = (fates.take (fatesOf below).length).map some

theorem fatesOf_append (below below' : List SystemEvent) :
    fatesOf (below ++ below') = fatesOf below ++ fatesOf below' := List.filterMap_append

/-- Later messages have the later fates. -/
theorem Fated.append {fates : Stream' (Except NotifyError Unit)} {below below' : List SystemEvent}
    (h : Fated fates below) (h' : Fated (fates.drop (fatesOf below).length) below') :
    Fated fates (below ++ below') := by
  unfold Fated at h h' ⊢
  rw [fatesOf_append, List.length_append, Stream'.take_add, List.map_append, ← h, ← h']

theorem fated_of_unsent {below : List SystemEvent} (h : unsent below = below)
    (fates : Stream' (Except NotifyError Unit)) : Fated fates below := by
  have none : fatesOf below = [] := by
    refine List.filterMap_eq_nil_iff.mpr fun e he => ?_
    rw [← h] at he
    have silent := (List.mem_filter.mp he).2
    obtain ⟨c, reply⟩ := e
    cases c with
    | notify c => cases silent
    | _ => rfl
  rw [Fated, none]
  rfl

theorem fatesOf_sent (fates : Stream' (Except NotifyError Unit)) (calls : List NotifyCall) :
    fatesOf ((sent fates calls).map ofNotify) = (fates.take calls.length).map some := by
  induction calls generalizing fates with
  | nil => rfl
  | cons c calls ih =>
      rw [List.length_cons, Stream'.take_succ, List.map_cons, ← ih fates.tail]
      rfl

theorem fated_sent (fates : Stream' (Except NotifyError Unit)) (calls : List NotifyCall) :
    Fated fates ((sent fates calls).map ofNotify) := by
  rw [Fated, fatesOf_sent, List.length_map, Stream'.length_take]

/-- One call, carried out with messages that have the given fates. -/
theorem exists_sent (fates : Stream' (Except NotifyError Unit)) {c : Call}
    {plain : List SystemEvent} {reply : Option c.Reply}
    (hrun : Produces (carryOut registry [] c) plain reply)
    (shown : ∀ event, c = .dispatch event → (render event).isSome = true) :
    ∃ run, Produces (carryOut registry targets c) run reply ∧ unsent run = plain ∧
      Fated fates run := by
  by_cases hc : ∃ event, c = .dispatch event
  · obtain ⟨event, rfl⟩ := hc
    obtain ⟨rfl, -⟩ := produces_done_iff.mp hrun
    cases reply with
    | none => exact ⟨[], .cut _, rfl, rfl⟩
    | some _ =>
        have sends := produces_sent_dispatch fates (shown event rfl) targets
        refine ⟨_, sends.rename fun c reply => produces_request (SystemCall.notify c) reply,
          unsent_ofNotify _, fated_sent fates _⟩
  · have other : ∀ event, c ≠ .dispatch event := fun event h => hc ⟨event, h⟩
    have same : carryOut registry [] c = carryOut registry targets c :=
      carryOut_of_not_dispatch other targets
    have still := unsent_of_not_dispatch other hrun
    rw [same] at hrun
    exact ⟨plain, hrun, still, fated_of_unsent still fates⟩

/-- **Sending blocks nothing.** What freshdock does without targets it does with any targets too,
whatever becomes of each message, as long as its events can be shown. -/
theorem sending_blocks_nothing (targets : List Target) (fates : Stream' (Except NotifyError Unit))
    {events : List CallEvent} {plain : List SystemEvent} {out : Option α}
    (produced : Produces p events out) (carried : Carried (carryOut registry []) events plain)
    (shown : ∀ event reply, ⟨.dispatch event, reply⟩ ∈ events → (render event).isSome = true) :
    ∃ below, Produces (wired registry targets p) below out ∧ unsent below = plain ∧
      Fated fates below := by
  have along : ∃ below, Carried (carryOut registry targets) events below ∧ unsent below = plain ∧
      Fated fates below := by
    clear produced
    induction carried generalizing fates with
    | nil => exact ⟨[], .nil, rfl, rfl⟩
    | @answered c r events run plain hrun _ ih =>
        obtain ⟨run', hrun', hplain, fated⟩ := exists_sent fates hrun
          (by rintro event rfl; exact shown event _ List.mem_cons_self)
        -- the rest of the run goes on with the fates that are left
        obtain ⟨below, carried, hrest, fated'⟩ := ih (fates.drop (fatesOf run').length)
          fun event reply hmem => shown event reply (List.mem_cons_of_mem _ hmem)
        refine ⟨run' ++ below, .answered hrun' carried, ?_, fated.append fated'⟩
        rw [unsent, List.filter_append, ← unsent, ← unsent, hplain, hrest]
    | @unanswered c run hrun =>
        obtain ⟨run', hrun', hplain, fated⟩ := exists_sent fates hrun
          (by rintro event rfl; exact shown event _ List.mem_cons_self)
        exact ⟨run', .unanswered hrun', hplain, fated⟩
  obtain ⟨below, carried, hplain, fated⟩ := along
  exact ⟨below, produced.inline carried, hplain, fated⟩

/-- The same report twice: the first message is refused, and the second one gets through. -/
theorem sending_blocks_nothing_ops :
    ∃ below, Produces (wired noRegistry (fromConfig noMail opsConfig.entries)
        (watchReport >>= fun _ => watchReport)) below (some ()) ∧ unsent below = [] ∧
      Fated (Stream'.cons (.error (.status 503)) (Stream'.const (.ok ()))) below := by
  have report : Produces watchReport
      [⟨.dispatch (.updateAvailable "web" "nginx:1" "sha256:12"), some ()⟩] (some ()) :=
    produces_request (Call.dispatch (.updateAvailable "web" "nginx:1" "sha256:12")) _
  have carried : Carried (carryOut noRegistry [])
      [⟨.dispatch (.updateAvailable "web" "nginx:1" "sha256:12"), some ()⟩,
        ⟨.dispatch (.updateAvailable "web" "nginx:1" "sha256:12"), some ()⟩] ([] ++ ([] ++ [])) :=
    .answered (.done ()) (.answered (.done ()) .nil)
  refine sending_blocks_nothing _ _ (report.bind report) carried fun event reply hmem => ?_
  rcases List.mem_pair.mp hmem with h | h <;> cases h <;> rfl

end Silence

end Freshdock.System
