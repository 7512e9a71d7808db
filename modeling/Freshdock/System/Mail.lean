import Freshdock.Config.Notifications
import Freshdock.System.Notified

/-!
# How mail is sent

From the file and the environment to the mail that goes out in a run: it goes to the host and the
port of its table, with both a username and a password or with neither, and it is unencrypted only
where the operator asked for that in so many words, with `tls` in the file or in the address of a
variable (`mail_as_configured`).
-/

set_option autoImplicit false

namespace Freshdock.System

open Text Interaction Registry Notify
open Config (NotificationTarget Targets SmtpTls SmtpQuery UrlLib HashOrder Declaration Declares Keeps
  SameButSecret resolveSmtpTls)

/-! ## What a table asks for -/

/-- The table asks for a connection without encryption. -/
def AsksPlaintext : NotificationTarget → Prop
  | .smtp _ _ _ _ _ _ tls _ _ => tls = some .plaintext
  | _ => False

theorem resolveSmtpTls_plaintext {tls : Option SmtpTls} {starttls : Option Bool}
    (h : resolveSmtpTls tls starttls = .ok .plaintext) : tls = some .plaintext := by
  unfold resolveSmtpTls at h
  split at h <;> cases h
  rfl

theorem asksPlaintext_of_sameButSecret {table table' : NotificationTarget}
    (h : SameButSecret table table') (asks : AsksPlaintext table') : AsksPlaintext table := by
  have kept : ∀ table value, AsksPlaintext (Config.withSecret table value) ↔ AsksPlaintext table := by
    intro table value
    cases table <;> rfl
  rw [← kept table "", show Config.withSecret table "" = Config.withSecret table' "" from h, kept]
  exact asks

theorem asksPlaintext_setTriggers {table : NotificationTarget} {triggers : Option (List String)} :
    AsksPlaintext (Config.setTriggers table triggers) ↔ AsksPlaintext table := by
  cases table <;> rfl

/-! ## What an address asks for -/

/-- A query asks for a connection without encryption. -/
def QueryAsks (pairs : List (String × String)) : Prop :=
  ∃ raw, ("tls", raw) ∈ pairs ∧ toAsciiLowercase (trim raw) = "none"

theorem smtpTls_parse_plaintext {raw : String} (h : SmtpTls.parse raw = .ok .plaintext) :
    toAsciiLowercase (trim raw) = "none" := by
  unfold SmtpTls.parse at h
  dsimp only at h
  split_ifs at h with hstarttls himplicit hnone
  · cases h
  · cases h
  · exact hnone

/-- One key of a query sets the mode, or leaves it. -/
theorem read_tls {query query' : SmtpQuery} {pair : String × String}
    (h : query.read pair = .ok query') (asks : query'.tls = some .plaintext) :
    query.tls = some .plaintext ∨ QueryAsks [pair] := by
  obtain ⟨key, value⟩ := pair
  unfold SmtpQuery.read at h
  dsimp only at h
  split_ifs at h with hfrom hto htls hstarttls
  · cases h
    exact .inl asks
  · cases h
    exact .inl asks
  · obtain ⟨tls, hparse, h⟩ := bind_ok h
    cases h
    cases asks
    subst htls
    exact .inr ⟨value, List.mem_singleton_self _, smtpTls_parse_plaintext hparse⟩
  · cases h
    exact .inl asks
  · cases h
    exact .inl asks

theorem foldlM_read_tls {pairs : List (String × String)} {query query' : SmtpQuery}
    (h : pairs.foldlM SmtpQuery.read query = .ok query') (asks : query'.tls = some .plaintext) :
    query.tls = some .plaintext ∨ QueryAsks pairs := by
  induction pairs generalizing query with
  | nil =>
      cases h
      exact .inl asks
  | cons pair pairs ih =>
      rw [List.foldlM_cons] at h
      obtain ⟨first, hfirst, hrest⟩ := bind_ok h
      rcases ih hrest with hset | ⟨raw, hmem, hraw⟩
      · rcases read_tls hfirst hset with hbefore | ⟨raw, hmem, hraw⟩
        · exact .inl hbefore
        · rw [← List.mem_singleton.mp hmem]
          exact .inr ⟨raw, List.mem_cons_self, hraw⟩
      · exact .inr ⟨raw, List.mem_cons_of_mem _ hmem, hraw⟩

/-- **An address asks for plaintext in so many words.** -/
theorem parseNotifyUrl_plaintext {lib : UrlLib} {raw : String} {table : NotificationTarget}
    (h : Config.parseNotifyUrl lib raw = .ok table) (asks : AsksPlaintext table) :
    ∃ url, lib.parse raw = .ok url ∧ url.scheme = "smtp" ∧ QueryAsks url.queryPairs := by
  unfold Config.parseNotifyUrl at h
  cases hurl : lib.parse raw with
  | error e =>
      rw [hurl] at h
      cases h
  | ok url =>
      rw [hurl] at h
      dsimp only at h
      refine ⟨url, rfl, ?_⟩
      split_ifs at h with hhttp hdiscord htelegram hsmtp
      · cases h
        exact asks.elim
      · unfold Config.parseDiscordUrl at h
        dsimp only at h
        split_ifs at h
        cases h
        exact asks.elim
      · unfold Config.parseTelegramUrl at h
        dsimp only at h
        split_ifs at h
        split at h <;> cases h
        exact asks.elim
      · refine ⟨hsmtp, ?_⟩
        unfold Config.parseSmtpUrl at h
        split at h
        · cases h
        obtain ⟨query, hquery, h⟩ := bind_ok h
        split at h
        · cases h
        by_cases empty : query.toAddrs.isEmpty = true
        · rw [if_pos empty] at h
          cases h
        rw [if_neg empty] at h
        obtain ⟨tls, hresolve, h⟩ := bind_ok h
        cases h
        cases asks
        rcases foldlM_read_tls hquery (resolveSmtpTls_plaintext hresolve) with hstart | hasks
        · cases hstart
        · exact hasks

/-! ## Where a table comes from -/

section Sources

variable {lib : UrlLib} {files : Targets} {env : List (String × String)} {key : String}
  {table : NotificationTarget}

/-- A table after the first pass is one of before, or is declared. -/
theorem declare_source {names : List String} (decls : List Declaration)
    (h : (decls.foldl (Config.declareTarget lib names) files).get? key = some table) :
    files.get? key = some table ∨ ∃ decl ∈ decls, toAsciiLowercase decl.1 = key ∧
      Config.declaredTarget lib names decl = some table := by
  induction decls using List.reverseRecOn with
  | nil => exact .inl h
  | append_singleton decls decl ih =>
      have before : (decls.foldl (Config.declareTarget lib names) files).get? key = some table →
          files.get? key = some table ∨ ∃ d ∈ decls ++ [decl], toAsciiLowercase d.1 = key ∧
            Config.declaredTarget lib names d = some table := by
        intro hbefore
        rcases ih hbefore with hfile | ⟨d, hd, hkey, hdeclared⟩
        · exact .inl hfile
        · exact .inr ⟨d, List.mem_append_left _ hd, hkey, hdeclared⟩
      rw [List.foldl_append, List.foldl_cons, List.foldl_nil, Config.declareTarget_eq] at h
      cases hdeclared : Config.declaredTarget lib names decl with
      | none =>
          rw [hdeclared] at h
          exact before h
      | some new =>
          rw [hdeclared] at h
          dsimp only at h
          by_cases hkey : key = toAsciiLowercase decl.1
          · subst hkey
            rw [SortedMap.get?_insert_self] at h
            cases h
            exact .inr ⟨decl, by simp, rfl, hdeclared⟩
          · rw [SortedMap.get?_insert_of_ne _ _ hkey] at h
            exact before h

/-- **Every table is the file's or declared by a variable**, up to the secrets of the
environment. -/
theorem buildNotifications_source {order : HashOrder}
    (h : (Config.buildNotifications lib order files env).get? key = some table) :
    ∃ first, Keeps env key first table ∧ (files.get? key = some first ∨
      ∃ name, Declares lib files env name first ∧ toAsciiLowercase name = key) := by
  have hfold := @Config.overlay_get? (order.keys (Config.declareEnvTargets lib order files env).keys)
    env (Config.declareEnvTargets lib order files env) key
  have hlast : (env.foldl (Config.overlayVar (Config.indexKeys (order.keys
      (Config.declareEnvTargets lib order files env).keys)))
        (Config.declareEnvTargets lib order files env)).get? key = some table := h
  rw [hlast] at hfold
  obtain ⟨first, hfirst, hkept⟩ := Option.map_eq_some_iff.mp hfold.symm
  refine ⟨first, ?_, ?_⟩
  · rw [← hkept]
    split_ifs
    · exact Config.keeps_applyVars env key first
    · exact .inl rfl
  · rcases declare_source _ hfirst with hfile | ⟨decl, hdecl, hkey, hdeclared⟩
    · exact .inl hfile
    · exact .inr ⟨decl.1, Config.declares_iff.mpr
        ⟨decl, (order.decls_perm _).mem_iff.mp hdecl, rfl, hdeclared⟩, hkey⟩

/-- The operator asks for a connection without encryption: in the table of the file, or in the
query of an address. -/
def StatesPlaintext (lib : UrlLib) (files : Targets) (env : List (String × String))
    (key : String) : Prop :=
  (∃ table, files.get? key = some table ∧ AsksPlaintext table) ∨
    ∃ name raw url, toAsciiLowercase name = key ∧ Config.envValue env name "_URL" = some raw ∧
      lib.parse raw = .ok url ∧ url.scheme = "smtp" ∧ QueryAsks url.queryPairs

theorem statesPlaintext {order : HashOrder}
    (h : (Config.buildNotifications lib order files env).get? key = some table)
    (asks : AsksPlaintext table) : StatesPlaintext lib files env key := by
  obtain ⟨first, hkeeps, hsource⟩ := buildNotifications_source h
  have hfirst : AsksPlaintext first := asksPlaintext_of_sameButSecret hkeeps.sameButSecret asks
  rcases hsource with hfile | ⟨name, ⟨-, -, raw, declared, hurl, hparse, rfl⟩, hname⟩
  · exact .inl ⟨first, hfile, hfirst⟩
  · obtain ⟨url, hlib, hscheme, hquery⟩ :=
      parseNotifyUrl_plaintext hparse (asksPlaintext_setTriggers.mp hfirst)
    exact .inr ⟨name, raw, url, hname, hurl, hlib, hscheme, hquery⟩

end Sources

/-! ## The transport of a target -/

section Transports

variable {lib : MailLib} {name : String} {transport : SmtpTransport} {fromAddr : String}
  {toAddrs : List String}

/-- A transport is what the table says: its host, its port or the one for the mode, and both parts
of its login or none. -/
def Follows (transport : SmtpTransport) : NotificationTarget → Prop
  | .smtp host port username password _ _ tls starttls _ =>
      transport.host = host ∧ resolveSmtpTls tls starttls = .ok transport.tls ∧
        transport.port = port.getD (defaultSmtpPort transport.tls) ∧
        (username = none ∧ password = none ∧ transport.credentials = none ∨
          ∃ user pass, username = some user ∧ password = some pass ∧
            transport.credentials = some (user, pass))
  | _ => False

theorem mapError_eq_ok {ε ε' α : Type} {f : ε → ε'} {x : Except ε α} {a : α}
    (h : x.mapError f = .ok a) : x = .ok a := by
  cases x with
  | error e => cases h
  | ok b =>
      cases h
      rfl

theorem smtpCredentials_ok {username password : Option String}
    {credentials : Option (String × String)}
    (h : smtpCredentials name username password = .ok credentials) :
    username = none ∧ password = none ∧ credentials = none ∨
      ∃ user pass, username = some user ∧ password = some pass ∧
        credentials = some (user, pass) := by
  cases username <;> cases password <;> cases h
  · exact .inl ⟨rfl, rfl, rfl⟩
  · exact .inr ⟨_, _, rfl, rfl, rfl⟩

/-- **A mail target follows its table.** -/
theorem follows_of_buildTarget {table : NotificationTarget} {triggers : List Trigger}
    (h : buildTarget lib name table = .ok ⟨triggers, .smtp name transport fromAddr toAddrs⟩) :
    Follows transport table := by
  obtain ⟨⟨list, notifier⟩, hnotifier, h⟩ := bind_ok h
  obtain ⟨triggers', -, h⟩ := bind_ok h
  cases h
  cases table with
  | smtp host port username password =>
      obtain ⟨⟨mode, number⟩, htransport, hsmtp⟩ := bind_ok hnotifier
      obtain ⟨notifier', hnotifier', hsame⟩ := bind_ok hsmtp
      cases hsame
      obtain ⟨resolved, hresolved, hmode⟩ := bind_ok htransport
      cases hmode
      obtain ⟨sender, -, hrest⟩ := bind_ok hnotifier'
      obtain ⟨recipients, -, hrest⟩ := bind_ok hrest
      split_ifs at hrest
      obtain ⟨_, -, hrest⟩ := bind_ok hrest
      obtain ⟨credentials, hcredentials, hrest⟩ := bind_ok hrest
      cases hrest
      exact ⟨rfl, mapError_eq_ok hresolved, rfl, smtpCredentials_ok hcredentials⟩
  | _ => cases hnotifier

end Transports

/-! ## Mail that is sent -/

section Sent

variable {registry : OciRegistry} {targets : List Target} {α : Type} {p : Prog α}
  {below : List SystemEvent} {out : Option α}

/-- A message goes through the notifier of a target. -/
theorem notifier_of_sent {c : NotifyCall} {reply : Option (Except NotifyError Unit)}
    (run : Produces (wired registry targets p) below out) (sent : ⟨.notify c, reply⟩ ∈ below) :
    ∃ target ∈ targets, target.notifier = c.notifier := by
  obtain ⟨events, -, carried⟩ := run.of_inline
  obtain ⟨before, after, rfl⟩ := List.append_of_mem sent
  obtain ⟨first, inner, last, rest, rfl, rfl, ⟨call, reply'⟩, -, hrun⟩ := carried.tiled.place rfl
  have mem : (⟨.notify c, reply⟩ : SystemEvent) ∈ inner ++ ⟨.notify c, reply⟩ :: last :=
    List.mem_append_right _ List.mem_cons_self
  dsimp only at hrun
  generalize inner ++ (⟨.notify c, reply⟩ : SystemEvent) :: last = all at hrun mem
  cases carriedOut hrun with
  | fetched =>
      obtain ⟨_, -, hother⟩ := List.mem_map.mp mem
      cases hother
  | @dispatched event sends _ hdispatch =>
      obtain ⟨⟨c', reply''⟩, hsends, hsame⟩ := List.mem_map.mp mem
      cases hsame
      have hcall : c' ∈ messages targets event :=
        (produces_dispatch hdispatch).1.subset (List.mem_map.mpr ⟨_, hsends, rfl⟩)
      unfold messages at hcall
      split at hcall
      · obtain ⟨target, htarget, rfl⟩ := List.mem_map.mp hcall
        exact ⟨target, (List.mem_filter.mp htarget).1, rfl⟩
      · cases hcall
  | host _ _ hhost =>
      rcases Produces.request_cases (c := SystemCall.host call) hhost with
        ⟨rfl, -⟩ | ⟨reply', rfl, -⟩
      · cases mem
      · cases List.mem_singleton.mp mem

/-- **Mail is sent as configured**, from the file and the environment to the messages of any run:
as the table of its target says, and unencrypted only where the operator states it. -/
theorem mail_as_configured {mail : MailLib} {urls : UrlLib} {order : HashOrder} {files : Targets}
    {env : List (String × String)} {tables : List (String × NotificationTarget)}
    (perm : tables.Perm (Config.buildNotifications urls order files env).entries)
    (run : Produces (wired registry (fromConfig mail tables) p) below out) {c : NotifyCall}
    {reply : Option (Except NotifyError Unit)} (sent : ⟨.notify c, reply⟩ ∈ below) {name : String}
    {transport : SmtpTransport} {fromAddr : String} {toAddrs : List String}
    (smtp : c.notifier = .smtp name transport fromAddr toAddrs) :
    (∃ table, (Config.buildNotifications urls order files env).get? name = some table ∧
      Follows transport table) ∧
      (transport.tls = .plaintext → StatesPlaintext urls files env name) := by
  obtain ⟨⟨triggers, notifier⟩, mem, hnotifier⟩ := notifier_of_sent run sent
  obtain rfl : notifier = .smtp name transport fromAddr toAddrs := hnotifier.trans smtp
  obtain ⟨⟨name', table⟩, hentry, built⟩ := mem_fromConfig_iff.mp mem
  obtain rfl : name = name' := buildTarget_name built
  have hget : (Config.buildNotifications urls order files env).get? name = some table :=
    SortedMap.mem_entries_iff.mp (perm.mem_iff.mp hentry)
  have follows : Follows transport table := follows_of_buildTarget built
  refine ⟨⟨table, hget, follows⟩, fun plain => statesPlaintext hget ?_⟩
  cases table with
  | smtp host port username password _ _ tls starttls _ =>
      have resolved := follows.2.1
      rw [plain] at resolved
      exact resolveSmtpTls_plaintext resolved
  | _ => exact follows.elim

/-! ### A local catcher -/

/-- Every address and every host will do. -/
def anyMail : MailLib := ⟨.ok, fun _ => .ok ()⟩

def catcherFile : Targets :=
  SortedMap.empty.insert "catcher"
    (.smtp "localhost" none none none "freshdock@localhost" ["ops@localhost"] (some .plaintext)
      none none)

def noUrls : UrlLib := ⟨fun _ => .error "relative URL without a base", id⟩

/-- Hash maps are visited in order. -/
def inOrder : HashOrder := ⟨id, id, fun _ => .refl _, fun _ => .refl _⟩

def catcherRun : Run SystemCall SystemCall.Reply Unit Unit :=
  play deafHandler (wired noRegistry (fromConfig anyMail
    (Config.buildNotifications noUrls inOrder catcherFile []).entries) watchReport) ()

theorem mail_as_configured_catcher :
    catcherRun.trace.length = 1 ∧ StatesPlaintext noUrls catcherFile [] "catcher" := by
  have sends := mail_as_configured (.refl _)
    (play_produces deafHandler (wired noRegistry (fromConfig anyMail
      (Config.buildNotifications noUrls inOrder catcherFile []).entries) watchReport) ())
    (List.mem_of_getElem? (show catcherRun.trace[0]? = some ⟨.notify ⟨.smtp "catcher"
      ⟨.plaintext, "localhost", 25, none⟩ "freshdock@localhost" ["ops@localhost"], _⟩, _⟩ from rfl))
    rfl
  exact ⟨rfl, sends.2 rfl⟩

end Sent

end Freshdock.System
