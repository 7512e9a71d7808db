import Freshdock.Foundation.SortedMap
import Freshdock.Foundation.Text

/-!
# Notification targets

The targets of the config file, and the `FRESHDOCK_NOTIFY_*` variables that add to them: a
`_URL` variable declares a target, with `_TRIGGERS` beside it, and `_BOT_TOKEN` and `_PASSWORD`
put a secret into a target.

**Outside code.** How a URL is taken apart and how its login is decoded is a parameter
(`UrlLib`). So is the order in which hash maps are visited (`HashOrder`): declarations are made
one after the other in that order, and the index of the targets keeps the last of the keys with
one environment form.
-/

set_option autoImplicit false

namespace Freshdock.Config

open Text

/-- How the SMTP connection is secured. -/
inductive SmtpTls where
  | starttls | implicit | plaintext
  deriving DecidableEq, Repr

def SmtpTls.text : SmtpTls → String
  | .starttls => "starttls"
  | .implicit => "implicit"
  | .plaintext => "none"

def SmtpTls.parse (raw : String) : Except String SmtpTls :=
  let token := toAsciiLowercase (trim raw)
  if token = "starttls" then .ok .starttls
  else if token = "implicit" then .ok .implicit
  else if token = "none" then .ok .plaintext
  else .error ("unknown smtp tls mode `" ++ raw ++ "` (expected starttls, implicit, or none)")

/-- One mode from the `tls` key and its legacy alias; they may agree, but not contradict. -/
def resolveSmtpTls : Option SmtpTls → Option Bool → Except String SmtpTls
  | some .starttls, some true => .ok .starttls
  | some .implicit, some false => .ok .implicit
  | some tls, some starttls =>
      .error ("tls = \"" ++ tls.text ++ "\" contradicts starttls = " ++ toString starttls ++
        "; remove the legacy starttls key")
  | some tls, none => .ok tls
  | none, some true => .ok .starttls
  | none, some false => .ok .implicit
  | none, none => .ok .starttls

/-- One `[notifications.<name>]` table. -/
inductive NotificationTarget where
  | webhook (url : String) (triggers : Option (List String))
  | discord (webhookUrl : String) (triggers : Option (List String))
  | telegram (botToken chatId : String) (triggers : Option (List String))
  | smtp (host : String) (port : Option Nat) (username password : Option String)
      (fromAddr : String) (toAddrs : List String) (tls : Option SmtpTls) (starttls : Option Bool)
      (triggers : Option (List String))
  deriving DecidableEq, Repr

/-- What the URL parser makes of a URL. -/
structure Url where
  scheme : String
  /-- Empty when there is none. -/
  username : String
  password : Option String
  hostStr : Option String
  port : Option Nat
  queryPairs : List (String × String)

/-- The URL parser, with its error texts, and the decoder of percent-encoded text. -/
structure UrlLib where
  parse : String → Except String Url
  pctDecode : String → String

def parseEnvBool (raw : String) : Option Bool :=
  let token := toAsciiLowercase (trim raw)
  if token = "true" ∨ token = "1" then some true
  else if token = "false" ∨ token = "0" then some false
  else none

/-- The items between commas, trimmed, without the empty ones. -/
def splitCsv (raw : String) : List String := ((split raw ',').map trim).filter (· ≠ "")

/-- `none` subscribes to all events. -/
def splitTriggers (raw : String) : Option (List String) :=
  let list := splitCsv raw
  if list.isEmpty then none else some list

def setTriggers : NotificationTarget → Option (List String) → NotificationTarget
  | .webhook url _, triggers => .webhook url triggers
  | .discord webhookUrl _, triggers => .discord webhookUrl triggers
  | .telegram botToken chatId _, triggers => .telegram botToken chatId triggers
  | .smtp host port username password fromAddr toAddrs tls starttls _, triggers =>
      .smtp host port username password fromAddr toAddrs tls starttls triggers

/-! ## A target from a URL -/

/-- The settings of an `smtp://` URL that its query gives. -/
structure SmtpQuery where
  fromAddr : Option String
  toAddrs : List String
  tls : Option SmtpTls
  starttls : Option Bool

/-- One key of the query. An invalid `tls` is an error, an invalid `starttls` is ignored. -/
def SmtpQuery.read (query : SmtpQuery) (pair : String × String) : Except String SmtpQuery :=
  if pair.1 = "from" then .ok { query with fromAddr := some pair.2 }
  else if pair.1 = "to" then .ok { query with toAddrs := query.toAddrs ++ splitCsv pair.2 }
  else if pair.1 = "tls" then do
    let tls ← SmtpTls.parse pair.2
    .ok { query with tls := some tls }
  else if pair.1 = "starttls" then
    .ok { query with starttls := (parseEnvBool pair.2).or query.starttls }
  else .ok query

def parseDiscordUrl (url : Url) : Except String NotificationTarget :=
  let id := url.hostStr.getD ""
  if url.username = "" ∨ id = "" then .error "expected discord://TOKEN@WEBHOOK_ID"
  else .ok (.discord ("https://discord.com/api/webhooks/" ++ id ++ "/" ++ url.username) none)

/-- A bot token has a colon, which the URL parser takes for the start of a password. -/
def parseTelegramUrl (lib : UrlLib) (url : Url) : Except String NotificationTarget :=
  if url.username = "" then .error "expected telegram://BOT_TOKEN@telegram?chats=CHAT_ID"
  else
    let id := lib.pctDecode url.username
    let botToken :=
      match url.password with
      | some pass => id ++ ":" ++ lib.pctDecode pass
      | none => id
    let chats := (url.queryPairs.filter fun pair => pair.1 = "chats" ∨ pair.1 = "chat_id").flatMap
      fun pair => splitCsv pair.2
    match chats.head? with
    | none => .error "telegram:// requires ?chats=<id>"
    | some chatId => .ok (.telegram botToken chatId none)

def parseSmtpUrl (lib : UrlLib) (url : Url) : Except String NotificationTarget :=
  match url.hostStr.filter (· ≠ "") with
  | none => .error "smtp:// requires a host"
  | some host => do
      let username := if url.username = "" then none else some (lib.pctDecode url.username)
      let password := url.password.map lib.pctDecode
      let query ← url.queryPairs.foldlM SmtpQuery.read ⟨none, [], none, none⟩
      match query.fromAddr with
      | none => .error "smtp:// requires ?from=<addr>"
      | some fromAddr =>
          if query.toAddrs.isEmpty then .error "smtp:// requires ?to=<addr>[,<addr>…]"
          else do
            let tls ← resolveSmtpTls query.tls query.starttls
            .ok (.smtp host url.port username password fromAddr query.toAddrs (some tls) none none)

def parseNotifyUrl (lib : UrlLib) (raw : String) : Except String NotificationTarget :=
  match lib.parse raw with
  | .error e => .error ("not a valid URL: " ++ e)
  | .ok url =>
      if url.scheme = "http" ∨ url.scheme = "https" then .ok (.webhook raw none)
      else if url.scheme = "discord" then parseDiscordUrl url
      else if url.scheme = "telegram" then parseTelegramUrl lib url
      else if url.scheme = "smtp" then parseSmtpUrl lib url
      else .error ("unknown scheme `" ++ url.scheme ++
        "` (expected discord, telegram, smtp, http, or https)")

/-! ## The environment -/

abbrev Targets : Type := SortedMap String NotificationTarget

/-- A name, its `_URL` and its `_TRIGGERS`. -/
abbrev Declaration : Type := String × Option String × Option String

/-- In which order the entries of hash maps are visited. -/
structure HashOrder where
  decls : List Declaration → List Declaration
  keys : List String → List String
  decls_perm : ∀ l, (decls l).Perm l
  keys_perm : ∀ l, (keys l).Perm l

/-- A target's name in the environment: upper case, with underscores for dashes. -/
def notifyEnvName (key : String) : String := replaceChar (toAsciiUppercase key) '-' '_'

/-- The name before a suffix. An empty name is never acted on. -/
def namedSuffix (tail suffix : String) : Option String :=
  (stripSuffix tail suffix).filter (· ≠ "")

def notifyPrefix : String := "FRESHDOCK_NOTIFY_"

/-- Put one variable to the declarations. -/
def gatherVar (decls : SortedMap String (Option String × Option String)) (var : String × String) :
    SortedMap String (Option String × Option String) :=
  match stripPrefix var.1 notifyPrefix with
  | none => decls
  | some rest =>
      match namedSuffix rest "_URL" with
      | some name => decls.alter name fun decl => (some var.2, (decl.getD (none, none)).2)
      | none =>
          match namedSuffix rest "_TRIGGERS" with
          | some name => decls.alter name fun decl => ((decl.getD (none, none)).1, some var.2)
          | none => decls

def gatherDecls (env : List (String × String)) :
    SortedMap String (Option String × Option String) :=
  env.foldl gatherVar .empty

/-- Declare one target, unless a target of the file has its name. -/
def declareTarget (lib : UrlLib) (fileNames : List String) (targets : Targets)
    (decl : Declaration) : Targets :=
  match decl.2.1 with
  | none => targets
  | some url =>
      if fileNames.contains decl.1 then targets
      else
        match parseNotifyUrl lib url with
        | .ok target => targets.insert (toAsciiLowercase decl.1)
            (setTriggers target (decl.2.2.bind splitTriggers))
        | .error _ => targets

def declareEnvTargets (lib : UrlLib) (order : HashOrder) (targets : Targets)
    (env : List (String × String)) : Targets :=
  let fileNames := targets.keys.map notifyEnvName
  (order.decls (gatherDecls env).entries).foldl (declareTarget lib fileNames) targets

/-- The keys of the targets by their names in the environment. -/
def envIndex (order : HashOrder) (targets : Targets) : SortedMap String String :=
  (order.keys targets.keys).foldl (fun index key => index.insert (notifyEnvName key) key) .empty

/-- Change the target that the index has for a name. -/
def changeIndexed (index : SortedMap String String) (targets : Targets) (name : String)
    (change : NotificationTarget → NotificationTarget) : Targets :=
  match index.get? name with
  | none => targets
  | some key =>
      match targets.get? key with
      | none => targets
      | some target => targets.insert key (change target)

/-- Put a bot token into a Telegram target. -/
def setBotToken (value : String) : NotificationTarget → NotificationTarget
  | .telegram _ chatId triggers => .telegram value chatId triggers
  | target => target

/-- Put a password into an SMTP target. -/
def setPassword (value : String) : NotificationTarget → NotificationTarget
  | .smtp host port username _ fromAddr toAddrs tls starttls triggers =>
      .smtp host port username (some value) fromAddr toAddrs tls starttls triggers
  | target => target

/-- Put the secret of one variable into the target it names. -/
def overlayVar (index : SortedMap String String) (targets : Targets) (var : String × String) :
    Targets :=
  match stripPrefix var.1 notifyPrefix with
  | none => targets
  | some rest =>
      match namedSuffix rest "_BOT_TOKEN" with
      | some name => changeIndexed index targets name (setBotToken var.2)
      | none =>
          match namedSuffix rest "_PASSWORD" with
          | some name => changeIndexed index targets name (setPassword var.2)
          | none => targets

/-- The targets of the file and of the environment, with the secrets of the environment. -/
def buildNotifications (lib : UrlLib) (order : HashOrder) (targets : Targets)
    (env : List (String × String)) : Targets :=
  let declared := declareEnvTargets lib order targets env
  env.foldl (overlayVar (envIndex order declared)) declared

end Freshdock.Config
