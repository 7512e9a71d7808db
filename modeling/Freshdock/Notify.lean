import Freshdock.Calls
import Freshdock.Config

/-!
# Notifications

An event is rendered once and sent to every target that subscribes to its trigger. A target that
cannot be built from its table is left out, and a message that cannot be sent is given up, so
neither keeps a message from the other targets.

Sending a message is a call, whose reply may be any error: that the message cannot be put
together, that the connection fails, or that the other side refuses.

**Outside code.** What the mail library makes of an address, and which hosts it can connect to, is
a parameter (`MailLib`).
-/

set_option autoImplicit false

namespace Freshdock.Notify

open Text Interaction Registry
open Config (NotificationTarget SmtpTls resolveSmtpTls)

/-! ## Events -/

inductive Trigger where
  | available | succeeded | failed
  deriving DecidableEq, Repr

def Trigger.asStr : Trigger → String
  | .available => "available"
  | .succeeded => "succeeded"
  | .failed => "failed"

/-- A trigger of the configuration, or the token that is none. -/
def Trigger.parse (token : String) : Except String Trigger :=
  let token := toAsciiLowercase (trim token)
  if token = "available" then .ok .available
  else if token = "succeeded" then .ok .succeeded
  else if token = "failed" then .ok .failed
  else .error token

def Trigger.all : List Trigger := [.available, .succeeded, .failed]

def trigger : NotifyEvent → Trigger
  | .updateAvailable .. => .available
  | .updateSucceeded .. => .succeeded
  | .updateFailed .. => .failed
  | .rolloutAborted .. => .failed

/-- What an event is about; for a rollout, the project. -/
def container : NotifyEvent → String
  | .updateAvailable container _ _ => container
  | .updateSucceeded container _ _ => container
  | .updateFailed container _ _ _ _ => container
  | .rolloutAborted project _ _ _ => project

def reasonText : RollbackReason → String
  | .healthTimeout => "health check timed out"
  | .crashed => "the new container crashed"

def nameList (names : List String) : String :=
  if names.isEmpty then "none" else ", ".intercalate names

structure RenderedMessage where
  title : String
  body : String
  trigger : Trigger
  container : String
  deriving DecidableEq, Repr

/-- The title and the body of a message, unless a digest or an id cannot be shown. -/
def text : NotifyEvent → Option (String × String)
  | .updateAvailable container image latestDigest =>
      (shortDigest latestDigest).map fun digest =>
        ("Update available: " ++ container,
          "A newer image is available for " ++ image ++ " (" ++ digest ++ "). " ++
            "Not applied — this container is in watch mode.")
  | .updateSucceeded container image newId =>
      (shortDigest newId).map fun id =>
        ("Updated: " ++ container,
          container ++ " was updated to " ++ image ++ " and passed its health check " ++
            "(new container " ++ id ++ ").")
  | .updateFailed container reason oldImageRef newImageRef restoredFrom =>
      some ("Update failed: " ++ container,
        "Updating " ++ container ++ " from " ++ oldImageRef ++ " to " ++ newImageRef ++
          " failed the health gate (" ++ reasonText reason ++
          "); rolled back to the previous container (" ++ restoredFrom ++ ").")
  | .rolloutAborted project reason completed remaining =>
      some ("Rollout aborted: " ++ project,
        "The compose project " ++ project ++ " was rolled out as one unit and stopped " ++
          "part-way: " ++ reason ++ ". Updated before stopping: " ++ nameList completed ++
          ". Not updated, still serving the previous image: " ++ nameList remaining ++ ".")

/-- The one text of an event. -/
def render (event : NotifyEvent) : Option RenderedMessage :=
  (text event).map fun (title, body) => ⟨title, body, trigger event, container event⟩

/-! ## Targets -/

inductive NotifyError where
  | http (text : String)
  | status (code : Nat)
  | smtp (text : String)
  | config (name reason : String)
  deriving DecidableEq, Repr

/-- What a mail library makes of an address and of a host. -/
structure MailLib where
  mailbox : String → Except String String
  /-- The relay for an encrypted connection to a host. -/
  relay : String → Except String Unit

/-- How mail is sent. -/
structure SmtpTransport where
  tls : SmtpTls
  host : String
  port : Nat
  credentials : Option (String × String)
  deriving DecidableEq, Repr

/-- What sends the messages of a target. -/
inductive Notifier where
  | webhook (name url : String)
  | discord (name webhookUrl : String)
  | telegram (name botToken chatId baseUrl : String)
  | smtp (name : String) (transport : SmtpTransport) (fromAddr : String) (toAddrs : List String)
  deriving DecidableEq, Repr

def Notifier.name : Notifier → String
  | .webhook name _ => name
  | .discord name _ => name
  | .telegram name _ _ _ => name
  | .smtp name _ _ _ => name

structure Target where
  triggers : List Trigger
  notifier : Notifier
  deriving DecidableEq, Repr

def parseTrigger (name token : String) : Except NotifyError Trigger :=
  (Trigger.parse token).mapError fun bad => .config name ("unknown trigger `" ++ bad ++
    "` (expected available, succeeded, or failed)")

/-- A target without a list of triggers subscribes to all. -/
def parseTriggers (name : String) : Option (List String) → Except NotifyError (List Trigger)
  | none => .ok Trigger.all
  | some list => list.mapM (parseTrigger name)

def defaultSmtpPort : SmtpTls → Nat
  | .starttls => 587
  | .implicit => 465
  | .plaintext => 25

/-- The mode of a target's connection, and the port, which follows the mode. -/
def smtpTransport (name : String) (tls : Option SmtpTls) (starttls : Option Bool)
    (port : Option Nat) : Except NotifyError (SmtpTls × Nat) := do
  let tls ← (resolveSmtpTls tls starttls).mapError (NotifyError.config name)
  pure (tls, port.getD (defaultSmtpPort tls))

def mailbox (lib : MailLib) (name addr : String) : Except NotifyError String :=
  (lib.mailbox addr).mapError fun e =>
    .config name ("invalid email address `" ++ addr ++ "`: " ++ e)

/-- The relay for a mode. A plaintext connection is never refused here. -/
def relayFor (lib : MailLib) (name host : String) : SmtpTls → Except NotifyError Unit
  | .plaintext => pure ()
  | .starttls | .implicit => (lib.relay host).mapError fun e =>
      .config name ("invalid smtp relay `" ++ host ++ "`: " ++ e)

/-- Both a username and a password, or none of them. -/
def smtpCredentials (name : String) :
    Option String → Option String → Except NotifyError (Option (String × String))
  | some user, some pass => .ok (some (user, pass))
  | none, none => .ok none
  | _, _ => .error (.config name "smtp `username` and `password` must be set together")

def smtpNotifier (lib : MailLib) (name host : String) (port : Nat)
    (username password : Option String) (fromAddr : String) (toAddrs : List String)
    (tls : SmtpTls) : Except NotifyError Notifier := do
  let sender ← mailbox lib name fromAddr
  let recipients ← toAddrs.mapM (mailbox lib name)
  if recipients.isEmpty then .error (.config name "smtp target has no `to` recipients")
  else do
    relayFor lib name host tls
    let credentials ← smtpCredentials name username password
    pure (.smtp name ⟨tls, host, port, credentials⟩ sender recipients)

/-- Where Telegram's bots are. -/
def defaultBaseUrl : String := "https://api.telegram.org"

/-- The sender of a table, and its list of triggers. -/
def notifierFor (lib : MailLib) (name : String) :
    NotificationTarget → Except NotifyError (Option (List String) × Notifier)
  | .webhook url triggers => pure (triggers, .webhook name url)
  | .discord webhookUrl triggers => pure (triggers, .discord name webhookUrl)
  | .telegram botToken chatId triggers =>
      pure (triggers, .telegram name botToken chatId defaultBaseUrl)
  | .smtp host port username password fromAddr toAddrs tls starttls triggers => do
      let (tls, port) ← smtpTransport name tls starttls port
      let notifier ← smtpNotifier lib name host port username password fromAddr toAddrs tls
      pure (triggers, notifier)

def buildTarget (lib : MailLib) (name : String) (table : NotificationTarget) :
    Except NotifyError Target := do
  let (triggers, notifier) ← notifierFor lib name table
  let triggers ← parseTriggers name triggers
  pure ⟨triggers, notifier⟩

/-- The targets that can be built, in the order in which their tables are visited. -/
def fromConfig (lib : MailLib) (tables : List (String × NotificationTarget)) : List Target :=
  tables.filterMap fun table => (buildTarget lib table.1 table.2).toOption

/-! ## Messages -/

/-- What a target is sent. -/
inductive Delivery where
  | webhook (url event container title body : String)
  | discord (url title description : String) (color : Nat)
  | telegram (url chatId text : String)
  | mail (transport : SmtpTransport) (fromAddr : String) (toAddrs : List String)
      (subject body : String)
  deriving DecidableEq, Repr

def color : Trigger → Nat
  | .available => 0xF1C40F
  | .succeeded => 0x2ECC71
  | .failed => 0xE74C3C

def Notifier.delivery (msg : RenderedMessage) : Notifier → Delivery
  | .webhook _ url => .webhook url msg.trigger.asStr msg.container msg.title msg.body
  | .discord _ url => .discord url msg.title msg.body (color msg.trigger)
  | .telegram _ botToken chatId baseUrl =>
      .telegram (baseUrl ++ "/bot" ++ botToken ++ "/sendMessage") chatId
        (msg.title ++ "\n\n" ++ msg.body)
  | .smtp _ transport fromAddr toAddrs => .mail transport fromAddr toAddrs msg.title msg.body

/-- A message to send through a notifier. -/
structure NotifyCall where
  notifier : Notifier
  message : RenderedMessage
  deriving DecidableEq, Repr

def NotifyCall.Reply (_ : NotifyCall) : Type := Except NotifyError Unit

/-- What goes out for a call. -/
def NotifyCall.delivery (c : NotifyCall) : Delivery := c.notifier.delivery c.message

abbrev NotifyProg (α : Type) : Type := Program NotifyCall NotifyCall.Reply α

abbrev NotifyCallEvent : Type := Event NotifyCall NotifyCall.Reply

/-- Send a message to the targets that subscribe to a trigger. A failure is given up. -/
def sendAll (trigger : Trigger) (msg : RenderedMessage) : List Target → NotifyProg Unit
  | [] => pure ()
  | target :: targets =>
      if target.triggers.contains trigger then do
        let _sent : Except NotifyError Unit ← Program.request ⟨target.notifier, msg⟩
        sendAll trigger msg targets
      else sendAll trigger msg targets

/-- Render an event and send it. A text that cannot be shown panics. -/
def dispatch (targets : List Target) (event : NotifyEvent) : NotifyProg Unit :=
  if targets.isEmpty then pure ()
  else
    match render event with
    | some msg => sendAll (trigger event) msg targets
    | none => .stalled

end Freshdock.Notify
