import Freshdock.Interaction.Inline
import Freshdock.Notify
import Freshdock.Registry.Fetch

/-!
# The system

For the scheduler, asking for a digest and reporting an event are single calls. Here they are
what carries them out: the requests of a fetch, and a message for every target that subscribes.
All other calls go to the host.

A run of a program of freshdock in the system is a run of the program in which every digest came
from a fetch and every event was dispatched (`Wired.refines`).
-/

set_option autoImplicit false

namespace Freshdock

open Interaction Registry Notify

inductive SystemCall where
  /-- To the daemon or a clock. -/
  | host (c : Call)
  | registry (c : RegistryCall)
  | notify (c : NotifyCall)

def SystemCall.Reply : SystemCall → Type
  | .host c => c.Reply
  | .registry c => c.Reply
  | .notify c => c.Reply

abbrev SystemProg (α : Type) : Type := Program SystemCall SystemCall.Reply α

abbrev SystemEvent : Type := Event SystemCall SystemCall.Reply

namespace System

def ofRegistry (e : RegistryEvent) : SystemEvent := ⟨.registry e.call, e.reply⟩

def ofNotify (e : NotifyCallEvent) : SystemEvent := ⟨.notify e.call, e.reply⟩

def askHost (c : Call) : SystemProg c.Reply := Program.request (SystemCall.host c)

def askRegistry (c : RegistryCall) : SystemProg c.Reply := Program.request (SystemCall.registry c)

def askNotifier (c : NotifyCall) : SystemProg c.Reply := Program.request (SystemCall.notify c)

/-- What carries out a call of the scheduler. -/
def carryOut (registry : OciRegistry) (targets : List Target) : (c : Call) → SystemProg c.Reply
  | .fetchDigest image => (registry.fetchDigest image).run.inline askRegistry
  | .dispatch event => (dispatch targets event).inline askNotifier
  | c => askHost c

/-- A program of freshdock in the system. -/
def wired (registry : OciRegistry) (targets : List Target) {α : Type} (p : Prog α) :
    SystemProg α :=
  p.inline (carryOut registry targets)

section Runs

variable {registry : OciRegistry} {targets : List Target}

theorem renames_registry : Renames askRegistry ofRegistry :=
  fun c _ _ h => Produces.request_cases (c := SystemCall.registry c) h

theorem renames_notify : Renames askNotifier ofNotify :=
  fun c _ _ h => Produces.request_cases (c := SystemCall.notify c) h

/-- **What carries out a call**: a fetch, a dispatch, or the call itself. -/
inductive CarriedOut (registry : OciRegistry) (targets : List Target) :
    (c : Call) → List SystemEvent → Option c.Reply → Prop where
  | fetched {image : ImageRef} {events : List RegistryEvent}
      {reply : Option (Except RegistryError String)} :
      Produces (registry.fetchDigest image).run events reply →
        CarriedOut registry targets (.fetchDigest image) (events.map ofRegistry) reply
  | dispatched {event : NotifyEvent} {events : List NotifyCallEvent} {reply : Option Unit} :
      Produces (dispatch targets event) events reply →
        CarriedOut registry targets (.dispatch event) (events.map ofNotify) reply
  | host {c : Call} {run : List SystemEvent} {reply : Option c.Reply} :
      (∀ image, c ≠ .fetchDigest image) → (∀ event, c ≠ .dispatch event) →
        Produces (askHost c) run reply →
          CarriedOut registry targets c run reply

theorem carriedOut {c : Call} {run : List SystemEvent} {reply : Option c.Reply}
    (h : Produces (carryOut registry targets c) run reply) :
    CarriedOut registry targets c run reply := by
  cases c with
  | fetchDigest image =>
      obtain ⟨events, hevents, rfl⟩ := renames_registry.of_inline h
      exact .fetched hevents
  | dispatch event =>
      obtain ⟨events, hevents, rfl⟩ := renames_notify.of_inline h
      exact .dispatched hevents
  | _ => exact .host nofun nofun h

end Runs

end System

end Freshdock
