import PluginSlot.Platform.Act
/-!
The handshake, from both sides. The loader arms the reply before it posts an event, so that a reply
to that event is never overwritten.
-/
namespace PluginSlot.Handshake
open Kernel Platform

variable {κ σ : Type}

/-- How waiting for the plugin ended. -/
inductive Ack where
  | acknowledged
  | timedOut
deriving DecidableEq, Repr

def signal (arbiter : Handle) (word : SharedWord) : Act κ σ (Except Platform.Error Unit) := do
  let words ← Act.words
  Act.call (.signal arbiter word (words.get word))

/-- Wait until a word is at least the bound. -/
def wait (arbiter : Handle) (word : SharedWord) (bound : Int32) (timeout : UInt64) :
    Act κ σ (WaitAnswer bound) := do
  let words ← Act.words
  let answer ← Act.call (.wait arbiter word (words.get word) bound timeout)
  Act.setWord word answer.value
  pure answer

def notify (arbiter : Handle) (event : Int32) : Act κ σ (Except Platform.Error Unit) := do
  Act.setWord .reply awaiting
  Act.setWord .event event
  signal arbiter .event

/-- Wait for the plugin's reply. A reply that comes with the timeout still counts. -/
def waitForReply (arbiter : Handle) (timeout : UInt64) : Act κ σ (Except Platform.Error Ack) := do
  let words ← Act.words
  if words.reply ≥ ok then pure (.ok .acknowledged)
  else
    let answer ← wait arbiter .reply ok timeout
    match answer.outcome with
    | .reached _ => pure (.ok .acknowledged)
    | .failed .timeout =>
      pure (.ok (if answer.value ≥ ok then .acknowledged else .timedOut))
    | .failed e => pure (.error e)

/-- The plugin's side: wait for an event. -/
def pluginWait (arbiter : Handle) (timeout : UInt64) : Act κ σ (Except Platform.Error Int32) := do
  let words ← Act.words
  if words.event ≠ ok then pure (.ok words.event)
  else
    let answer ← wait arbiter .event (ok + 1) timeout
    match answer.outcome with
    | .reached _ => pure (.ok answer.value)
    | .failed e => pure (.error e)

/-- The plugin's side: acknowledge the event. -/
def pluginReply (arbiter : Handle) : Act κ σ (Except Platform.Error Unit) := do
  Act.setWord .reply ok
  signal arbiter .reply

end PluginSlot.Handshake
