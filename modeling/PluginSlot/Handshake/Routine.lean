import PluginSlot.Handshake.Basic
/-!
The routines of both sides, one access at a time. Between two accesses of one side the other may act, so
a routine is given by its stages: what it does next, and where the answer leads. With nobody in between,
the moves of a routine make up the routine.
-/
namespace PluginSlot.Handshake
open Kernel Platform

variable {S κ σ : Type}

/-- What a routine does next, and the stage that follows. -/
inductive Move (S : Type) where
  | load (word : SharedWord) (next : Int32 → S)
  | store (word : SharedWord) (value : Int32) (next : S)
  | signal (word : SharedWord) (next : Except Platform.Error Unit → S)
  /-- Sleep while a word is below a bound. -/
  | await (word : SharedWord) (bound : Int32) (next : Except Platform.Error Unit → S)

/-- How far the loader is in one of its routines, or how its last one ended. -/
inductive LoaderStage where
  | idle
  | arming (event : Int32)
  | posting (event : Int32)
  | announcing
  | notified (answer : Except Platform.Error Unit)
  | checking
  | sleeping
  | rechecking
  | waited (answer : Except Platform.Error Ack)

/-- How far the plugin is in one of its routines, or how its last one ended. -/
inductive PluginStage where
  | idle
  | checking
  | sleeping
  | obtained (answer : Except Platform.Error Int32)
  | replying
  | announcing
  | replied (answer : Except Platform.Error Unit)

/-- No move is left at the end of a routine. -/
def LoaderStage.move? : LoaderStage → Option (Move LoaderStage)
  | arming event => some (.store .reply awaiting (posting event))
  | posting event => some (.store .event event announcing)
  | announcing => some (.signal .event notified)
  | checking => some (.load .reply fun value =>
      if value ≥ ok then waited (.ok .acknowledged) else sleeping)
  | sleeping => some (.await .reply ok fun
      | .ok _ => checking
      | .error .timeout => rechecking
      | .error e => waited (.error e))
  | rechecking => some (.load .reply fun value =>
      waited (.ok (if value ≥ ok then .acknowledged else .timedOut)))
  | idle | notified _ | waited _ => none

def PluginStage.move? : PluginStage → Option (Move PluginStage)
  | checking => some (.load .event fun value =>
      if value ≠ ok then obtained (.ok value) else sleeping)
  | sleeping => some (.await .event (ok + 1) fun
      | .ok _ => checking
      | .error e => obtained (.error e))
  | replying => some (.store .reply ok announcing)
  | announcing => some (.signal .reply replied)
  | idle | obtained _ | replied _ => none

def Move.perform (arbiter : Handle) (timeout : UInt64) : Move S → Act κ σ S
  | load word next => do
    let words ← Act.words
    pure (next (words.get word))
  | store word value next => do
    Act.setWord word value
    pure next
  | signal word next => do
    let answer ← Handshake.signal arbiter word
    pure (next answer)
  | await word bound next => do
    let answer ← wait arbiter word bound timeout
    match answer.outcome with
    | .reached _ => pure (next (.ok ()))
    | .failed e => pure (next (.error e))

/-- So many moves in a row, with nobody in between. -/
def moves (move? : S → Option (Move S)) (arbiter : Handle) (timeout : UInt64) :
    Nat → S → Act κ σ S
  | 0, s => pure s
  | n + 1, s =>
    match move? s with
    | none => pure s
    | some move => do moves move? arbiter timeout n (← move.perform arbiter timeout)

/-- A wait leaves in the word what it says. -/
theorem get_wait (arbiter : Handle) (word : SharedWord) (bound : Int32) (timeout : UInt64)
    (h : Handler κ σ) (m : Machine κ σ) :
    (wait arbiter word bound timeout h m).2.words.get word =
      (wait arbiter word bound timeout h m).1.value := Words.get_set _ _ _

theorem notify_eq_moves (arbiter : Handle) (timeout : UInt64) (event : Int32) :
    (do return .notified (← notify arbiter event) : Act κ σ LoaderStage) =
      moves LoaderStage.move? arbiter timeout 3 (.arming event) := rfl

/-- A wait that succeeds leaves the word at its bound or above, so the check after it is the last. -/
theorem waitForReply_eq_moves (arbiter : Handle) (timeout : UInt64) :
    (do return .waited (← waitForReply arbiter timeout) : Act κ σ LoaderStage) =
      moves LoaderStage.move? arbiter timeout 3 .checking := by
  funext h m
  have hload : moves LoaderStage.move? arbiter timeout 3 .checking h m =
      moves LoaderStage.move? arbiter timeout 2
        (if m.words.reply ≥ ok then .waited (.ok .acknowledged) else .sleeping) h m := rfl
  rw [hload, Act.bind_run, waitForReply, Act.bind_run, Act.words]
  by_cases hr : m.words.reply ≥ ok
  · rw [if_pos hr, if_pos hr]
    rfl
  · rw [if_neg hr, if_neg hr]
    have hword := get_wait arbiter .reply ok timeout h m
    simp only [moves, LoaderStage.move?, Move.perform, Act.bind_run]
    generalize wait arbiter .reply ok timeout h m = ended at hword ⊢
    obtain ⟨⟨value, outcome⟩, m'⟩ := ended
    have hreply : m'.words.reply = value := hword
    cases outcome with
    | reached hv =>
      have hreached : m'.words.reply ≥ ok := hreply ▸ hv
      show _ = (if m'.words.reply ≥ ok then LoaderStage.waited (.ok .acknowledged) else .sleeping, m')
      rw [if_pos hreached]
      rfl
    | failed e =>
      cases e with
      | timeout =>
        show _ = (LoaderStage.waited (.ok (if m'.words.reply ≥ ok then .acknowledged else .timedOut)), m')
        rw [hreply]
        rfl
      | _ => rfl

/-- So does a wait for an event, and no word above its bound says that nothing is posted. -/
theorem pluginWait_eq_moves (arbiter : Handle) (timeout : UInt64) :
    (do return .obtained (← pluginWait arbiter timeout) : Act κ σ PluginStage) =
      moves PluginStage.move? arbiter timeout 3 .checking := by
  funext h m
  have hload : moves PluginStage.move? arbiter timeout 3 .checking h m =
      moves PluginStage.move? arbiter timeout 2
        (if m.words.event ≠ ok then .obtained (.ok m.words.event) else .sleeping) h m := rfl
  rw [hload, Act.bind_run, pluginWait, Act.bind_run, Act.words]
  by_cases hp : m.words.event ≠ ok
  · rw [if_pos hp, if_pos hp]
    rfl
  · rw [if_neg hp, if_neg hp]
    have hword := get_wait arbiter .event (ok + 1) timeout h m
    simp only [moves, PluginStage.move?, Move.perform, Act.bind_run]
    generalize wait arbiter .event (ok + 1) timeout h m = ended at hword ⊢
    obtain ⟨⟨value, outcome⟩, m'⟩ := ended
    have hevent : m'.words.event = value := hword
    cases outcome with
    | reached hv =>
      have hposted : value ≠ ok := by
        rintro rfl
        exact absurd hv (by decide)
      show _ = (if m'.words.event ≠ ok then PluginStage.obtained (.ok m'.words.event) else .sleeping, m')
      rw [hevent, if_pos hposted]
      rfl
    | failed e => rfl

theorem pluginReply_eq_moves (arbiter : Handle) (timeout : UInt64) :
    (do return .replied (← pluginReply arbiter) : Act κ σ PluginStage) =
      moves PluginStage.move? arbiter timeout 2 .replying := rfl

end PluginSlot.Handshake
