import PluginSlot.Handshake.Routine

/-!
The loader and the plugin side by side: each calls its routines in any order, and between two accesses of
one side the other may take any number of its own. A routine that nobody comes between is one of these
runs, so that whatever holds of all runs holds of the routines as they are performed.
-/
namespace PluginSlot.Handshake
open Kernel Platform

variable {S κ σ : Type}

/-- One access of a side, with what it found. -/
inductive Access where
  | loaded (word : SharedWord) (value : Int32)
  | stored (word : SharedWord) (value : Int32)
  | signalled (answer : Except Platform.Error Unit)
  /-- The arbiter looks at the word on which the side sleeps. -/
  | looked (word : SharedWord) (value : Int32)
  /-- The arbiter wakes the side, perhaps without cause. -/
  | woken
  | gaveUp (e : Platform.Error)

/-- The word that an access reads. -/
def Access.read? : Access → Option SharedWord
  | loaded word _ | looked word _ => some word
  | _ => none

/-- One access at a stage of a routine. The arbiter may wake a sleeper or give up at any time, and does
not let it sleep on once it has found the word at its bound. -/
inductive Advance (move? : S → Option (Move S)) (words : Words) (stage : S) :
    Access → Words → S → Prop where
  | load {word : SharedWord} {next : Int32 → S} (h : move? stage = some (.load word next)) :
      Advance move? words stage (.loaded word (words.get word)) words (next (words.get word))
  | store {word : SharedWord} {value : Int32} {next : S}
      (h : move? stage = some (.store word value next)) :
      Advance move? words stage (.stored word value) (words.set word value) next
  | signal {word : SharedWord} {next : Except Platform.Error Unit → S}
      (h : move? stage = some (.signal word next)) (answer : Except Platform.Error Unit) :
      Advance move? words stage (.signalled answer) words (next answer)
  | reach {word : SharedWord} {bound : Int32} {next : Except Platform.Error Unit → S}
      (h : move? stage = some (.await word bound next)) (hw : bound ≤ words.get word) :
      Advance move? words stage (.looked word (words.get word)) words (next (.ok ()))
  | sleep {word : SharedWord} {bound : Int32} {next : Except Platform.Error Unit → S}
      (h : move? stage = some (.await word bound next)) (hw : ¬ bound ≤ words.get word) :
      Advance move? words stage (.looked word (words.get word)) words stage
  | wake {word : SharedWord} {bound : Int32} {next : Except Platform.Error Unit → S}
      (h : move? stage = some (.await word bound next)) :
      Advance move? words stage .woken words (next (.ok ()))
  | giveUp {word : SharedWord} {bound : Int32} {next : Except Platform.Error Unit → S}
      (h : move? stage = some (.await word bound next)) (e : Platform.Error) :
      Advance move? words stage (.gaveUp e) words (next (.error e))

/-- All accesses of the loader, stage by stage. -/
inductive LoaderTurn (words : Words) : LoaderStage → Access → Words → LoaderStage → Prop where
  | arm (event : Int32) : LoaderTurn words (.arming event) (.stored .reply awaiting)
      (words.set .reply awaiting) (.posting event)
  | post (event : Int32) : LoaderTurn words (.posting event) (.stored .event event)
      (words.set .event event) .announcing
  | announce (answer : Except Platform.Error Unit) :
      LoaderTurn words .announcing (.signalled answer) words (.notified answer)
  | find (h : words.reply ≥ ok) : LoaderTurn words .checking (.loaded .reply words.reply) words
      (.waited (.ok .acknowledged))
  | miss (h : ¬ words.reply ≥ ok) :
      LoaderTurn words .checking (.loaded .reply words.reply) words .sleeping
  | reach (h : words.reply ≥ ok) :
      LoaderTurn words .sleeping (.looked .reply words.reply) words .checking
  | sleep (h : ¬ words.reply ≥ ok) :
      LoaderTurn words .sleeping (.looked .reply words.reply) words .sleeping
  | wake : LoaderTurn words .sleeping .woken words .checking
  | expire : LoaderTurn words .sleeping (.gaveUp .timeout) words .rechecking
  | fail {e : Platform.Error} (h : e ≠ .timeout) :
      LoaderTurn words .sleeping (.gaveUp e) words (.waited (.error e))
  | findLate (h : words.reply ≥ ok) : LoaderTurn words .rechecking (.loaded .reply words.reply) words
      (.waited (.ok .acknowledged))
  | missLate (h : ¬ words.reply ≥ ok) : LoaderTurn words .rechecking
      (.loaded .reply words.reply) words (.waited (.ok .timedOut))

section turns
variable {words words' : Words} {a : Access}

theorem Advance.loaderTurn {stage stage' : LoaderStage}
    (h : Advance LoaderStage.move? words stage a words' stage') :
    LoaderTurn words stage a words' stage' := by
  cases stage with
  | idle | notified | waited => cases h <;> contradiction
  | arming event =>
    cases h with
    | store h => cases h; exact .arm event
    | _ h => cases h
  | posting event =>
    cases h with
    | store h => cases h; exact .post event
    | _ h => cases h
  | announcing =>
    cases h with
    | signal h answer => cases h; exact .announce answer
    | _ h => cases h
  | checking =>
    cases h with
    | load h =>
      cases h
      dsimp only
      split
      · exact .find ‹_›
      · exact .miss ‹_›
    | _ h => cases h
  | sleeping =>
    cases h with
    | reach h hw => cases h; exact .reach hw
    | sleep h hw => cases h; exact .sleep hw
    | wake h => cases h; exact .wake
    | giveUp h e =>
      cases h
      cases e with
      | timeout => exact .expire
      | _ => exact .fail nofun
    | _ h => cases h
  | rechecking =>
    cases h with
    | load h =>
      cases h
      dsimp only
      split
      · exact .findLate ‹_›
      · exact .missLate ‹_›
    | _ h => cases h

/-- The plugin writes nothing but its reply. -/
theorem Advance.words_plugin {stage stage' : PluginStage}
    (h : Advance PluginStage.move? words stage a words' stage') :
    (a = .stored .reply ok ∧ words' = words.set .reply ok) ∨
      ((∀ word value, a ≠ .stored word value) ∧ words' = words) := by
  cases h with
  | store h => cases stage <;> cases h; exact .inl ⟨rfl, rfl⟩
  | _ => exact .inr ⟨nofun, rfl⟩

theorem Advance.of_loaded {S : Type} {move? : S → Option (Move S)} {stage stage' : S}
    {word : SharedWord} {value : Int32}
    (h : Advance move? words stage (.loaded word value) words' stage') : value = words.get word := by
  cases h; rfl

end turns

structure Exchange where
  words : Words
  loader : LoaderStage
  plugin : PluginStage

def Exchange.initial : Exchange := ⟨.initial, .idle, .idle⟩

/-- A side calls one of its routines, or takes its next access. -/
inductive Happening where
  | notifies (event : Int32)
  | awaitsReply
  | loader (a : Access)
  | awaitsEvent
  | replies
  | plugin (a : Access)

inductive Step : Exchange → Happening → Exchange → Prop where
  | notify {s : Exchange} (h : s.loader.move? = none) (event : Int32) :
      Step s (.notifies event) { s with loader := .arming event }
  | awaitReply {s : Exchange} (h : s.loader.move? = none) :
      Step s .awaitsReply { s with loader := .checking }
  | loader {s : Exchange} {a : Access} {words : Words} {stage : LoaderStage}
      (h : Advance LoaderStage.move? s.words s.loader a words stage) :
      Step s (.loader a) ⟨words, stage, s.plugin⟩
  | awaitEvent {s : Exchange} (h : s.plugin.move? = none) :
      Step s .awaitsEvent { s with plugin := .checking }
  | reply {s : Exchange} (h : s.plugin.move? = none) :
      Step s .replies { s with plugin := .replying }
  | plugin {s : Exchange} {a : Access} {words : Words} {stage : PluginStage}
      (h : Advance PluginStage.move? s.words s.plugin a words stage) :
      Step s (.plugin a) ⟨words, s.loader, stage⟩

/-- What happened, oldest first. -/
inductive Run : Exchange → List Happening → Exchange → Prop where
  | nil {s : Exchange} : Run s [] s
  | cons {s t u : Exchange} {l : Happening} {ls : List Happening} (hstep : Step s l t)
      (hrest : Run t ls u) : Run s (l :: ls) u

theorem run_append_iff {s u : Exchange} {ls ks : List Happening} :
    Run s (ls ++ ks) u ↔ ∃ t, Run s ls t ∧ Run t ks u := by
  constructor
  · intro h
    induction ls generalizing s with
    | nil => exact ⟨s, .nil, h⟩
    | cons l ls ih =>
      obtain _ | ⟨hstep, hrest⟩ := h
      obtain ⟨t, hls, hks⟩ := ih hrest
      exact ⟨t, .cons hstep hls, hks⟩
  · rintro ⟨t, hls, hks⟩
    induction hls with
    | nil => exact hks
    | cons hstep _ ih => exact .cons hstep (ih hks)

theorem run_cons_iff {s u : Exchange} {l : Happening} {ls : List Happening} :
    Run s (l :: ls) u ↔ ∃ t, Step s l t ∧ Run t ls u := by
  constructor
  · rintro (_ | ⟨hstep, hrest⟩)
    exact ⟨_, hstep, hrest⟩
  · rintro ⟨t, hstep, hrest⟩
    exact .cons hstep hrest

/-- What every step of a kind preserves holds after a run of such steps. -/
theorem Run.keeps {I : Exchange → Prop} {allowed : Happening → Prop} {s t : Exchange}
    {ls : List Happening} (hrun : Run s ls t) (hls : ∀ l ∈ ls, allowed l)
    (hstep : ∀ {s l t}, I s → allowed l → Step s l t → I t) (hs : I s) : I t := by
  induction hrun with
  | nil => exact hs
  | cons h _ ih =>
    exact ih (fun l hl => hls l (.tail _ hl)) (hstep hs (hls _ (.head _)) h)

section sequential

/-- Nobody else touches the words, and a wait ends with what it found in its word. -/
structure Secluded (h : Handler κ σ) : Prop where
  words : ∀ c m, (h c m).2.words = m.words
  value : ∀ arbiter word value bound timeout m,
    (h (.wait arbiter word value bound timeout) m).1.value = value

/-- Accesses of one side in a row. -/
inductive Advances (move? : S → Option (Move S)) : Words → S → List Access → Words → S → Prop where
  | nil {words : Words} {stage : S} : Advances move? words stage [] words stage
  | cons {words words' words'' : Words} {stage stage' stage'' : S} {a : Access} {as : List Access}
      (hfirst : Advance move? words stage a words' stage')
      (hrest : Advances move? words' stage' as words'' stage'') :
      Advances move? words stage (a :: as) words'' stage''

section performed
variable {h : Handler κ σ} (hh : Secluded h) (arbiter : Handle) (timeout : UInt64)
  {move? : S → Option (Move S)}
include hh

theorem Secluded.words_wait (word : SharedWord) (bound : Int32) (m : Machine κ σ) :
    (wait arbiter word bound timeout h m).1.value = m.words.get word ∧
      (wait arbiter word bound timeout h m).2.words = m.words := by
  have hvalue : (wait arbiter word bound timeout h m).1.value = m.words.get word := hh.value ..
  refine ⟨hvalue, ?_⟩
  have hwords : (wait arbiter word bound timeout h m).2.words =
      (h (.wait arbiter word (m.words.get word) bound timeout) m).2.words.set word
        (wait arbiter word bound timeout h m).1.value := rfl
  rw [hwords, hh.words, hvalue]
  cases word <;> rfl

theorem Secluded.advance {stage : S} {move : Move S} (hmove : move? stage = some move)
    (m : Machine κ σ) : ∃ a, Advance move? m.words stage a
      (move.perform arbiter timeout h m).2.words (move.perform arbiter timeout h m).1 := by
  cases move with
  | load word next => exact ⟨_, .load hmove⟩
  | store word value next => exact ⟨_, .store hmove⟩
  | signal word next =>
    have hwords : ((Move.signal word next).perform arbiter timeout h m).2.words = m.words :=
      hh.words ..
    rw [hwords]
    exact ⟨_, .signal hmove _⟩
  | await word bound next =>
    obtain ⟨hvalue, hwords⟩ := hh.words_wait arbiter timeout word bound m
    rw [Move.perform, Act.bind_run]
    generalize wait arbiter word bound timeout h m = ended at hvalue hwords ⊢
    obtain ⟨⟨value, outcome⟩, m'⟩ := ended
    have hsame : m'.words = m.words := hwords
    cases outcome with
    | reached hbound =>
      refine ⟨.looked word (m.words.get word), ?_⟩
      show Advance move? m.words stage _ m'.words (next (.ok ()))
      rw [hsame]
      exact .reach hmove (hvalue ▸ hbound)
    | failed e =>
      refine ⟨.gaveUp e, ?_⟩
      show Advance move? m.words stage _ m'.words (next (.error e))
      rw [hsame]
      exact .giveUp hmove e

theorem Secluded.advances (n : Nat) (stage : S) (m : Machine κ σ) :
    ∃ as, Advances move? m.words stage as (moves move? arbiter timeout n stage h m).2.words
      (moves move? arbiter timeout n stage h m).1 := by
  induction n generalizing stage m with
  | zero => exact ⟨[], .nil⟩
  | succ n ih =>
    rw [moves]
    cases hmove : move? stage with
    | none => exact ⟨[], .nil⟩
    | some move =>
      obtain ⟨a, hfirst⟩ := hh.advance arbiter timeout hmove m
      obtain ⟨as, hrest⟩ := ih (move.perform arbiter timeout h m).1 (move.perform arbiter timeout h m).2
      exact ⟨a :: as, .cons hfirst hrest⟩

end performed

theorem Advances.run_loader {words words' : Words} {stage stage' : LoaderStage} {as : List Access}
    (has : Advances LoaderStage.move? words stage as words' stage') (plugin : PluginStage) :
    Run ⟨words, stage, plugin⟩ (as.map .loader) ⟨words', stage', plugin⟩ := by
  induction has with
  | nil => exact .nil
  | cons hfirst _ ih => exact .cons (.loader hfirst) ih

theorem Advances.run_plugin {words words' : Words} {stage stage' : PluginStage} {as : List Access}
    (has : Advances PluginStage.move? words stage as words' stage') (loader : LoaderStage) :
    Run ⟨words, loader, stage⟩ (as.map .plugin) ⟨words', loader, stage'⟩ := by
  induction has with
  | nil => exact .nil
  | cons hfirst _ ih => exact .cons (.plugin hfirst) ih

section routines
variable {h : Handler κ σ} (hh : Secluded h) (arbiter : Handle) (timeout : UInt64) (m : Machine κ σ)
  {loader : LoaderStage} {plugin : PluginStage}
include hh

/-- Posting an event, with nobody in between, is a run. -/
theorem run_notify (hidle : loader.move? = none) (event : Int32) : ∃ as : List Access,
    Run ⟨m.words, loader, plugin⟩ (.notifies event :: as.map .loader)
      ⟨(notify arbiter event h m).2.words, .notified (notify arbiter event h m).1, plugin⟩ := by
  obtain ⟨as, has⟩ := hh.advances arbiter 0 3 (LoaderStage.arming event) m
  rw [← notify_eq_moves] at has
  exact ⟨as, .cons (.notify hidle event) (has.run_loader plugin)⟩

/-- So is waiting for the reply, from the first check to the last. -/
theorem run_waitForReply (hidle : loader.move? = none) : ∃ as : List Access,
    Run ⟨m.words, loader, plugin⟩ (.awaitsReply :: as.map .loader)
      ⟨(waitForReply arbiter timeout h m).2.words, .waited (waitForReply arbiter timeout h m).1,
        plugin⟩ := by
  obtain ⟨as, has⟩ := hh.advances arbiter timeout 3 LoaderStage.checking m
  rw [← waitForReply_eq_moves] at has
  exact ⟨as, .cons (.awaitReply hidle) (has.run_loader plugin)⟩

theorem run_pluginWait (hidle : plugin.move? = none) : ∃ as : List Access,
    Run ⟨m.words, loader, plugin⟩ (.awaitsEvent :: as.map .plugin)
      ⟨(pluginWait arbiter timeout h m).2.words, loader,
        .obtained (pluginWait arbiter timeout h m).1⟩ := by
  obtain ⟨as, has⟩ := hh.advances arbiter timeout 3 PluginStage.checking m
  rw [← pluginWait_eq_moves] at has
  exact ⟨as, .cons (.awaitEvent hidle) (has.run_plugin loader)⟩

theorem run_pluginReply (hidle : plugin.move? = none) : ∃ as : List Access,
    Run ⟨m.words, loader, plugin⟩ (.replies :: as.map .plugin)
      ⟨(pluginReply arbiter h m).2.words, loader, .replied (pluginReply arbiter h m).1⟩ := by
  obtain ⟨as, has⟩ := hh.advances arbiter 0 2 PluginStage.replying m
  rw [← pluginReply_eq_moves] at has
  exact ⟨as, .cons (.reply hidle) (has.run_plugin loader)⟩

end routines
end sequential
end PluginSlot.Handshake
