import PluginSlot.Bench.Console
import PluginSlot.Loader.Invariant
/-!
The test bench: a console, a swap store whose calls can be made to fail, a log of both, and queued
scripts that run re-entrantly while the loader waits or publishes.
-/
namespace PluginSlot.Bench
open Platform

/-- A swap store on the bench. -/
structure Store where
  inner : SwapStore
  writeFates : Fates
  readFates : Fates
  /-- Bytes dropped from the end of what is read. -/
  cut : Nat

namespace Store

def initial : Store := ⟨.empty, [], [], 0⟩

def write (s : Store) (name : String) (address : UInt32) (data : List UInt8) :
    Except Error Unit × Store :=
  let fate := s.writeFates.head?.join
  let s := { s with writeFates := s.writeFates.tail }
  match fate with
  | some e => (.error e, s)
  | none =>
    let (r, inner) := s.inner.write name address data
    (r, { s with inner := inner })

def read (s : Store) (name : String) (length : Nat) : Except Error (List UInt8) × Store :=
  let fate := s.readFates.head?.join
  let s := { s with readFates := s.readFates.tail }
  match fate with
  | some e => (.error e, s)
  | none =>
    let (r, inner) := s.inner.read name length
    (r.map fun data => data.take (data.length - s.cut), { s with inner := inner })

def step (s : Store) : StoreStep → Outcome × Store
  | .failWrites on => (.nothing, { s with inner := { s.inner with failWrites := on } })
  | .failReads on => (.nothing, { s with inner := { s.inner with failReads := on } })
  | .writeFates fates => (.nothing, { s with writeFates := s.writeFates ++ fates })
  | .readFates fates => (.nothing, { s with readFates := s.readFates ++ fates })
  | .cut bytes => (.nothing, { s with cut := bytes })
  | .put name address data => (.nothing, { s with inner := (s.inner.write name address data).2 })
  | .file name =>
    (match s.inner.file? name with
      | none => .nothing
      | some image => .image image, s)
  | .counts => (.counts s.inner.writes s.inner.reads, s)

end Store

/-- The script queues, oldest first. -/
structure Hooks where
  waiting : List (List Step)
  publishing : List (List Step)

def Hooks.pop (h : Hooks) : HookPoint → List Step × Hooks
  | .waiting => (h.waiting.headD [], { h with waiting := h.waiting.tail })
  | .publishing => (h.publishing.headD [], { h with publishing := h.publishing.tail })

end Bench

structure Bench where
  console : Bench.Console
  store : Bench.Store
  hooks : Bench.Hooks
  /-- Latest entry first. -/
  log : List Bench.Entry

namespace Bench
open Platform

def initial (console : Console) : Bench := ⟨console, .initial, ⟨[], []⟩, []⟩

def note (b : Bench) (e : Entry) : Bench := { b with log := e :: b.log }

/-- Calls that only ask for a value are not taken down. -/
def isQuiet : Call → Bool
  | .titleId _ | .enabledAtBoot | .now => true
  | _ => false

def noteCall (b : Bench) (c : Call) : Bench :=
  if b.console.logs && !isQuiet c then b.note (.call c) else b

/-- The entries since the log was last taken, oldest first. -/
def takeLog (b : Bench) : List Entry × Bench := (b.log.reverse, { b with log := [] })

def onConsole {α : Type} (b : Bench) (act : Console → α × Console) : α × Bench :=
  let (a, console) := act b.console
  (a, { b with console := console })

variable {κ : Type}

def onBench {α : Type} (m : Machine κ Bench) (act : Bench → α × Bench) : α × Machine κ Bench :=
  let (a, b) := act m.platform
  (a, { m with platform := b })

/-- Answer calls, and run a hook within each wait and each publication. -/
def handler (hook : HookPoint → Machine κ Bench → Machine κ Bench) : Handler κ Bench := fun c m =>
  match c with
  | .writeSwap name address data => onBench m fun b =>
    let b := b.note (.call (.writeSwap name address data))
    let (r, store) := b.store.write name address data
    (r, { b with store := store })
  | .readSwap name address length => onBench m fun b =>
    let b := b.note (.call (.readSwap name address length))
    let (r, store) := b.store.read name length
    (r, { b with store := store })
  | .wait arbiter word value bound timeout =>
    let (fate, m) := onBench m fun b =>
      (b.noteCall (.wait arbiter word value bound timeout)).onConsole (·.popFate .wait)
    match fate with
    | some e => (⟨value, .failed e⟩, m)
    | none =>
      let m := hook .waiting m
      onBench m fun b => b.onConsole (·.finishWait (m.words.get word) bound timeout)
  | .publish id =>
    ((), hook .publishing { m with platform := m.platform.noteCall (.publish id) })
  | c => onBench m fun b => (b.noteCall c).onConsole (·.answer c)

/-- Answer calls without hooks. -/
def plainHandler : Handler κ Bench := handler fun _ m => m

def configure (b : Bench) (p : Patch) (waiting publishing : List (List Step)) : Bench :=
  { b with
    console := b.console.configure p
    hooks := ⟨b.hooks.waiting ++ waiting, b.hooks.publishing ++ publishing⟩ }

end Bench

namespace Bench
open Platform

def Query.run (q : Query) (l : Loader) : Outcome :=
  match q with
  | exeLoad => .exeLoad l.exeLoad
  | handles => .handles l.arbiter l.lifecycleEvent
  | config => .config l.config
  | journal => .journal l.journal.records
  | description => .text l.text

/-- What a step does to the bench alone. -/
def Step.runOnBench (b : Bench) : Step → Outcome × Bench
  | .store s =>
    let (o, s) := b.store.step s
    (o, { b with store := s })
  | .advance nanoseconds => b.onConsole fun c => (.nothing, c.advance nanoseconds)
  | .kernel s => b.onConsole fun c =>
    let (o, c) := c.kernelStep s
    (.kernel o, c)
  | .configure p waiting publishing => (.nothing, b.configure p waiting publishing)
  | .operation _ | .query _ => (.nothing, b)

def Step.run (h : Handler Loader Bench) (m : Machine Loader Bench) :
    Step → Outcome × Machine Loader Bench
  | .operation op =>
    let (o, m) := op.run h m
    (.service o, m)
  | .query q => (q.run m.client, m)
  | s => onBench m fun b => s.runOnBench b

/-- Run a script at a hook, and take down what each of its steps answers. -/
def runScript (h : Handler Loader Bench) (point : HookPoint) (m : Machine Loader Bench) :
    List Step → Machine Loader Bench
  | [] => m
  | s :: rest =>
    let (o, m) := s.run h m
    runScript h point { m with platform := m.platform.note (.hook point o) } rest

/-- A handler whose hooks run the queued scripts, which may wait and publish in turn, to a given
depth. Each level takes a script off a queue, so the number of scripts is depth enough. -/
def hookedHandler : Nat → Handler Loader Bench
  | 0 => plainHandler
  | depth + 1 => handler fun point m =>
    let (script, m) := onBench m fun b =>
      let (script, hooks) := b.hooks.pop point
      (script, { b with hooks := hooks })
    runScript (hookedHandler depth) point m script

end Bench
end PluginSlot
