import PluginSlot.Bench.Step
import PluginSlot.Platform.Stub
/-!
A scripted console: a platform with a kernel behind it, on which the loader is process 1. Every
call can be made to fail, and the plugin's replies follow the script.
-/
namespace PluginSlot.Bench
open Kernel hiding Error
open Platform

structure Scripted where
  kernel : State
  cores : Nat
  clock : UInt64
  boot : Bool
  pluginThreads : Nat
  imageLength : Nat
  imageSeed : Nat
  toggles : Bool
  autoReply : Option AutoReply
  available : List String
  fates : FaultPoint → Fates

namespace Scripted

def loaderProcess : ProcessId := ⟨1⟩
def loaderTitle : UInt64 := 0x0004013000001002
def loader : Caller := ⟨loaderProcess, ⟨1⟩, ⟨0⟩⟩

/-- The loader and its thread, and a host process of the given title. -/
def bootKernel (cores : Nat) (hostTitle : UInt64) : State :=
  let (p, s) := (State.boot cores).createProcess "plgldr" loaderTitle
  let (_, s) := s.createThread p ⟨0⟩
  (s.createProcess "host" hostTitle).2

def initial (cores : Nat) (hostTitle : UInt64) : Scripted where
  kernel := bootKernel cores hostTitle
  cores := max cores 1
  clock := 0
  boot := true
  pluginThreads := 2
  imageLength := 0x3000
  imageSeed := 0
  toggles := false
  autoReply := none
  available := ["/luma/plugins/default.plg"]
  fates := fun _ => []

def addFates (s : Scripted) (f : FaultPoint × Fates) : Scripted :=
  { s with fates := fun p => if p = f.1 then s.fates p ++ f.2 else s.fates p }

def configure (s : Scripted) (p : Patch) : Scripted :=
  let s := { s with
    boot := p.boot.getD s.boot
    pluginThreads := p.pluginThreads.getD s.pluginThreads
    imageLength := p.imageLength.getD s.imageLength
    imageSeed := p.imageSeed.getD s.imageSeed
    toggles := p.toggles.getD s.toggles
    autoReply := p.autoReply.getD s.autoReply
    available := (s.available ++ p.available).filter (· ∉ p.unavailable) }
  p.fates.foldl addFates s

def popFate (s : Scripted) (p : FaultPoint) : Option Error × Scripted :=
  ((s.fates p).head?.join,
    { s with fates := fun q => if q = p then (s.fates q).tail else s.fates q })

/-- Let a call go on unless it is fated to fail. -/
def unlessFated {α : Type} (s : Scripted) (p : FaultPoint)
    (act : Scripted → Except Error α × Scripted) : Except Error α × Scripted :=
  match s.popFate p with
  | (some e, s) => (.error e, s)
  | (none, s) => act s

/-- A kernel operation on behalf of the loader. -/
def onKernel {α : Type} (s : Scripted) (act : State → Except Kernel.Error α × State) :
    Except Error α × Scripted :=
  let (r, kernel) := act s.kernel
  (r.mapError .kernel, { s with kernel := kernel })

/-- Repeat a kernel operation until it fails. -/
def each {α : Type} (act : α → State → Except Kernel.Error Unit × State) :
    List α → State → Except Kernel.Error Unit × State
  | [], s => (.ok (), s)
  | a :: rest, s =>
    match act a s with
    | (.error e, s) => (.error e, s)
    | (.ok _, s) => each act rest s

def startThread (p : ProcessId) (core : CoreId) (s : State) : Except Kernel.Error Unit × State :=
  match s.createThread p core with
  | (.error e, s) => (.error e, s)
  | (.ok t, s) =>
    match s.setTls t ThreadFilter.pluginSlot ThreadFilter.pluginTag with
    | (.error e, s) => (.error e, s)
    | (.ok _, s) => s.setThreadState t .runnable

def image (s : Scripted) : List UInt8 :=
  (List.range s.imageLength).map fun k => .ofNat ((k + s.imageSeed) % 251)

def inject (s : Scripted) (target : Handle) (path : String) :
    Except Error (List UInt8) × Scripted :=
  if path ∉ s.available then (.error .notFound, s)
  else
    let homes : List CoreId := (List.range s.pluginThreads).map fun k => ⟨k % s.cores⟩
    let (r, s) := s.onKernel fun k =>
      k.withProcess loaderProcess target fun p k => each (startThread p) homes k
    (r.map fun _ => s.image, s)

def pageOffsets (length : Nat) : List UInt32 :=
  (List.range ((length + 0xFFF) / 0x1000)).map fun i => .ofNat (i * 0x1000)

def virtualBase : UInt32 := 0x07000000
def physicalBase : UInt32 := 0x28000000

def mapRegion (s : Scripted) (target : Handle) (length : Nat) : Except Error Unit × Scripted :=
  s.onKernel fun k => k.withProcess loaderProcess target fun p k =>
    each (fun o k => k.mapPage p (virtualBase + o) (physicalBase + o) .all) (pageOffsets length) k

def unmapRegion (s : Scripted) (target : Handle) (length : Nat) : Except Error Unit × Scripted :=
  s.onKernel fun k => k.withProcess loaderProcess target fun p k =>
    each (fun o k => k.unmapPage p (virtualBase + o)) (pageOffsets length) k

def schedule (s : Scripted) (target : Handle) (mode : ScheduleMode) :
    Except Error ScheduleReport × Scripted :=
  match s.onKernel fun k => k.control loader target (.schedule mode (some .plugin)) with
  | (.ok (.schedule report), s) => (.ok report, s)
  | (.ok _, s) => (.error .invalidArgument, s)
  | (.error e, s) => (.error e, s)

/-- The end of a wait: the plugin's reply, if there is one, and otherwise the timeout. -/
def finishWait (s : Scripted) (value bound : Int32) (timeout : UInt64) :
    WaitAnswer bound × Scripted :=
  let prompt := match s.autoReply with
    | some ⟨reply, false⟩ => reply
    | _ => value
  if h : bound ≤ prompt then (⟨prompt, .reached h⟩, s)
  else
    let final := match s.autoReply with
      | some ⟨reply, true⟩ => reply
      | _ => prompt
    (⟨final, .failed .timeout⟩, { s with clock := s.clock + timeout })

def shownMenu (s : Scripted) (m : Menu) : Menu :=
  if s.toggles then
    { m with entries := m.entries.map fun e => { e with state := e.state ^^^ 1 } }
  else m

def answer : (c : Call) → Scripted → c.Answer × Scripted
  | .schedule target mode, s => s.unlessFated .schedule (·.schedule target mode)
  | .close h, s => s.unlessFated .close (·.onKernel (·.closeHandle loaderProcess h))
  | .titleId target, s => s.unlessFated .title (·.onKernel (·.titleOf loaderProcess target))
  | .createArbiter, s =>
    s.unlessFated .arbiter (·.onKernel (·.createObject loaderProcess .addressArbiter))
  | .createLifecycleEvent, s =>
    s.unlessFated .event (·.onKernel (·.createObject loaderProcess .event))
  | .enabledAtBoot, s => (s.boot, s)
  | .signal _ _ _, s => s.unlessFated .signal fun s => (.ok (), s)
  | .wait _ _ value bound timeout, s =>
    match s.popFate .wait with
    | (some e, s) => (⟨value, .failed e⟩, s)
    | (none, s) => s.finishWait value bound timeout
  | .inject target path _, s => s.unlessFated .inject (·.inject target path)
  | .map target length, s => s.unlessFated .map (·.mapRegion target length)
  | .unmap target length, s => s.unlessFated .unmap (·.unmapRegion target length)
  | .menu m, s => s.unlessFated .menu fun s => (.ok (s.shownMenu m), s)
  | .now, s => (s.clock, s)
  | .writeStatus _, s | .invalidateCache, s | .flash, s | .message _ _, s | .showError _ _ _, s
  | .saveSettings, s | .publish _, s | .debug _, s => ((), s)
  | .writeSwap _ _ _, s => (.error .notSupported, s)
  | .readSwap _ _ _, s => (.error .notSupported, s)

def platform : Platform Scripted := ⟨answer⟩

end Scripted

inductive Console where
  | stub (s : Stub)
  | scripted (s : Scripted)

namespace Console

def answer (c : Call) : Console → c.Answer × Console
  | stub s =>
    let (a, s) := s.answer c
    (a, stub s)
  | scripted s =>
    let (a, s) := s.answer c
    (a, scripted s)

/-- A stub does not take calls down. -/
def logs : Console → Bool
  | stub _ => false
  | scripted _ => true

def popFate (p : FaultPoint) : Console → Option Error × Console
  | stub s => (none, stub s)
  | scripted s =>
    let (e, s) := s.popFate p
    (e, scripted s)

def finishWait (value bound : Int32) (timeout : UInt64) : Console → WaitAnswer bound × Console
  | stub s =>
    (.atOnce value bound .timeout,
      stub (if bound ≤ value then s else { s with clock := s.clock + timeout }))
  | scripted s =>
    let (a, s) := s.finishWait value bound timeout
    (a, scripted s)

def configure (p : Patch) : Console → Console
  | stub s => stub s
  | scripted s => scripted (s.configure p)

def advance (nanoseconds : UInt64) : Console → Console
  | stub s => stub { s with clock := s.clock + nanoseconds }
  | scripted s => scripted { s with clock := s.clock + nanoseconds }

def kernelStep (step : Kernel.Step) : Console → Kernel.Outcome × Console
  | stub s => (.nothing, stub s)
  | scripted s =>
    let (o, kernel) := step.run s.kernel
    (o, scripted { s with kernel := kernel })

def clock : Console → UInt64
  | stub s => s.clock
  | scripted s => s.clock

end Console
end PluginSlot.Bench
