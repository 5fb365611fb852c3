import PluginSlot.Kernel.Reference
import PluginSlot.Kernel.Scheduler
/-!
Birth and death of processes and threads. A process first exits, which stops its threads, and is
then destroyed; its record stays while handles of others name it.
-/
namespace PluginSlot.Kernel

def Core.forget (c : Core) (t : ThreadId) : Core :=
  if c.current = some t then { c with current := none } else c

namespace State

/-- Register a process; its object starts with the kernel's own reference. -/
def createProcess (s : State) (name : String) (titleId : UInt64) : ProcessId × State :=
  let p : ProcessId := ⟨s.nextProcess⟩
  let (o, s) := s.allocate (.process p)
  let process : Process :=
    { name := name
      titleId := titleId
      object := o
      flags := .none
      handles := .empty
      pages := .empty
      memoryChangeEvent := none
      exiting := false
      reaped := false }
  (p, { s with
    nextProcess := s.nextProcess + 1
    processes := s.processes.insert p process })

/-- Create a paused thread on an existing core. -/
def createThread (s : State) (owner : ProcessId) (core : CoreId) : Except Error ThreadId × State :=
  if !s.processes.contains owner || core.val ≥ s.cores.length then (.error .invalidHandle, s)
  else
    let t : ThreadId := ⟨s.nextThread⟩
    (.ok t, { s with
      nextThread := s.nextThread + 1
      threads := s.threads.insert t ⟨owner, .ofState .paused, core, .replicate tlsWords 0⟩ })

def setTls (s : State) (t : ThreadId) (slot : Nat) (value : UInt32) : Except Error Unit × State :=
  match s.thread? t with
  | none => (.error .invalidHandle, s)
  | some _ =>
    if slot ≥ tlsWords then (.error .invalidAddress, s)
    else (.ok (), s.modifyThread t fun thread =>
      { thread with tls := thread.tls.setIfInBounds slot value })

/-- Stop every thread of a process, and tell whether its exit is to be signaled. -/
def beginExit (s : State) (p : ProcessId) : Except Error Bool × State :=
  match s.process? p with
  | none => (.error .invalidHandle, s)
  | some process =>
    let s := s.modifyProcess p ({ · with exiting := true })
    (.ok process.flags.signalOnExit,
      (s.threadsOf p).foldl (fun s t => (s.setThreadState t .terminating).2) s)

def removeThread (s : State) (t : ThreadId) : State :=
  let s := s.evict t
  { s with
    cores := s.cores.map (·.forget t)
    syncOwner := if s.syncOwner = some t then none else s.syncOwner
    threads := s.threads.erase t }

/-- Remove the threads and handles of a process and drop the kernel's reference to it. -/
def destroyProcess (s : State) (p : ProcessId) : Except Error Unit × State :=
  match s.process? p with
  | none => (.error .invalidHandle, s)
  | some process =>
    if process.reaped then (.ok (), s)
    else
      let s := (s.beginExit p).2
      let s := (s.threadsOf p).foldl removeThread s
      let s := s.modifyProcess p fun process =>
        { process with reaped := true, handles := process.handles.drain.2 }
      (.ok (), (process.handles.drain.1.foldl release s).release process.object)

end State
end PluginSlot.Kernel
