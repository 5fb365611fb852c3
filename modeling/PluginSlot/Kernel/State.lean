import PluginSlot.Kernel.Error
import PluginSlot.Kernel.Object
import PluginSlot.Kernel.Process
/-!
The state of the kernel: process records, the global thread list, the object table, and one
scheduler per core.
-/
namespace PluginSlot.Kernel

structure Core where
  current : Option ThreadId
  /-- Runnable threads that wait for this core, first come first served. -/
  queue : List ThreadId
  /-- Another core asked this one to reschedule. -/
  ipiPending : Bool
  ipisDelivered : Nat
deriving DecidableEq, Repr, Inhabited

def Core.idle : Core := ⟨none, [], false, 0⟩

structure State where
  processes : Table ProcessId Process
  threads : Table ThreadId Thread
  objects : Table ObjectId Object
  cores : List Core
  /-- The thread that holds the kernel's synchronization mutex. -/
  syncOwner : Option ThreadId
  nextProcess : Nat
  nextThread : Nat
  nextObject : Nat

namespace State

/-- An empty kernel; it has at least one core. -/
def boot (cores : Nat) : State where
  processes := .empty
  threads := .empty
  objects := .empty
  cores := List.replicate (max cores 1) .idle
  syncOwner := none
  nextProcess := 1
  nextThread := 1
  nextObject := 1

instance : Inhabited State := ⟨boot 1⟩

def process? (s : State) (p : ProcessId) : Option Process := s.processes.get? p
def thread? (s : State) (t : ThreadId) : Option Thread := s.threads.get? t
def object? (s : State) (o : ObjectId) : Option Object := s.objects.get? o
def core? (s : State) (c : CoreId) : Option Core := s.cores[c.val]?

def modifyProcess (s : State) (p : ProcessId) (f : Process → Process) : State :=
  { s with processes := s.processes.modify p f }

def modifyThread (s : State) (t : ThreadId) (f : Thread → Thread) : State :=
  { s with threads := s.threads.modify t f }

def modifyObject (s : State) (o : ObjectId) (f : Object → Object) : State :=
  { s with objects := s.objects.modify o f }

def modifyCore (s : State) (c : CoreId) (f : Core → Core) : State :=
  { s with cores := s.cores.modify c.val f }

/-- Threads of a process, in the order of the global list. -/
def threadsOf (s : State) (p : ProcessId) : List ThreadId :=
  (s.threads.entries.filter fun e => e.2.owner = p).map (·.1)

def processName (s : State) (p : ProcessId) : Option String := (s.process? p).map (·.name)

def allocate (s : State) (body : ObjectBody) : ObjectId × State :=
  (⟨s.nextObject⟩,
    { s with
      objects := s.objects.insert ⟨s.nextObject⟩ ⟨body, 1⟩
      nextObject := s.nextObject + 1 })

theorem core?_modifyCore (s : State) (c d : CoreId) (f : Core → Core) :
    (s.modifyCore c f).core? d = if c = d then (s.core? d).map f else s.core? d := by
  simp only [core?, modifyCore, List.getElem?_modify]
  by_cases h : c = d
  · simp [h]
  · have : c.val ≠ d.val := fun e => h (by cases c; cases d; simp_all)
    simp [h, this]

@[simp] theorem process?_modifyProcess_self (s : State) (p : ProcessId) (f : Process → Process) :
    (s.modifyProcess p f).process? p = (s.process? p).map f := Table.get?_modify_self ..

theorem process?_modifyProcess_ne (s : State) {p q : ProcessId} (h : p ≠ q)
    (f : Process → Process) : (s.modifyProcess p f).process? q = s.process? q :=
  Table.get?_modify_ne _ h f

/-- A record after a change of one record comes of the record there was. -/
theorem exists_of_modifyProcess {s : State} {p q : ProcessId} {f : Process → Process} {now : Process}
    (h : (s.modifyProcess p f).process? q = some now) :
    ∃ old, s.process? q = some old ∧ (p = q ∧ now = f old ∨ p ≠ q ∧ now = old) :=
  Table.of_get?_modify h

/-- A record after a change of one that is known is the changed one, or another as it was. -/
theorem process?_of_modifyProcess {s : State} {p q : ProcessId} {f : Process → Process}
    {process now : Process} (hp : s.process? p = some process)
    (h : (s.modifyProcess p f).process? q = some now) :
    q = p ∧ now = f process ∨ q ≠ p ∧ s.process? q = some now := by
  obtain ⟨old, hold, ⟨rfl, rfl⟩ | ⟨hne, rfl⟩⟩ := exists_of_modifyProcess h
  · cases hp.symm.trans hold
    exact .inl ⟨rfl, rfl⟩
  · exact .inr ⟨Ne.symm hne, hold⟩

@[simp] theorem thread?_modifyThread_self (s : State) (t : ThreadId) (f : Thread → Thread) :
    (s.modifyThread t f).thread? t = (s.thread? t).map f := Table.get?_modify_self ..

theorem thread?_modifyThread_ne (s : State) {t u : ThreadId} (h : t ≠ u) (f : Thread → Thread) :
    (s.modifyThread t f).thread? u = s.thread? u :=
  Table.get?_modify_ne _ h f

@[simp] theorem object?_modifyObject_self (s : State) (o : ObjectId) (f : Object → Object) :
    (s.modifyObject o f).object? o = (s.object? o).map f := Table.get?_modify_self ..

theorem object?_modifyObject_ne (s : State) {o q : ObjectId} (h : o ≠ q) (f : Object → Object) :
    (s.modifyObject o f).object? q = s.object? q :=
  Table.get?_modify_ne _ h f

theorem exists_of_modifyObject {s : State} {o q : ObjectId} {f : Object → Object} {now : Object}
    (h : (s.modifyObject o f).object? q = some now) :
    ∃ old, s.object? q = some old ∧ (o = q ∧ now = f old ∨ o ≠ q ∧ now = old) :=
  Table.of_get?_modify h

theorem object?_of_modifyObject {s : State} {o q : ObjectId} {f : Object → Object}
    {object now : Object} (ho : s.object? o = some object)
    (h : (s.modifyObject o f).object? q = some now) :
    q = o ∧ now = f object ∨ q ≠ o ∧ s.object? q = some now := by
  obtain ⟨old, hold, ⟨rfl, rfl⟩ | ⟨hne, rfl⟩⟩ := exists_of_modifyObject h
  · cases ho.symm.trans hold
    exact .inl ⟨rfl, rfl⟩
  · exact .inr ⟨Ne.symm hne, hold⟩

@[simp] theorem object?_allocate (s : State) (body : ObjectBody) :
    (s.allocate body).2.object? (s.allocate body).1 = some ⟨body, 1⟩ := Table.get?_insert_self ..

theorem object?_of_allocate {s : State} {body : ObjectBody} {o : ObjectId} {now : Object}
    (h : (s.allocate body).2.object? o = some now) :
    ⟨s.nextObject⟩ = o ∧ now = ⟨body, 1⟩ ∨ s.object? o = some now := Table.of_get?_insert h

end State
end PluginSlot.Kernel
