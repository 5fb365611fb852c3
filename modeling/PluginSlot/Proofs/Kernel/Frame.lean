import PluginSlot.Kernel.Operation

/-!
What scheduling depends on, and the operations that leave it alone. To show that every operation
keeps a property of threads and cores it is enough to look at the operations of the scheduler.
-/
namespace PluginSlot.Kernel

/-- The part of a kernel that scheduling reads and writes. -/
structure Threading where
  threads : Table ThreadId Thread
  cores : List Core
  next : Nat

/-- Does an operation take a thread out of the queues, or set a hold, by hand? -/
def Operation.isManual : Operation → Bool
  | setDebugLock _ _ | setPluginLock _ | evict _ => true
  | _ => false

namespace State

def threading (s : State) : Threading := ⟨s.threads, s.cores, s.nextThread⟩

section references
variable (s : State)

@[simp] theorem threading_modifyProcess (p : ProcessId) (f : Process → Process) :
    (s.modifyProcess p f).threading = s.threading := rfl

@[simp] theorem threading_modifyObject (o : ObjectId) (f : Object → Object) :
    (s.modifyObject o f).threading = s.threading := rfl

@[simp] theorem threading_allocate (body : ObjectBody) :
    (s.allocate body).2.threading = s.threading := rfl

@[simp] theorem threading_addReference (o : ObjectId) :
    (s.addReference o).threading = s.threading := rfl

@[simp] theorem threading_retain (o : ObjectId) : (s.retain o).2.threading = s.threading := by
  rw [retain]
  split <;> simp

@[simp] theorem threading_dropReference (o : ObjectId) :
    (s.dropReference o).2.threading = s.threading := by
  obtain ⟨-, h⟩ | ⟨_, -, -, h⟩ | ⟨_, -, -, h⟩ := dropReference_cases s o
  · rw [h]
  · rw [h, threading_modifyObject]
  · rw [h]
    rfl

@[simp] theorem threading_release (o : ObjectId) : (s.release o).threading = s.threading :=
  release_keeps (P := fun s' => s'.threading = s.threading)
    (fun s o h => (threading_dropReference s o).trans h) (fun _ _ h => h) rfl o

@[simp] theorem threading_openHandle (p : ProcessId) (o : ObjectId) :
    (s.openHandle p o).2.threading = s.threading := by
  rw [openHandle]
  split
  · rfl
  · split
    · rfl
    · split <;> simp

@[simp] theorem threading_openProcess (p target : ProcessId) :
    (s.openProcess p target).2.threading = s.threading := by
  rw [openProcess]
  split <;> simp

@[simp] theorem threading_createObject (p : ProcessId) (c : ObjectClass) :
    (s.createObject p c).2.threading = s.threading := by
  cases c <;> simp [createObject]

@[simp] theorem threading_closeHandle (p : ProcessId) (h : Handle) :
    (s.closeHandle p h).2.threading = s.threading := by
  rw [closeHandle]
  split <;> simp

@[simp] theorem threading_acquireProcess (p : ProcessId) (h : Handle) :
    (s.acquireProcess p h).2.threading = s.threading := by
  rw [acquireProcess]
  split <;> simp

@[simp] theorem threading_releaseProcess (p : ProcessId) :
    (s.releaseProcess p).threading = s.threading := by
  rw [releaseProcess]
  split <;> simp

@[simp] theorem threading_clearEvent (p : ProcessId) (h : Handle) :
    (s.clearEvent p h).2.threading = s.threading := by
  rw [clearEvent]
  split <;> simp

@[simp] theorem threading_createProcess (name : String) (titleId : UInt64) :
    (s.createProcess name titleId).2.threading = s.threading := rfl

end references

section pages
variable (s : State) (p : ProcessId)

@[simp] theorem threading_notifyLayoutChange :
    (s.notifyLayoutChange p).threading = s.threading := by
  rw [notifyLayoutChange]
  split
  · rfl
  · split
    · rfl
    · split <;> simp [signalEvent]

@[simp] theorem threading_mapPage (virtual physical : UInt32) (permissions : Permissions) :
    (s.mapPage p virtual physical permissions).2.threading = s.threading := by
  rw [mapPage]
  split <;> simp

@[simp] theorem threading_unmapPage (virtual : UInt32) :
    (s.unmapPage p virtual).2.threading = s.threading := by
  rw [unmapPage]
  split
  · rfl
  · split <;> simp

@[simp] theorem threading_forceRwx : (s.forceRwx p).threading = s.threading := rfl

@[simp] theorem threading_memoryChangeEvent :
    (s.memoryChangeEvent p).2.threading = s.threading := by
  rw [memoryChangeEvent]
  split
  · rfl
  · split <;> simp

end pages

/-- A property that every operation of the scheduler keeps, but for those that take a thread out of
the queues or set a hold by hand. -/
structure Stable (P : State → Prop) : Prop where
  frame : ∀ {s s' : State}, s'.threading = s.threading → P s → P s'
  createThread : ∀ {s : State} (p : ProcessId) (c : CoreId), P s → P (s.createThread p c).2
  setTls : ∀ {s : State} (t : ThreadId) (slot : Nat) (value : UInt32),
    P s → P (s.setTls t slot value).2
  setThreadState : ∀ {s : State} (t : ThreadId) (state : ThreadState),
    P s → P (s.setThreadState t state).2
  removeThread : ∀ {s : State} (t : ThreadId), P s → P (s.removeThread t)
  enqueue : ∀ {s : State} (t : ThreadId), P s → P (s.enqueue t)
  runOnCore : ∀ {s : State} (t : ThreadId), P s → P (s.runOnCore t).2
  reschedule : ∀ {s : State} (c : CoreId), P s → P (s.reschedule c)
  tick : ∀ {s : State} (c : CoreId), P s → P (s.tick c).2
  raiseIpi : ∀ {s : State} (c : CoreId), P s → P (s.raiseIpi c)
  deliverIpis : ∀ {s : State}, P s → P s.deliverIpis.2
  clearPluginLock : ∀ {s : State} (t : ThreadId), P s → P (s.clearPluginLock t).2
  lockThreads : ∀ {s : State} (c : CoreId) (p : ProcessId) (filter : Option ThreadFilter),
    P s → P (s.lockThreads c p filter).2

section
variable {P : State → Prop} {s : State}

theorem Stable.foldl {α : Type} {f : State → α → State} (hf : ∀ s a, P s → P (f s a)) (l : List α)
    (hs : P s) : P (l.foldl f s) := by
  induction l generalizing s with
  | nil => exact hs
  | cons a l ih => exact ih (hf s a hs)

theorem Stable.unlockEach (h : Stable P) (ts : List ThreadId) (hs : P s) :
    P (s.unlockEach ts).2 := by
  induction ts generalizing s with
  | nil => exact hs
  | cons t ts ih => exact ih (h.clearPluginLock t hs)

theorem Stable.controlTarget (h : Stable P) (caller : Caller) (p : ProcessId) (op : ControlOp)
    (hs : P s) : P (s.controlTarget caller p op).2 := by
  cases op with
  | listHandles c =>
    simp only [State.controlTarget]
    split <;> exact hs
  | forceRwx =>
    simp only [State.controlTarget]
    split
    · exact h.frame (by simp) hs
    · exact hs
  | memoryChangeEvent =>
    have hevent := threading_memoryChangeEvent s p
    simp only [State.controlTarget]
    split
    · exact hs
    · split
      next he =>
        rw [he] at hevent
        exact h.frame hevent hs
      next he =>
        rw [he] at hevent
        exact h.frame (by simpa using hevent) hs
  | signalOnExit =>
    simp only [State.controlTarget]
    split
    · exact h.frame (by simp) hs
    · exact hs
  | physicalAddress virtual => exact hs
  | schedule mode filter =>
    cases mode with
    | lock => exact h.lockThreads caller.core p filter hs
    | unlock => exact h.unlockEach _ hs

theorem Stable.withProcess (h : Stable P) {α : Type} (p : ProcessId) (handle : Handle)
    {use : ProcessId → State → Except Error α × State} (huse : ∀ q s, P s → P (use q s).2)
    (hs : P s) : P (s.withProcess p handle use).2 := by
  have hacquire := h.frame (threading_acquireProcess s p handle) hs
  rw [State.withProcess]
  split
  next he => rwa [he] at hacquire
  next he =>
    rw [he] at hacquire
    exact h.frame (threading_releaseProcess _ _) (huse _ _ hacquire)

theorem Stable.control (h : Stable P) (caller : Caller) (target : Handle) (op : ControlOp)
    (hs : P s) : P (s.control caller target op).2 :=
  h.withProcess _ _ (fun q _ hs => h.controlTarget caller q op hs) hs

theorem Stable.controlRaw (h : Stable P) (caller : Caller) (target : Handle) (code arg : UInt32)
    (hs : P s) : P (s.controlRaw caller target code arg).2 := by
  rw [State.controlRaw]
  split
  · exact hs
  · exact h.control caller target _ hs

theorem Stable.titleOf (h : Stable P) (p : ProcessId) (handle : Handle) (hs : P s) :
    P (s.titleOf p handle).2 := by
  refine h.withProcess p handle (fun q s hs => ?_) hs
  split <;> exact hs

theorem Stable.beginExit (h : Stable P) (p : ProcessId) (hs : P s) : P (s.beginExit p).2 := by
  rw [State.beginExit]
  split
  · exact hs
  · exact foldl (fun s t hs => h.setThreadState t .terminating hs) _ (h.frame (by simp) hs)

theorem Stable.destroyProcess (h : Stable P) (p : ProcessId) (hs : P s) :
    P (s.destroyProcess p).2 := by
  rw [State.destroyProcess]
  split
  · exact hs
  · split
    · exact hs
    · have hexit := h.beginExit p hs
      have hgone := foldl (fun s t hs => h.removeThread t hs) ((s.beginExit p).2.threadsOf p) hexit
      refine h.frame (threading_release _ _) ?_
      exact foldl (fun s o hs => h.frame (threading_release s o) hs) _ (h.frame (by simp) hgone)

/-- What every operation keeps. -/
theorem Stable.run (h : Stable P) (op : Operation) (hs : P s)
    (hmanual : op.isManual = true → P (op.run s).2) : P (op.run s).2 := by
  cases op with
  | control caller target op => exact h.control caller target op hs
  | controlRaw caller target code arg => exact h.controlRaw caller target code arg hs
  | createProcess name titleId => exact h.frame (threading_createProcess s name titleId) hs
  | createThread p c => exact h.createThread p c hs
  | setTls t slot value => exact h.setTls t slot value hs
  | setThreadState t state => exact h.setThreadState t state hs
  | setDebugLock t locked => exact hmanual rfl
  | beginExit p => exact h.beginExit p hs
  | destroyProcess p => exact h.destroyProcess p hs
  | runOnCore t => exact h.runOnCore t hs
  | enqueue t => exact h.enqueue t hs
  | evict t => exact hmanual rfl
  | reschedule c => exact h.reschedule c hs
  | tick c => exact h.tick c hs
  | raiseIpi c => exact h.raiseIpi c hs
  | deliverIpis => exact h.deliverIpis hs
  | setPluginLock t => exact hmanual rfl
  | clearPluginLock t => exact h.clearPluginLock t hs
  | setSyncOwner t =>
    have hsame : ((Operation.setSyncOwner t).run s).2.threading = s.threading := rfl
    exact h.frame hsame hs
  | retain o => exact h.frame (threading_retain s o) hs
  | release o => exact h.frame (threading_release s o) hs
  | openHandle p o => exact h.frame (threading_openHandle s p o) hs
  | openProcess p target => exact h.frame (threading_openProcess s p target) hs
  | createObject p c => exact h.frame (threading_createObject s p c) hs
  | closeHandle p handle => exact h.frame (threading_closeHandle s p handle) hs
  | acquireProcess p handle => exact h.frame (threading_acquireProcess s p handle) hs
  | releaseProcess p => exact h.frame (threading_releaseProcess s p) hs
  | titleOf p handle => exact h.titleOf p handle hs
  | clearEvent p handle => exact h.frame (threading_clearEvent s p handle) hs
  | mapPage p virtual physical permissions =>
    exact h.frame (threading_mapPage s p virtual physical permissions) hs
  | unmapPage p virtual => exact h.frame (threading_unmapPage s p virtual) hs

end
end State
end PluginSlot.Kernel
