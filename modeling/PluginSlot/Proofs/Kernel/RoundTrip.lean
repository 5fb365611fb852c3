import PluginSlot.Proofs.Kernel.Schedule

/-!
A lock and an unlock, with scheduling and debugging in between. The unlock undoes the lock, and keeps
what the debugger did meanwhile.
-/
namespace PluginSlot.Kernel

namespace Operation

/-- Scheduling, debugging and the mutex; none of these touches a hold of the loader. -/
def keepsHolds : Operation → Bool
  | tick _ | reschedule _ | enqueue _ | runOnCore _ | raiseIpi _ | deliverIpis | setDebugLock _ _
  | setSyncOwner _ => true
  | _ => false

def isDebugger : Operation → Bool
  | setDebugLock _ _ => true
  | _ => false

/-- What the debugger makes of the mask of a thread. -/
def debug (op : Operation) (t : ThreadId) (m : Mask) : Mask :=
  match op with
  | setDebugLock u locked => if u = t then m.withDebugLock locked else m
  | _ => m

/-- What the debugger makes of the mask of a thread in a run. -/
def debugAll (ops : List Operation) (t : ThreadId) (m : Mask) : Mask :=
  ops.foldl (fun m op => op.debug t m) m

section
variable (op : Operation) (ops : List Operation) (t : ThreadId) (m : Mask)

theorem isPluginLocked_debug : (op.debug t m).isPluginLocked = m.isPluginLocked := by
  cases op with
  | setDebugLock u locked =>
    rw [debug]
    split
    · exact Mask.isPluginLocked_withDebugLock m locked
    · rfl
  | _ => rfl

theorem state_debug : (op.debug t m).state = m.state := by
  cases op with
  | setDebugLock u locked =>
    rw [debug]
    split
    · exact Mask.state_withDebugLock m locked
    · rfl
  | _ => rfl

theorem debug_set_pluginLock :
    op.debug t (m.set Mask.pluginLock) = (op.debug t m).set Mask.pluginLock := by
  cases op with
  | setDebugLock u locked =>
    rw [debug, debug]
    split
    · exact Mask.withDebugLock_set_pluginLock m locked
    · rfl
  | _ => rfl

theorem isPluginLocked_debugAll : (debugAll ops t m).isPluginLocked = m.isPluginLocked := by
  induction ops generalizing m with
  | nil => rfl
  | cons op ops ih => exact (ih (op.debug t m)).trans (isPluginLocked_debug op t m)

theorem state_debugAll : (debugAll ops t m).state = m.state := by
  induction ops generalizing m with
  | nil => rfl
  | cons op ops ih => exact (ih (op.debug t m)).trans (state_debug op t m)

theorem debugAll_set_pluginLock :
    debugAll ops t (m.set Mask.pluginLock) = (debugAll ops t m).set Mask.pluginLock := by
  induction ops generalizing m with
  | nil => rfl
  | cons op ops ih =>
    show debugAll ops t (op.debug t (m.set Mask.pluginLock)) = _
    rw [debug_set_pluginLock]
    exact ih (op.debug t m)

/-- Only the debugger counts. -/
theorem debugAll_filter : debugAll (ops.filter isDebugger) t m = debugAll ops t m := by
  induction ops generalizing m with
  | nil => rfl
  | cons op ops ih =>
    cases op with
    | setDebugLock u locked => exact ih _
    | _ => exact ih m

end
end Operation

/-- The thread as the debugger leaves it. -/
def Thread.debugAll (ops : List Operation) (t : ThreadId) (thread : Thread) : Thread :=
  { thread with mask := Operation.debugAll ops t thread.mask }

namespace State
open Operation

section
variable (s : State) (c : CoreId) (t : ThreadId)

theorem changes_enqueueOption (o : Option ThreadId) : s.Changes (fun _ => id) (s.enqueueOption o) := by
  cases o with
  | none => exact .of_cores rfl
  | some t => exact changes_enqueue s t

theorem changes_tick : s.Changes (fun _ => id) (s.tick c).2 := by
  rw [tick]
  split
  · exact .of_cores rfl
  next core _ =>
    have hback := ((changes_setCurrent s c none).trans (changes_popRunnable _ c)).trans
      (changes_enqueueOption _ core.current)
    dsimp only
    split
    · exact hback.trans (changes_setCurrent _ c _)
    · exact (hback.trans (changes_popRunnable _ c)).trans (changes_setCurrent _ c _)

theorem changes_runOnCore : s.Changes (fun _ => id) (s.runOnCore t).2 := by
  rw [runOnCore]
  split
  · exact .of_cores rfl
  · split
    · exact .of_cores rfl
    · dsimp only
      split
      · exact changes_evict s t
      · exact ((changes_evict s t).trans (changes_setCurrent _ _ _)).trans (changes_enqueueOption _ _)

theorem changes_setDebugLock (locked : Bool) : s.Changes
    (Thread.changeIf (· = t) fun thread => { thread with mask := thread.mask.withDebugLock locked })
    (s.setDebugLock t locked).2 := by
  cases ht : s.thread? t with
  | none =>
    rw [State.setDebugLock, ht]
    exact changes_self s t (by simp [ht])
  | some thread =>
    rw [setDebugLock_eq ht]
    have hmask := changes_setMask_of_eq s t ht
      (fun thread => { thread with mask := thread.mask.withDebugLock locked }) rfl
    split
    · exact hmask.trans (changes_enqueue _ t)
    · exact hmask.trans (changes_evict _ t)

end

section
variable {s s' : State} {op : Operation} {ops : List Operation}

/-- Of all that happens between a lock and an unlock, only the debugger changes a thread. -/
theorem thread?_run_of_keepsHolds (h : op.keepsHolds = true) (t : ThreadId) :
    (op.run s).2.thread? t =
      (s.thread? t).map fun thread => { thread with mask := op.debug t thread.mask } := by
  have hstill {s' : State} (hs : s.Changes (fun _ => id) s') :
      s'.thread? t = (s.thread? t).map fun thread => { thread with mask := thread.mask } :=
    hs.thread? t
  cases op with
  | tick c => exact hstill (changes_tick s c)
  | reschedule c => exact hstill (changes_reschedule s c)
  | enqueue t => exact hstill (changes_enqueue s t)
  | runOnCore t => exact hstill (changes_runOnCore s t)
  | raiseIpi c => exact hstill (.of_cores rfl)
  | deliverIpis => exact hstill (changes_deliverIpis s)
  | setDebugLock u locked =>
    refine ((changes_setDebugLock s u locked).thread? t).trans (congrArg (Option.map · _) ?_)
    funext thread
    by_cases hu : u = t <;> simp [Thread.changeIf, debug, hu, eq_comm (a := t)]
  | setSyncOwner o => exact Option.map_id_apply.symm
  | _ => cases h

theorem thread?_runAll_of_keepsHolds (h : ∀ op ∈ ops, op.keepsHolds = true) (t : ThreadId) :
    (s.runAll ops).thread? t = (s.thread? t).map (Thread.debugAll ops t) := by
  induction ops generalizing s with
  | nil => exact Option.map_id_apply.symm
  | cons op ops ih =>
    have hrest := ih (s := (op.run s).2) fun op hop => h op (List.mem_cons_of_mem _ hop)
    refine hrest.trans ?_
    rw [thread?_run_of_keepsHolds (h op List.mem_cons_self), Option.map_map]
    rfl

/-- The debugger's part of what happened, by itself. -/
theorem thread?_runAll_filter (h : ∀ op ∈ ops, op.keepsHolds = true) (t : ThreadId) :
    (s.runAll (ops.filter isDebugger)).thread? t = (s.thread? t).map (Thread.debugAll ops t) := by
  rw [thread?_runAll_of_keepsHolds fun op hop => h op (List.mem_filter.mp hop).1]
  refine congrArg (Option.map · _) (funext fun thread => ?_)
  rw [Thread.debugAll, debugAll_filter, Thread.debugAll]

theorem books_run_of_keepsHolds (h : op.keepsHolds = true) : (op.run s).2.books = s.books := by
  cases op with
  | tick c => exact (changes_tick s c).books
  | reschedule c => exact (changes_reschedule s c).books
  | enqueue t => exact (changes_enqueue s t).books
  | runOnCore t => exact (changes_runOnCore s t).books
  | raiseIpi c => rfl
  | deliverIpis => exact (changes_deliverIpis s).books
  | setDebugLock t locked => exact (changes_setDebugLock s t locked).books
  | setSyncOwner o => rfl
  | _ => cases h

theorem books_runAll_of_keepsHolds (h : ∀ op ∈ ops, op.keepsHolds = true) :
    (s.runAll ops).books = s.books := by
  induction ops generalizing s with
  | nil => rfl
  | cons op ops ih =>
    exact (ih fun op hop => h op (List.mem_cons_of_mem _ hop)).trans
      (books_run_of_keepsHolds (h op List.mem_cons_self))

/-- What a handle names is written in the books. -/
theorem resolveProcess_of_books (h : s'.books = s.books) (p : ProcessId) (handle : Handle) :
    s'.resolveProcess p handle = s.resolveProcess p handle := by
  have hprocesses : s'.processes = s.processes := congrArg Books.processes h
  have hobjects : s'.objects = s.objects := congrArg Books.objects h
  simp only [resolveProcess, lookup, process?, object?, hprocesses, hobjects]

variable {p : ProcessId} {filter : Option ThreadFilter} {t : ThreadId} {thread : Thread}

theorem concerns_of_state {thread' : Thread} (hview : thread'.view t = thread.view t)
    (hstate : thread'.mask.state = thread.mask.state) :
    concerns p filter t thread' = concerns p filter t thread := by
  have howner : thread'.owner = thread.owner := congrArg ThreadView.owner hview
  simp only [concerns, matchesFilter, Mask.isTerminating, hview, hstate, howner]

theorem concerns_hold : concerns p filter t thread.hold = concerns p filter t thread :=
  concerns_of_state rfl (Mask.state_set_pluginLock _)

theorem concerns_debugAll :
    concerns p filter t (Thread.debugAll ops t thread) = concerns p filter t thread :=
  concerns_of_state rfl (state_debugAll ops t thread.mask)

theorem debugAll_hold : Thread.debugAll ops t thread.hold = (Thread.debugAll ops t thread).hold := by
  simp only [Thread.debugAll, Thread.hold, debugAll_set_pluginLock]

/-- Of a lock, what the debugger does, and an unlock, only the second is left. -/
theorem unlockedThread_debugAll_lockedThread (hfree : thread.mask.isPluginLocked = false) :
    unlockedThread p filter t (Thread.debugAll ops t (s.lockedThread p filter t thread)) =
      Thread.debugAll ops t thread := by
  have hdebugged : (Thread.debugAll ops t thread).unhold = Thread.debugAll ops t thread :=
    Thread.unhold_of_free ((isPluginLocked_debugAll ops t thread.mask).trans hfree)
  have hundone : (Thread.debugAll ops t thread).hold.unhold = (Thread.debugAll ops t thread).unhold := by
    simp only [Thread.hold, Thread.unhold, Mask.clear_set_pluginLock]
  rw [lockedThread]
  split
  next h =>
    have hconcerned : concerns p filter t thread = true := (Bool.and_eq_true_iff.mp h).1
    rw [debugAll_hold, unlockedThread, concerns_hold, concerns_debugAll, if_pos hconcerned, hundone,
      hdebugged]
  next =>
    rw [unlockedThread]
    split
    · exact hdebugged
    · rfl

/-- A thread that was locked finds nothing new in a second lock. -/
theorem lockedThread_debugAll_lockedThread (hsync : s'.syncOwner = s.syncOwner) :
    s'.lockedThread p filter t (Thread.debugAll ops t (s.lockedThread p filter t thread)) =
      Thread.debugAll ops t (s.lockedThread p filter t thread) := by
  rw [lockedThread, hsync, concerns_debugAll, lockedThread]
  split
  next h => rw [concerns_hold, h, if_pos rfl, debugAll_hold, Thread.hold_hold]
  next => rfl

theorem debugAll_unhold :
    (Thread.debugAll ops t thread.unhold).unhold = Thread.debugAll ops t thread.unhold :=
  Thread.unhold_of_free ((isPluginLocked_debugAll ops t thread.unhold.mask).trans
    (Mask.isPluginLocked_clear_pluginLock _))

theorem unlockedThread_debugAll_unlockedThread :
    unlockedThread p filter t (Thread.debugAll ops t (unlockedThread p filter t thread)) =
      Thread.debugAll ops t (unlockedThread p filter t thread) := by
  rw [unlockedThread, concerns_debugAll, unlockedThread]
  split
  next h =>
    split
    · exact debugAll_unhold
    · rfl
  next => rfl

/-- The debugger's hold is the debugger's alone. -/
theorem isDebugLocked_unlockedThread :
    (unlockedThread p filter t thread).mask.isDebugLocked = thread.mask.isDebugLocked := by
  rw [unlockedThread]
  split
  · exact Mask.isDebugLocked_clear_pluginLock _
  · rfl

theorem isDebugLocked_debugAll_lockedThread :
    (Thread.debugAll ops t (s.lockedThread p filter t thread)).mask.isDebugLocked =
      (Thread.debugAll ops t thread).mask.isDebugLocked := by
  rw [lockedThread]
  split
  · rw [debugAll_hold]
    exact Mask.isDebugLocked_set_pluginLock _
  · rfl

variable {caller : CoreId} {o : ObjectId} {report : ScheduleReport}

theorem Locks.thread? (h : s.Locks caller p o filter report s') (t : ThreadId) :
    s'.thread? t = (s.thread? t).map (s.lockedThread p filter t) :=
  thread?_of_threads (congrArg State.threads h.state) t

theorem Unlocks.thread? (h : s.Unlocks p o filter report s') (t : ThreadId) :
    s'.thread? t = (s.thread? t).map (unlockedThread p filter t) :=
  thread?_of_threads (congrArg State.threads h.state) t

/-- A lock that finds all threads held that it is about changes no thread. -/
theorem Locks.again (h : s.Locks caller p o filter report s')
    (hheld : ∀ t thread, s.thread? t = some thread → s.lockedThread p filter t thread = thread) :
    report.locked = [] ∧ ∀ t, s'.thread? t = s.thread? t := by
  have hsame (t : ThreadId) : s'.thread? t = s.thread? t :=
    (h.thread? t).trans ((Option.map_congr (hheld t)).trans Option.map_id_apply)
  refine ⟨List.eq_nil_iff_forall_not_mem.mpr fun t ht => ?_, hsame⟩
  obtain ⟨before, after, hbefore, hafter, hfree, hlocked⟩ := (h.locked t).mp ht
  cases hbefore.symm.trans ((hsame t).symm.trans hafter)
  cases hfree.symm.trans hlocked

/-- An unlock that finds all threads free that it is about changes no thread. -/
theorem Unlocks.again (h : s.Unlocks p o filter report s')
    (hfree : ∀ t thread, s.thread? t = some thread → unlockedThread p filter t thread = thread) :
    report.unlocked = [] ∧ ∀ t, s'.thread? t = s.thread? t := by
  have hsame (t : ThreadId) : s'.thread? t = s.thread? t :=
    (h.thread? t).trans ((Option.map_congr (hfree t)).trans Option.map_id_apply)
  refine ⟨List.eq_nil_iff_forall_not_mem.mpr fun t ht => ?_, hsame⟩
  obtain ⟨before, after, hbefore, hafter, hheld, hfree⟩ := (h.unlocked t).mp ht
  cases hbefore.symm.trans ((hsame t).symm.trans hafter)
  cases hheld.symm.trans hfree

end

/-- Whether a debugger holds the thread, if there is such a thread. -/
def debugHold (s : State) (t : ThreadId) : Option Bool := (s.thread? t).map (·.mask.isDebugLocked)

section
variable {s held s' : State} {p : ProcessId} {filter : Option ThreadFilter} {between : List Operation}
variable {caller caller' : CoreId} {o o' : ObjectId} {report report' : ScheduleReport}

/-- The unlock gives the threads back as the debugger alone would have left them. -/
theorem Locks.roundTrip (hlock : s.Locks caller p o filter report held)
    (hbetween : ∀ op ∈ between, op.keepsHolds = true)
    (hunlock : (held.runAll between).Unlocks p o' filter report' s') :
    (∀ t thread, s.thread? t = some thread → thread.mask.isPluginLocked = false →
      s'.thread? t = (s.runAll (between.filter isDebugger)).thread? t) ∧
    ∀ t, s'.debugHold t = (s.runAll (between.filter isDebugger)).debugHold t := by
  have hend (t : ThreadId) : s'.thread? t = (s.thread? t).map fun thread =>
      unlockedThread p filter t (Thread.debugAll between t (s.lockedThread p filter t thread)) := by
    rw [hunlock.thread?, thread?_runAll_of_keepsHolds hbetween, hlock.thread?, Option.map_map,
      Option.map_map]
    rfl
  constructor
  · intro t thread ht hfree
    rw [hend, thread?_runAll_filter hbetween, ht]
    exact congrArg some (unlockedThread_debugAll_lockedThread hfree)
  · intro t
    rw [debugHold, debugHold, hend, thread?_runAll_filter hbetween, Option.map_map, Option.map_map]
    refine congrArg (Option.map · _) (funext fun thread => ?_)
    exact isDebugLocked_unlockedThread.trans isDebugLocked_debugAll_lockedThread

/-- A second lock finds everything held, if the mutex is where it was. -/
theorem Locks.second (hlock : s.Locks caller p o filter report held)
    (hbetween : ∀ op ∈ between, op.keepsHolds = true)
    (hsync : (held.runAll between).syncOwner = s.syncOwner)
    (hagain : (held.runAll between).Locks caller' p o' filter report' s') :
    report'.locked = [] ∧ ∀ t, s'.thread? t = (held.runAll between).thread? t := by
  refine hagain.again fun t thread ht => ?_
  rw [thread?_runAll_of_keepsHolds hbetween, hlock.thread?, Option.map_map] at ht
  obtain ⟨before, -, rfl⟩ := Option.map_eq_some_iff.mp ht
  exact lockedThread_debugAll_lockedThread hsync

/-- A second unlock finds everything free. -/
theorem Unlocks.second (hunlock : s.Unlocks p o filter report held)
    (hbetween : ∀ op ∈ between, op.keepsHolds = true)
    (hagain : (held.runAll between).Unlocks p o' filter report' s') :
    report'.unlocked = [] ∧ ∀ t, s'.thread? t = (held.runAll between).thread? t := by
  refine hagain.again fun t thread ht => ?_
  rw [thread?_runAll_of_keepsHolds hbetween, hunlock.thread?, Option.map_map] at ht
  obtain ⟨before, -, rfl⟩ := Option.map_eq_some_iff.mp ht
  exact unlockedThread_debugAll_unlockedThread

end

/-- A lock of a process, then scheduling and debugging, then an unlock of the same process by anybody who
has a handle to it: the threads that were not held before are as if the debugger alone had acted, and
the debugger's holds are as it left them. A second lock in place of the unlock, with the mutex where it
was, holds no thread and changes none; nor does a second unlock after an unlock. Handles name the same
all the while, if the reference that the first call holds can be counted and given back. -/
theorem runAll_schedule_roundTrip (cores : Nat) (ops : List Operation) :
    let s := (boot cores).runAll ops
    ∀ (caller : Caller) (handle : Handle) (p : ProcessId) (o : ObjectId) (filter : Option ThreadFilter),
    s.resolveProcess caller.process handle = .ok (p, o) →
    ∀ between : List Operation, (∀ op ∈ between, op.keepsHolds = true) →
    ∃ held released report report',
      s.control caller handle (.schedule .lock filter) = (.ok (.schedule report), held) ∧
      s.control caller handle (.schedule .unlock filter) = (.ok (.schedule report'), released) ∧
      (s.Lendable o → ∀ q h, (held.runAll between).resolveProcess q h = s.resolveProcess q h ∧
        (released.runAll between).resolveProcess q h = s.resolveProcess q h) ∧
      (∀ (caller' : Caller) (handle' : Handle) (o' : ObjectId),
        (held.runAll between).resolveProcess caller'.process handle' = .ok (p, o') →
        (∃ report s', (held.runAll between).control caller' handle' (.schedule .unlock filter) =
            (.ok (.schedule report), s') ∧
          (∀ t thread, s.thread? t = some thread → thread.mask.isPluginLocked = false →
            s'.thread? t = (s.runAll (between.filter isDebugger)).thread? t) ∧
          ∀ t, s'.debugHold t = (s.runAll (between.filter isDebugger)).debugHold t) ∧
        ((held.runAll between).syncOwner = s.syncOwner →
          ∃ report s', (held.runAll between).control caller' handle' (.schedule .lock filter) =
              (.ok (.schedule report), s') ∧
            report.locked = [] ∧ ∀ t, s'.thread? t = (held.runAll between).thread? t)) ∧
      ∀ (caller' : Caller) (handle' : Handle) (o' : ObjectId),
        (released.runAll between).resolveProcess caller'.process handle' = .ok (p, o') →
        ∃ report s', (released.runAll between).control caller' handle' (.schedule .unlock filter) =
            (.ok (.schedule report), s') ∧
          report.unlocked = [] ∧ ∀ t, s'.thread? t = (released.runAll between).thread? t := by
  intro s caller handle p o filter hr between hbetween
  have hs : s.Rooted := (rooted_boot cores).runAll ops
  have hp : s.Placed _ := (placed_boot cores).runAll ops
  obtain ⟨report, held, hlock, hlocks⟩ := hs.control_lock filter hp hr
  obtain ⟨report', released, hunlock, hunlocks⟩ := hs.control_unlock filter hr
  have hheld : ((Operation.control caller handle (.schedule .lock filter)).run s).2 = held :=
    congrArg Prod.snd hlock
  have hreleased : ((Operation.control caller handle (.schedule .unlock filter)).run s).2 = released :=
    congrArg Prod.snd hunlock
  refine ⟨held, released, report, report', hlock, hunlock, fun hlend q h => ⟨?_, ?_⟩,
    fun caller' handle' o' hr' => ⟨?_, fun hsync => ?_⟩, fun caller' handle' o' hr' => ?_⟩
  · have hbooks := (books_runAll_of_keepsHolds hbetween).trans (hlocks.books hlend)
    exact resolveProcess_of_books hbooks q h
  · have hbooks := (books_runAll_of_keepsHolds hbetween).trans (hunlocks.books hlend)
    exact resolveProcess_of_books hbooks q h
  · have hrooted : (held.runAll between).Rooted := hheld ▸ hs.runAll (_ :: between)
    obtain ⟨report, s', hundo, hunlocked⟩ := hrooted.control_unlock filter hr'
    exact ⟨report, s', hundo, hlocks.roundTrip hbetween hunlocked⟩
  · have hrooted : (held.runAll between).Rooted := hheld ▸ hs.runAll (_ :: between)
    have hplaced := (hheld ▸ hp.run (.control caller handle (.schedule .lock filter))).runAll between
    obtain ⟨report, s', hagain, hlocked⟩ := hrooted.control_lock filter hplaced hr'
    exact ⟨report, s', hagain, hlocks.second hbetween hsync hlocked⟩
  · have hrooted : (released.runAll between).Rooted := hreleased ▸ hs.runAll (_ :: between)
    obtain ⟨report, s', hagain, hunlocked⟩ := hrooted.control_unlock filter hr'
    exact ⟨report, s', hagain, hunlocks.second hbetween hunlocked⟩

/-- A debugger stops a thread that is held, and lets the other go that it held before; the mutex changes
hands. After the unlock the first thread is left to the debugger and the second is free. -/
theorem runAll_schedule_roundTrip_debugged :
    let s := (boot 2).runAll [.createProcess "host" 1, .createThread ⟨1⟩ ⟨0⟩, .createThread ⟨1⟩ ⟨1⟩,
      .setThreadState ⟨1⟩ .runnable, .setThreadState ⟨2⟩ .runnable, .runOnCore ⟨1⟩, .runOnCore ⟨2⟩,
      .setDebugLock ⟨2⟩ true]
    let between : List Operation := [.setDebugLock ⟨1⟩ true, .tick ⟨0⟩, .setSyncOwner (some ⟨1⟩),
      .setDebugLock ⟨2⟩ false, .raiseIpi ⟨1⟩, .deliverIpis]
    s.resolveProcess ⟨1⟩ .currentProcess = .ok (⟨1⟩, ⟨1⟩) ∧
      (∀ op ∈ between, op.keepsHolds = true) ∧
      ∃ held report report' s',
        s.control ⟨⟨1⟩, ⟨1⟩, ⟨0⟩⟩ .currentProcess (.schedule .lock none) =
          (.ok (.schedule report), held) ∧
        (held.runAll between).control ⟨⟨1⟩, ⟨2⟩, ⟨1⟩⟩ .currentProcess (.schedule .unlock none) =
          (.ok (.schedule report'), s') ∧
        (s'.thread? ⟨1⟩).map (·.mask) = some ⟨0x0041⟩ ∧ (s'.thread? ⟨2⟩).map (·.mask) = some ⟨0x0001⟩ := by
  intro s between
  have hbetween : ∀ op ∈ between, op.keepsHolds = true := by simp [between, keepsHolds]
  obtain ⟨held, released, report, -, hlock, -, hsame, hafter, -⟩ := runAll_schedule_roundTrip 2
    [.createProcess "host" 1, .createThread ⟨1⟩ ⟨0⟩, .createThread ⟨1⟩ ⟨1⟩,
      .setThreadState ⟨1⟩ .runnable, .setThreadState ⟨2⟩ .runnable, .runOnCore ⟨1⟩, .runOnCore ⟨2⟩,
      .setDebugLock ⟨2⟩ true] ⟨⟨1⟩, ⟨1⟩, ⟨0⟩⟩ .currentProcess ⟨1⟩ ⟨1⟩ none rfl between hbetween
  have hlend : s.Lendable ⟨1⟩ := by
    intro object ho
    cases ho
    decide
  obtain ⟨⟨report', s', hunlock, hthreads, -⟩, -⟩ :=
    hafter ⟨⟨1⟩, ⟨2⟩, ⟨1⟩⟩ .currentProcess ⟨1⟩ (hsame hlend ⟨1⟩ .currentProcess).1
  have hfree (t : ThreadId) (ht : s.isFree t = true) :
      s'.thread? t = (s.runAll (between.filter isDebugger)).thread? t := by
    cases hthread : s.thread? t with
    | none => simp [isFree, hthread] at ht
    | some thread => exact hthreads t thread hthread (by simpa [isFree, hthread] using ht)
  refine ⟨rfl, hbetween, held, report, report', s', hlock, hunlock, ?_, ?_⟩
  · rw [hfree ⟨1⟩ (by decide)]
    decide
  · rw [hfree ⟨2⟩ (by decide)]
    decide

end State
end PluginSlot.Kernel
