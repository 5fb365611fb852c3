import PluginSlot.Proofs.Kernel.Execution

/-!
The loader's hold. To set it on threads that execute is a matter of two passes, interrupts and a
last look at the caller's own core; when it is done, no thread that is held executes or waits.
-/
namespace PluginSlot.Kernel
namespace State

variable {s s' : State} {c : CoreId} {core : Core} {t : ThreadId} {thread : Thread}
variable {good : Mask → Bool} {P : Prop} {K : Set CoreId} {A : Set ThreadId}

theorem setPluginLock_of_held (ht : s.thread? t = some thread)
    (h : thread.mask.isPluginLocked = true) : s.setPluginLock t = (false, s) := by
  simp [setPluginLock, ht, h]

theorem setPluginLock_of_free (ht : s.thread? t = some thread)
    (h : thread.mask.isPluginLocked = false) :
    s.setPluginLock t = (true, (s.setMask t (thread.mask.set Mask.pluginLock)).evict t) := by
  simp [setPluginLock, ht, h]

theorem Executes.setPluginLock_idle (h : s.Executes good P K) (hidle : s.runningCore t = none) :
    (s.setPluginLock t).2.Executes good P K := by
  rw [State.setPluginLock]
  split
  · exact h
  · split
    · exact h
    · exact h.stop_idle (runningCore_eq_none.mp hidle) _

theorem Executes.lockIdle (h : s.Executes good P K) (ts : List ThreadId) :
    (s.lockIdle ts).2.Executes good P K := by
  induction ts generalizing s with
  | nil => exact h
  | cons t ts ih =>
    simp only [State.lockIdle]
    split
    case isTrue => exact ih h
    case isFalse hfree =>
      have hidle : s.runningCore t = none := by
        cases hr : s.runningCore t with
        | none => rfl
        | some c => simp [hr] at hfree
      exact ih (h.setPluginLock_idle hidle)

/-- A thread that is stopped while it executes: its core was asked to reschedule, or it is the
caller's own. -/
theorem Executes.interruptFor (hp : s.Placed A) (h : s.Executes good True K)
    (ht : s.thread? t = some thread) {m : Mask} (hm : m.isRunnable = false) (caller : CoreId) :
    (((s.setMask t m).evict t).interruptFor caller thread.core).Executes good True
      (K ∪ {c | (thread.core = caller ∧
        ((s.setMask t m).evict t).runningCore t = some thread.core) ∧ c = caller}) := by
  have hstop := h.stop hp ht m
  by_cases hcaller : thread.core = caller
  · rw [State.interruptFor, if_pos hcaller]
    by_cases hrun : ((s.setMask t m).evict t).runningCore t = some thread.core
    · refine hstop.mono id ?_
      rintro c (hc | hc)
      · exact .inr ⟨⟨hcaller, hrun⟩, hc.trans hcaller⟩
      · exact .inl hc
    · have hout := hp.setMask_evict ht hm
      have hidle : s.currentOf thread.core ≠ some t := by
        intro hcur
        rw [← currentOf_setMask s t m, ← currentOf_evict t] at hcur
        obtain ⟨core, hc, hcur⟩ := Option.bind_eq_some_iff.mp hcur
        exact hrun (hout.runningCore_eq_some.mpr ⟨core, hc, hcur⟩)
      exact (h.stop_idle (hp.idle_of_home ht hidle) m).mono id Set.subset_union_left
  · rw [State.interruptFor, if_neg hcaller]
    exact ((hstop.raiseIpi caller).raiseIpi_self).mono id Set.subset_union_left

theorem Executes.lockExecuting (hp : s.Placed A) (h : s.Executes good True K) (caller : CoreId)
    (ts : List ThreadId) :
    (s.lockExecuting caller ts).2.2.Executes good True
      (K ∪ {c | (s.lockExecuting caller ts).2.1 = true ∧ c = caller}) := by
  induction ts generalizing s K with
  | nil => exact h.mono id Set.subset_union_left
  | cons t ts ih =>
    rw [State.lockExecuting]
    split
    next => exact ih hp h
    next thread hthread =>
      have ht : s.thread? t = some thread := by
        split at hthread
        · cases hthread
        · exact hthread
      cases hheld : thread.mask.isPluginLocked with
      | true =>
        rw [setPluginLock_of_held ht hheld]
        exact ih hp h
      | false =>
        have hm : (thread.mask.set Mask.pluginLock).isRunnable = false :=
          Mask.isRunnable_eq_false_of_isPluginLocked (by simp)
        rw [setPluginLock_of_free ht hheld]
        have hout := (hp.setMask_evict ht hm).interruptFor caller thread.core
        refine (ih hout (h.interruptFor hp ht hm caller)).mono id ?_
        rintro c ((hK | ⟨⟨hcaller, hrun⟩, hc⟩) | ⟨hown, hc⟩)
        · exact .inl hK
        · exact .inr ⟨by simp [hcaller, hrun], hc⟩
        · exact .inr ⟨by simp [hown], hc⟩

theorem Executes.lockThreads (hgood : ∀ m : Mask, m.isRunnable = true → good m = true)
    (hp : s.Placed A) (h : s.Executes good P K) (caller : CoreId) (p : ProcessId)
    (filter : Option ThreadFilter) :
    (s.lockThreads caller p filter).2.Executes good P K := by
  have hidle := h.lockIdle (s.scheduleTargets p filter)
  have hpidle := hp.lockIdle (s.scheduleTargets p filter)
  simp only [State.lockThreads]
  split
  case isFalse => exact hidle
  case isTrue =>
    have hpexec := hpidle.lockExecuting caller (s.scheduleTargets p filter)
    have hexec := (hidle.mono (fun _ => trivial) subset_rfl).lockExecuting hpidle caller
      (s.scheduleTargets p filter)
    have hrest := hexec.deliverIpis (P := P) hgood hpexec
    dsimp only
    split
    case isTrue hown =>
      refine Executes.reschedule hgood hpexec.deliverIpis (hrest.mono id ?_)
      rintro c (hK | ⟨-, hc⟩)
      · exact .inr hK
      · exact .inl hc
    case isFalse hown =>
      refine hrest.mono id ?_
      rintro c (hK | ⟨hown', -⟩)
      · exact hK
      · exact absurd hown' hown

/-- What every operation keeps of the threads that execute, whatever counts as good, so long as a
thread that may run is good and a hold that is released spoils nothing. -/
theorem executes_stable (hgood : ∀ m : Mask, m.isRunnable = true → good m = true)
    (hclear : ∀ m : Mask, good m = true → good (m.clear Mask.pluginLock) = true) :
    Stable fun s => s.Placed A ∧ s.Executes good P ∅ where
  frame hs h := ⟨h.1.frame hs, h.2.frame hs⟩
  createThread p c h := ⟨h.1.createThread p c, h.2.createThread h.1 p c⟩
  setTls t slot value h := ⟨h.1.setTls t slot value, h.2.setTls t slot value⟩
  setThreadState t state h :=
    ⟨h.1.setThreadState t state, Executes.setThreadState hgood h.1 h.2 t state⟩
  removeThread t h := ⟨h.1.removeThread t, h.2.removeThread t⟩
  enqueue t h := ⟨(h.1.mono (Set.subset_insert t A)).enqueue, h.2.enqueue t⟩
  runOnCore t h := ⟨h.1.runOnCore t, Executes.runOnCore hgood h.1 h.2 t⟩
  reschedule c h :=
    ⟨h.1.reschedule c, Executes.reschedule hgood h.1 (h.2.mono id (Set.subset_insert c ∅))⟩
  tick c h := ⟨h.1.tick c, Executes.tick hgood h.1 (h.2.mono id (Set.subset_insert c ∅))⟩
  raiseIpi c h := ⟨h.1.raiseIpi c, h.2.raiseIpi c⟩
  deliverIpis h :=
    ⟨h.1.deliverIpis, Executes.deliverIpis hgood h.1 (h.2.mono (fun _ => trivial) subset_rfl)⟩
  clearPluginLock t h := ⟨h.1.clearPluginLock t, h.2.clearPluginLock hclear t⟩
  lockThreads c p filter h :=
    ⟨h.1.lockThreads c p filter, Executes.lockThreads hgood h.1 h.2 c p filter⟩

theorem Executes.run (hgood : ∀ m : Mask, m.isRunnable = true → good m = true)
    (hclear : ∀ m : Mask, good m = true → good (m.clear Mask.pluginLock) = true)
    (hp : s.Placed A) (h : s.Executes good P ∅) (op : Operation)
    (hmanual : op.isManual = true → (op.run s).2.Executes good P ∅) :
    (op.run s).2.Executes good P ∅ := by
  have hstart : s.Placed (A ∪ strays [op]) ∧ s.Executes good P ∅ :=
    ⟨hp.mono Set.subset_union_left, h⟩
  exact ((executes_stable hgood hclear).run op hstart fun hm => ⟨hp.run op, hmanual hm⟩).2

theorem executes_boot (cores : Nat) : (boot cores).Executes good P K := by
  intro c core t thread _ _ ht
  cases ht

/-- The loader holds a thread. -/
def Held (s : State) (t : ThreadId) : Prop :=
  ∃ thread, s.thread? t = some thread ∧ thread.mask.isPluginLocked = true

/-- A thread neither executes nor waits to. -/
def Stopped (s : State) (t : ThreadId) : Prop :=
  ∀ c core, s.core? c = some core → core.current ≠ some t ∧ t ∉ core.queue

theorem Placed.stopped (hp : s.Placed A)
    (h : s.Executes (fun m => !m.isPluginLocked) False ∅) (ht : s.Held t) : s.Stopped t := by
  obtain ⟨thread, ht, hheld⟩ := ht
  intro c core hc
  constructor
  · intro hcur
    rcases h c core t thread hc hcur ht with hg | ⟨hf, -⟩ | hf
    · simp [hheld] at hg
    · exact hf
    · exact hf
  · intro hq
    have hrun : thread.mask.isRunnable = true := by
      simpa [State.mayRun, ht] using (hp.ordered c core hc).mayRun t hq
    rw [Mask.isRunnable_eq_false_of_isPluginLocked hheld] at hrun
    cases hrun

section held
variable {u : ThreadId}

theorem Held.congr (hthread : ∀ t, s'.thread? t = s.thread? t) (h : s.Held t) : s'.Held t := by
  rwa [Held, hthread]

@[simp] theorem thread?_interruptFor (caller home : CoreId) (t : ThreadId) :
    (s.interruptFor caller home).thread? t = s.thread? t := by
  rw [interruptFor]
  split <;> rfl

@[simp] theorem thread?_popRunnable (c : CoreId) (t : ThreadId) :
    (s.popRunnable c).2.thread? t = s.thread? t := by
  rw [popRunnable]
  split <;> rfl

@[simp] theorem thread?_reschedule (c : CoreId) (t : ThreadId) :
    (s.reschedule c).thread? t = s.thread? t := by
  simp only [reschedule]
  split
  · rfl
  · exact thread?_popRunnable c t

@[simp] theorem thread?_deliverIpis (t : ThreadId) : s.deliverIpis.2.thread? t = s.thread? t := by
  have hrun : ∀ (cores : List CoreId) (s : State),
      (cores.foldl deliverIpi s).thread? t = s.thread? t := by
    intro cores
    induction cores with
    | nil => exact fun _ => rfl
    | cons c cores ih => exact fun s => (ih (s.deliverIpi c)).trans (thread?_reschedule c t)
  exact hrun s.pendingCores s

theorem Held.setPluginLock (h : s.Held t) (u : ThreadId) : (s.setPluginLock u).2.Held t := by
  by_cases hu : t = u
  · subst hu
    obtain ⟨thread, ht, hheld⟩ := h
    rw [setPluginLock_of_held ht hheld]
    exact ⟨thread, ht, hheld⟩
  · have hsame : (s.setPluginLock u).2.thread? t = s.thread? t := by
      rw [State.setPluginLock]
      split
      · rfl
      · split
        · rfl
        · simp [thread?_setMask, hu]
    rwa [Held, hsame]

theorem held_setPluginLock (h : (s.setPluginLock t).1 = true) : (s.setPluginLock t).2.Held t := by
  cases ht : s.thread? t with
  | none => simp [State.setPluginLock, ht] at h
  | some thread =>
    cases hheld : thread.mask.isPluginLocked with
    | true => simp [setPluginLock_of_held ht hheld] at h
    | false =>
      rw [setPluginLock_of_free ht hheld]
      refine ⟨{ thread with mask := thread.mask.set Mask.pluginLock }, ?_, by simp⟩
      simp [thread?_setMask, ht]

theorem Held.lockIdle (h : s.Held t) (ts : List ThreadId) : (s.lockIdle ts).2.Held t := by
  induction ts generalizing s with
  | nil => exact h
  | cons u ts ih =>
    simp only [State.lockIdle]
    split
    · exact ih h
    · exact ih (h.setPluginLock u)

/-- The threads that the first pass reports are held. -/
theorem held_lockIdle (ts : List ThreadId) : ∀ t ∈ (s.lockIdle ts).1, (s.lockIdle ts).2.Held t := by
  induction ts generalizing s with
  | nil => simp [State.lockIdle]
  | cons u ts ih =>
    simp only [State.lockIdle]
    split
    · exact ih
    · split
      case isTrue hlocked =>
        intro t ht
        rcases List.mem_cons.mp ht with rfl | ht
        · exact (held_setPluginLock hlocked).lockIdle ts
        · exact ih t ht
      case isFalse => exact ih

theorem Held.lockExecuting (h : s.Held t) (caller : CoreId) (ts : List ThreadId) :
    (s.lockExecuting caller ts).2.2.Held t := by
  induction ts generalizing s with
  | nil => exact h
  | cons u ts ih =>
    rw [State.lockExecuting]
    split
    · exact ih h
    · have hheld := h.setPluginLock u
      dsimp only
      split
      · exact ih (hheld.congr (thread?_interruptFor caller _))
      · exact ih hheld

/-- The threads that the second pass reports are held. -/
theorem held_lockExecuting (caller : CoreId) (ts : List ThreadId) :
    ∀ t ∈ (s.lockExecuting caller ts).1, (s.lockExecuting caller ts).2.2.Held t := by
  induction ts generalizing s with
  | nil => simp [State.lockExecuting]
  | cons u ts ih =>
    rw [State.lockExecuting]
    split
    · exact ih
    · dsimp only
      split
      case isTrue hlocked =>
        intro t ht
        rcases List.mem_cons.mp ht with rfl | ht
        · refine Held.lockExecuting ?_ caller ts
          exact (held_setPluginLock hlocked).congr (thread?_interruptFor caller _)
        · exact ih t ht
      case isFalse => exact ih

theorem held_lockThreads (caller : CoreId) (p : ProcessId) (filter : Option ThreadFilter) :
    ∀ t ∈ (s.lockThreads caller p filter).1.locked, (s.lockThreads caller p filter).2.Held t := by
  have hidle := held_lockIdle (s := s) (s.scheduleTargets p filter)
  simp only [State.lockThreads]
  split
  case isFalse => exact hidle
  case isTrue =>
    intro t ht
    have hexec : ((s.lockIdle (s.scheduleTargets p filter)).2.lockExecuting caller
        (s.scheduleTargets p filter)).2.2.Held t := by
      rcases List.mem_append.mp ht with ht | ht
      · exact (hidle t ht).lockExecuting caller _
      · exact held_lockExecuting caller _ t ht
    have hrest := hexec.congr thread?_deliverIpis
    split
    · exact hrest.congr (thread?_reschedule caller)
    · exact hrest

theorem held_control {caller : Caller} {target : Handle} {filter : Option ThreadFilter}
    {report : ScheduleReport}
    (h : s.control caller target (.schedule .lock filter) = (.ok (.schedule report), s')) :
    ∀ t ∈ report.locked, s'.Held t := by
  simp only [State.control, State.withProcess] at h
  split at h
  next => cases h
  next p acquired _ =>
    cases h
    intro t ht
    have hsame := threading_releaseProcess (acquired.lockThreads caller.core p filter).2 p
    exact (held_lockThreads caller.core p filter t ht).congr (thread?_of_threading hsame)

end held

theorem Executes.setDebugLock (h : s.Executes good P K) (t : ThreadId) (locked : Bool)
    (hm : ∀ c core thread, s.core? c = some core → core.current = some t →
      s.thread? t = some thread →
      (good thread.mask = true → good (thread.mask.withDebugLock locked) = true) ∨
        (P ∧ core.ipiPending = true) ∨ c ∈ K) :
    (s.setDebugLock t locked).2.Executes good P K := by
  cases ht : s.thread? t with
  | none => simpa [State.setDebugLock, ht] using h
  | some thread =>
    have hmask : (s.setMask t (thread.mask.withDebugLock locked)).Executes good P K := by
      refine h.setMask t _ fun c core found hc hcur hfound => ?_
      cases ht.symm.trans hfound
      exact hm c core thread hc hcur ht
    rw [setDebugLock_eq ht]
    split
    · exact hmask.enqueue t
    · exact hmask.evict t

/-- Threads that the loader holds do not execute. -/
theorem Executes.run_unheld (hp : s.Placed A) (h : s.Executes (!·.isPluginLocked) False ∅)
    {op : Operation} (hop : ∀ t, op ≠ .setPluginLock t) :
    (op.run s).2.Executes (!·.isPluginLocked) False ∅ := by
  refine Executes.run (fun m hm => ?_) (fun m _ => ?_) hp h op fun hmanual => ?_
  · simp [(Mask.isRunnable_iff.mp hm).2.1]
  · simp
  · cases op with
    | setDebugLock t locked =>
      refine h.setDebugLock t locked fun _ _ thread _ _ _ => .inl fun hg => ?_
      rwa [Mask.isPluginLocked_withDebugLock]
    | setPluginLock t => exact absurd rfl (hop t)
    | evict t => exact h.evict t
    | _ => cases hmanual

theorem Executes.runAll_unheld (hp : s.Placed A) (h : s.Executes (!·.isPluginLocked) False ∅)
    (ops : List Operation) (hops : ∀ t, .setPluginLock t ∉ ops) :
    (s.runAll ops).Executes (!·.isPluginLocked) False ∅ := by
  induction ops generalizing s A with
  | nil => exact h
  | cons op ops ih =>
    have hop (t : ThreadId) : op ≠ .setPluginLock t := fun he => hops t (by simp [he])
    exact ih (hp.run op) (h.run_unheld hp hop) fun t ht => hops t (by simp [ht])

/-- In every history in which only locks set the hold, a thread that is held is stopped. When a
lock returns, whatever it took hold of is stopped already. -/
theorem runAll_held_stopped (cores : Nat) (ops : List Operation) (h : ∀ t, .setPluginLock t ∉ ops) :
    (∀ t, ((boot cores).runAll ops).Held t → ((boot cores).runAll ops).Stopped t) ∧
      ∀ caller target filter report s',
        ((boot cores).runAll ops).control caller target (.schedule .lock filter) =
          (.ok (.schedule report), s') →
        ∀ t ∈ report.locked, s'.Held t ∧ s'.Stopped t := by
  have hp := (placed_boot cores).runAll ops
  have hrun := Executes.runAll_unheld (placed_boot cores) (executes_boot cores) ops h
  refine ⟨fun t ht => hp.stopped hrun ht, fun caller target filter report s' hlock t ht => ?_⟩
  have hheld := held_control hlock t ht
  let op : Operation := .control caller target (.schedule .lock filter)
  have hs' : (op.run ((boot cores).runAll ops)).2 = s' := congrArg Prod.snd hlock
  have hop (t : ThreadId) : op ≠ .setPluginLock t := by simp [op]
  have hafter := hrun.run_unheld hp hop
  have hplaced := hp.run op
  rw [hs'] at hafter hplaced
  exact ⟨hheld, hplaced.stopped hafter hheld⟩

/-- Two cores execute a thread each. A lock from the first core stops both. -/
theorem runAll_held_stopped_pair :
    let ops : List Operation := [.createProcess "host" 1, .createThread ⟨1⟩ ⟨0⟩,
      .createThread ⟨1⟩ ⟨1⟩, .setThreadState ⟨1⟩ .runnable, .setThreadState ⟨2⟩ .runnable,
      .runOnCore ⟨1⟩, .runOnCore ⟨2⟩]
    let s := (boot 2).runAll ops
    let r := s.control ⟨⟨1⟩, ⟨1⟩, ⟨0⟩⟩ .currentProcess (.schedule .lock none)
    (∀ t, .setPluginLock t ∉ ops) ∧ s.runningCore ⟨1⟩ = some ⟨0⟩ ∧ s.runningCore ⟨2⟩ = some ⟨1⟩ ∧
      r.1 = .ok (.schedule ⟨[⟨1⟩, ⟨2⟩], [], [⟨0⟩, ⟨1⟩], 0⟩) ∧
      (r.2.Held ⟨1⟩ ∧ r.2.Stopped ⟨1⟩) ∧ r.2.Held ⟨2⟩ ∧ r.2.Stopped ⟨2⟩ := by
  intro ops s r
  have hops : ∀ t, .setPluginLock t ∉ ops := by simp [ops]
  have hanswer : r.1 = .ok (.schedule ⟨[⟨1⟩, ⟨2⟩], [], [⟨0⟩, ⟨1⟩], 0⟩) := rfl
  have hstop := (runAll_held_stopped 2 ops hops).2 ⟨⟨1⟩, ⟨1⟩, ⟨0⟩⟩ .currentProcess none _ r.2
    (Prod.ext hanswer rfl)
  exact ⟨hops, rfl, rfl, hanswer, hstop ⟨1⟩ (by simp), hstop ⟨2⟩ (by simp)⟩

end State
end PluginSlot.Kernel
