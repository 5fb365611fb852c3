import PluginSlot.Proofs.Kernel.Lineage

/-!
The exact effect of a schedule operation: what becomes of every thread, which threads the report
names, and that nothing but threads and cores is touched.
-/
namespace PluginSlot.Kernel

/-- The thread, held by the loader. -/
def Thread.hold (thread : Thread) : Thread := { thread with mask := thread.mask.set Mask.pluginLock }

/-- The thread, not held by the loader. -/
def Thread.unhold (thread : Thread) : Thread :=
  { thread with mask := thread.mask.clear Mask.pluginLock }

theorem Thread.hold_of_held {thread : Thread} (h : thread.mask.isPluginLocked = true) :
    thread.hold = thread := by
  rw [hold, Mask.set_pluginLock_of_isPluginLocked h]

theorem Thread.unhold_of_free {thread : Thread} (h : thread.mask.isPluginLocked = false) :
    thread.unhold = thread := by
  rw [unhold, Mask.clear_pluginLock_of_free h]

@[simp] theorem Thread.hold_hold (thread : Thread) : thread.hold.hold = thread.hold :=
  hold_of_held (Mask.isPluginLocked_set_pluginLock _)

@[simp] theorem Thread.unhold_unhold (thread : Thread) : thread.unhold.unhold = thread.unhold :=
  unhold_of_free (Mask.isPluginLocked_clear_pluginLock _)

/-- Change the threads that are picked, and leave the others as they are. -/
def Thread.changeIf (picked : ThreadId → Bool) (op : Thread → Thread) (t : ThreadId) (thread : Thread) :
    Thread := if picked t then op thread else thread

namespace State

/-- Threads change like this; whatever becomes of the cores, all else stays. -/
structure Changes (f : ThreadId → Thread → Thread) (s s' : State) : Prop where
  threads : s'.threads = s.threads.mapValues f
  rest : { s' with threads := s.threads, cores := s.cores } = s

section
variable {s s' s'' : State} {f g : ThreadId → Thread → Thread} {t : ThreadId}

theorem Changes.eq (h : s.Changes f s') :
    s' = { s with threads := s.threads.mapValues f, cores := s'.cores } := by
  rw [← h.threads]
  exact congrArg (fun u : State => { u with threads := s'.threads, cores := s'.cores }) h.rest

theorem Changes.of_cores (h : { s' with cores := s.cores } = s) : s.Changes (fun _ => id) s' := by
  have hthreads : s'.threads = s.threads := (congrArg State.threads h :)
  refine ⟨hthreads.trans (Table.mapValues_id s.threads).symm, ?_⟩
  rw [← hthreads]
  exact h

theorem Changes.trans (h : s.Changes f s') (h' : s'.Changes g s'') :
    s.Changes (fun t thread => g t (f t thread)) s'' := by
  constructor
  · rw [h'.threads, h.threads, Table.mapValues_mapValues]
  · have hrest := congrArg (fun u : State => { u with threads := s.threads, cores := s.cores }) h'.rest
    exact hrest.trans h.rest

theorem Changes.congr (h : s.Changes f s')
    (hfg : ∀ t thread, s.thread? t = some thread → f t thread = g t thread) : s.Changes g s' :=
  ⟨h.threads.trans (Table.mapValues_congr hfg), h.rest⟩

theorem thread?_of_threads (h : s'.threads = s.threads.mapValues f) (t : ThreadId) :
    s'.thread? t = (s.thread? t).map (f t) := by
  rw [State.thread?, h]
  exact Table.get?_mapValues ..

theorem Changes.thread? (h : s.Changes f s') (t : ThreadId) :
    s'.thread? t = (s.thread? t).map (f t) := thread?_of_threads h.threads t

theorem Changes.thread?_of_same (h : s.Changes f s') (hf : ∀ thread, f t thread = thread) :
    s'.thread? t = s.thread? t := by
  have hid : f t = id := funext hf
  rw [h.thread?, hid, Option.map_id_apply]

theorem Changes.syncOwner (h : s.Changes f s') : s'.syncOwner = s.syncOwner :=
  (congrArg State.syncOwner h.rest :)

theorem Changes.books (h : s.Changes f s') : s'.books = s.books := (congrArg State.books h.rest :)

/-- To change some threads and then others in the same way is to change all of them. -/
theorem Changes.changeIf_trans {first second all : ThreadId → Bool} {op : Thread → Thread}
    (hop : ∀ thread, op (op thread) = op thread) (h : s.Changes (Thread.changeIf first op) s')
    (h' : s'.Changes (Thread.changeIf second op) s'') (hall : ∀ t, (first t || second t) = all t) :
    s.Changes (Thread.changeIf all op) s'' := by
  refine (h.trans h').congr fun t thread _ => ?_
  simp only [Thread.changeIf, ← hall]
  cases first t <;> cases second t <;> simp [hop]

theorem changes_nobody {picked : ThreadId → Bool} {op : Thread → Thread}
    (h : ∀ t thread, s.thread? t = some thread → picked t = true → op thread = thread) :
    s.Changes (Thread.changeIf picked op) s := by
  refine Changes.congr (.of_cores rfl) fun t thread ht => ?_
  rw [Thread.changeIf]
  split
  next hp => exact (h t thread ht hp).symm
  next => rfl

end

section
variable (s : State) (c : CoreId) (t : ThreadId)

theorem changes_enqueue : s.Changes (fun _ => id) (s.enqueue t) := by
  apply Changes.of_cores
  rw [enqueue]
  split
  · rfl
  · split <;> rfl

theorem changes_evict : s.Changes (fun _ => id) (s.evict t) := .of_cores rfl

theorem changes_popRunnable : s.Changes (fun _ => id) (s.popRunnable c).2 := by
  apply Changes.of_cores
  rw [popRunnable]
  split <;> rfl

theorem changes_setCurrent (o : Option ThreadId) : s.Changes (fun _ => id) (s.setCurrent c o) :=
  .of_cores rfl

theorem changes_reschedule : s.Changes (fun _ => id) (s.reschedule c) := by
  rw [reschedule]
  split
  · exact .of_cores rfl
  · exact (changes_popRunnable s c).trans (changes_setCurrent _ c _)

theorem changes_interruptFor (home : CoreId) : s.Changes (fun _ => id) (s.interruptFor c home) := by
  apply Changes.of_cores
  rw [interruptFor]
  split <;> rfl

theorem changes_deliverIpis : s.Changes (fun _ => id) s.deliverIpis.2 := by
  have hrun (cores : List CoreId) (s : State) :
      s.Changes (fun _ => id) (cores.foldl deliverIpi s) := by
    induction cores generalizing s with
    | nil => exact .of_cores rfl
    | cons c cores ih =>
      have hdelivered : s.Changes (fun _ => id) (s.modifyCore c fun core =>
          { core with ipiPending := false, ipisDelivered := core.ipisDelivered + 1 }) := .of_cores rfl
      exact (hdelivered.trans (changes_reschedule _ c)).trans (ih _)
  exact hrun s.pendingCores s

/-- The thread exists, and the loader does not hold it. -/
def isFree : Bool := (s.thread? t).any (!·.mask.isPluginLocked)

/-- The thread exists, and the loader holds it. -/
def isHeld : Bool := (s.thread? t).any (·.mask.isPluginLocked)

theorem fst_setPluginLock : (s.setPluginLock t).1 = s.isFree t := by
  rw [setPluginLock, isFree]
  cases s.thread? t with
  | none => rfl
  | some thread => cases h : thread.mask.isPluginLocked <;> simp [h]

theorem fst_clearPluginLock : (s.clearPluginLock t).1 = s.isHeld t := by
  rw [clearPluginLock, isHeld]
  cases s.thread? t with
  | none => rfl
  | some thread => cases h : thread.mask.isPluginLocked <;> simp [h]

theorem changes_setMask (m : Mask) :
    s.Changes (Thread.changeIf (· = t) ({ · with mask := m })) (s.setMask t m) := by
  refine ⟨(s.threads.modify_eq_mapValues t ({ · with mask := m })).trans ?_, rfl⟩
  exact Table.mapValues_congr fun u thread _ => by simp [Thread.changeIf]

/-- To write the mask of a thread is to change this thread. -/
theorem changes_setMask_of_eq {thread : Thread} (ht : s.thread? t = some thread) {m : Mask}
    (op : Thread → Thread) (hop : op thread = { thread with mask := m }) :
    s.Changes (Thread.changeIf (· = t) op) (s.setMask t m) := by
  refine (changes_setMask s t m).congr fun u found hu => ?_
  rw [Thread.changeIf, Thread.changeIf]
  split
  next he =>
    rw [of_decide_eq_true he, ht] at hu
    cases hu
    exact hop.symm
  next => rfl

/-- A thread that is as the change would have it, or is not there, is left as it is. -/
theorem changes_self {op : Thread → Thread}
    (h : ∀ thread, s.thread? t = some thread → op thread = thread) :
    s.Changes (Thread.changeIf (· = t) op) s :=
  changes_nobody fun u thread hu he => h thread (by rw [← of_decide_eq_true he, hu])

theorem changes_setPluginLock :
    s.Changes (Thread.changeIf (· = t) Thread.hold) (s.setPluginLock t).2 := by
  rw [setPluginLock]
  split
  next ht => exact changes_self s t (by simp [ht])
  next thread ht =>
    split
    next hheld => exact changes_self s t (by simpa [ht] using Thread.hold_of_held hheld)
    next => exact (changes_setMask_of_eq s t ht Thread.hold rfl).trans (changes_evict _ t)

theorem changes_clearPluginLock :
    s.Changes (Thread.changeIf (· = t) Thread.unhold) (s.clearPluginLock t).2 := by
  rw [clearPluginLock]
  split
  next ht => exact changes_self s t (by simp [ht])
  next thread ht =>
    split
    next hfree =>
      exact changes_self s t (by simpa [ht] using Thread.unhold_of_free (by simpa using hfree))
    next => exact (changes_setMask_of_eq s t ht Thread.unhold rfl).trans (changes_enqueue _ t)

end

section
variable {s s' : State} {f : ThreadId → Thread → Thread} {t u : ThreadId}

theorem Changes.isFree (h : s.Changes f s') (hf : ∀ thread, f t thread = thread) :
    s'.isFree t = s.isFree t := by
  rw [State.isFree, h.thread?_of_same hf, State.isFree]

theorem Changes.isHeld (h : s.Changes f s') (hf : ∀ thread, f t thread = thread) :
    s'.isHeld t = s.isHeld t := by
  rw [State.isHeld, h.thread?_of_same hf, State.isHeld]

theorem runningCore_setPluginLock (t u : ThreadId) :
    (s.setPluginLock t).2.runningCore u = s.runningCore u := by
  rw [setPluginLock]
  split
  · rfl
  · split
    · rfl
    · simp [runningCore, evict, setMask, modifyThread, List.findIdx?_map, Function.comp_def, Core.drop]

/-- Threads are released one by one, and those that were held are named. -/
theorem unlockEach_effect {ts : List ThreadId} (hn : ts.Nodup) :
    s.Changes (Thread.changeIf (· ∈ ts) Thread.unhold) (s.unlockEach ts).2 ∧
      (s.unlockEach ts).1 = ts.filter s.isHeld := by
  induction ts generalizing s with
  | nil => exact ⟨changes_nobody fun _ _ _ h => by simp at h, rfl⟩
  | cons t ts ih =>
    obtain ⟨hnew, hn⟩ := List.nodup_cons.mp hn
    have hfirst := changes_clearPluginLock s t
    obtain ⟨hrest, hnamed⟩ := ih (s := (s.clearPluginLock t).2) hn
    refine ⟨hfirst.changeIf_trans Thread.unhold_unhold hrest fun u => by simp, ?_⟩
    have hothers : ts.filter (s.clearPluginLock t).2.isHeld = ts.filter s.isHeld := by
      refine List.filter_congr fun u hu => hfirst.isHeld fun thread => ?_
      have hne : u ≠ t := fun he => hnew (he ▸ hu)
      simp [Thread.changeIf, hne]
    rw [List.filter_cons, ← hothers, ← hnamed, ← fst_clearPluginLock]
    rfl

/-- The first pass of a lock skips the thread. -/
def skips (s : State) (t : ThreadId) : Bool := (s.runningCore t).isSome || s.syncOwner = some t

theorem skips_setPluginLock (t u : ThreadId) : (s.setPluginLock t).2.skips u = s.skips u := by
  rw [skips, runningCore_setPluginLock, (changes_setPluginLock s t).syncOwner, skips]

/-- After one thread is changed, the others are as free as before. -/
theorem Changes.filter_isFree {op : Thread → Thread} (h : s.Changes (Thread.changeIf (· = t) op) s')
    {ts : List ThreadId} (ht : t ∉ ts) (keep : ThreadId → Bool) :
    (ts.filter fun u => keep u && s'.isFree u) = ts.filter fun u => keep u && s.isFree u := by
  refine List.filter_congr fun u hu => ?_
  have hne : u ≠ t := fun he => ht (he ▸ hu)
  rw [h.isFree fun thread => by simp [Thread.changeIf, hne]]

theorem lockIdle_of_skips {ts : List ThreadId} (h : s.skips t = true) :
    s.lockIdle (t :: ts) = s.lockIdle ts := by
  rw [skips] at h
  rw [lockIdle, if_pos h]
  rfl

theorem lockIdle_of_not_skips {ts : List ThreadId} (h : s.skips t = false) :
    s.lockIdle (t :: ts) =
      (if s.isFree t then t :: ((s.setPluginLock t).2.lockIdle ts).1
        else ((s.setPluginLock t).2.lockIdle ts).1, ((s.setPluginLock t).2.lockIdle ts).2) := by
  rw [skips] at h
  rw [lockIdle, if_neg (by simp [h]), ← fst_setPluginLock]

/-- The first pass holds all threads but those it skips, and names those that were free. -/
theorem lockIdle_effect {ts : List ThreadId} (hn : ts.Nodup) :
    s.Changes (Thread.changeIf (fun t => t ∈ ts && !s.skips t) Thread.hold) (s.lockIdle ts).2 ∧
      (s.lockIdle ts).1 = ts.filter fun t => !s.skips t && s.isFree t := by
  induction ts generalizing s with
  | nil => exact ⟨changes_nobody fun _ _ _ h => by simp at h, rfl⟩
  | cons t ts ih =>
    obtain ⟨hnew, hn⟩ := List.nodup_cons.mp hn
    cases hskip : s.skips t with
    | true =>
      obtain ⟨hrest, hnamed⟩ := ih (s := s) hn
      rw [lockIdle_of_skips hskip, List.filter_cons_of_neg (by simp [hskip])]
      refine ⟨hrest.congr fun u thread _ => ?_, hnamed⟩
      by_cases hu : u = t <;> simp [Thread.changeIf, hu, hskip]
    | false =>
      obtain ⟨hrest, hnamed⟩ := ih (s := (s.setPluginLock t).2) hn
      simp only [skips_setPluginLock] at hrest hnamed
      rw [lockIdle_of_not_skips hskip]
      constructor
      · refine (changes_setPluginLock s t).changeIf_trans Thread.hold_hold hrest fun u => ?_
        by_cases hu : u = t <;> simp [hu, hskip]
      · rw [hnamed, (changes_setPluginLock s t).filter_isFree hnew, List.filter_cons, hskip]
        rfl

/-- What the second pass makes of a thread before it goes on to the others. -/
def lockAt (s : State) (caller : CoreId) (t : ThreadId) (thread : Thread) : State :=
  if s.isFree t then (s.setPluginLock t).2.interruptFor caller thread.core else (s.setPluginLock t).2

theorem changes_lockAt (caller : CoreId) (thread : Thread) :
    s.Changes (Thread.changeIf (· = t) Thread.hold) (s.lockAt caller t thread) := by
  rw [lockAt]
  split
  · exact (changes_setPluginLock s t).trans (changes_interruptFor _ caller thread.core)
  · exact changes_setPluginLock s t

/-- The second pass skips the thread if it holds the mutex, or is not there. -/
theorem lockExecuting_cons (caller : CoreId) (t : ThreadId) (ts : List ThreadId) :
    (s.syncOwner = some t ∨ s.thread? t = none) ∧
        s.lockExecuting caller (t :: ts) = s.lockExecuting caller ts ∨
      s.syncOwner ≠ some t ∧ ∃ thread, s.thread? t = some thread ∧
        (s.lockExecuting caller (t :: ts)).1 =
          (if s.isFree t then t :: ((s.lockAt caller t thread).lockExecuting caller ts).1
            else ((s.lockAt caller t thread).lockExecuting caller ts).1) ∧
        (s.lockExecuting caller (t :: ts)).2.2 =
          ((s.lockAt caller t thread).lockExecuting caller ts).2.2 := by
  by_cases hsync : s.syncOwner = some t
  · refine .inl ⟨.inl hsync, ?_⟩
    rw [lockExecuting, if_pos hsync]
  · rw [lockExecuting, if_neg hsync]
    cases ht : s.thread? t with
    | none => exact .inl ⟨.inr rfl, rfl⟩
    | some thread =>
      refine .inr ⟨hsync, thread, rfl, ?_⟩
      rw [lockAt, ← fst_setPluginLock]
      dsimp only
      cases (s.setPluginLock t).1 with
      | true => exact ⟨rfl, rfl⟩
      | false => exact ⟨rfl, rfl⟩

/-- The second pass holds all threads but the holder of the mutex, and names those that were free. -/
theorem lockExecuting_effect (caller : CoreId) {ts : List ThreadId} (hn : ts.Nodup) :
    s.Changes (Thread.changeIf (fun t => t ∈ ts && s.syncOwner ≠ some t) Thread.hold)
        (s.lockExecuting caller ts).2.2 ∧
      (s.lockExecuting caller ts).1 = ts.filter fun t => s.syncOwner ≠ some t && s.isFree t := by
  induction ts generalizing s with
  | nil => exact ⟨changes_nobody fun _ _ _ h => by simp at h, rfl⟩
  | cons t ts ih =>
    obtain ⟨hnew, hn⟩ := List.nodup_cons.mp hn
    obtain ⟨hskip, hrun⟩ | ⟨hsync, thread, ht, hnames, hstate⟩ := lockExecuting_cons (s := s) caller t ts
    · obtain ⟨hrest, hnamed⟩ := ih (s := s) hn
      rw [hrun]
      constructor
      · refine hrest.congr fun u found hu => ?_
        have hne : u = t → s.syncOwner = some t := by
          rintro rfl
          exact hskip.resolve_right (by simp [hu])
        by_cases he : u = t
        · simp [Thread.changeIf, he, hne he]
        · simp [Thread.changeIf, he]
      · have hnobody : (decide (s.syncOwner ≠ some t) && s.isFree t) = false := by
          obtain hsync | hnone := hskip
          · simp [hsync]
          · simp [State.isFree, hnone]
        rw [hnamed, List.filter_cons_of_neg (by rw [hnobody]; exact Bool.false_ne_true)]
    · have hfirst := changes_lockAt (s := s) (t := t) caller thread
      obtain ⟨hrest, hnamed⟩ := ih (s := s.lockAt caller t thread) hn
      simp only [hfirst.syncOwner] at hrest hnamed
      constructor
      · rw [hstate]
        refine hfirst.changeIf_trans Thread.hold_hold hrest fun u => ?_
        by_cases hu : u = t <;> simp [hu, hsync]
      · rw [hnames, hnamed, hfirst.filter_isFree hnew, List.filter_cons]
        simp [hsync]

/-- The core was asked to reschedule. -/
def Pending (s : State) (c : CoreId) : Prop := ∃ core, s.core? c = some core ∧ core.ipiPending = true

theorem Pending.setPluginLock {c : CoreId} (h : s.Pending c) (t : ThreadId) :
    (s.setPluginLock t).2.Pending c := by
  obtain ⟨core, hc, hpend⟩ := h
  rw [State.setPluginLock]
  split
  · exact ⟨core, hc, hpend⟩
  · split
    · exact ⟨core, hc, hpend⟩
    · exact ⟨core.drop t, by rw [core?_evict, core?_setMask, hc]; rfl, hpend⟩

theorem Pending.raiseIpi {c : CoreId} (h : s.Pending c) (d : CoreId) : (s.raiseIpi d).Pending c := by
  obtain ⟨core, hc, hpend⟩ := h
  by_cases hd : d = c
  · refine ⟨{ core with ipiPending := true }, ?_, rfl⟩
    rw [State.raiseIpi, core?_modifyCore, if_pos hd, hc]
    rfl
  · exact ⟨core, by rwa [State.raiseIpi, core?_modifyCore, if_neg hd], hpend⟩

theorem Pending.interruptFor {c : CoreId} (h : s.Pending c) (caller home : CoreId) :
    (s.interruptFor caller home).Pending c := by
  rw [State.interruptFor]
  split
  · exact h
  · exact (h.raiseIpi caller).raiseIpi home

theorem Pending.lockAt {c : CoreId} (h : s.Pending c) (caller : CoreId) (t : ThreadId)
    (thread : Thread) : (s.lockAt caller t thread).Pending c := by
  rw [State.lockAt]
  split
  · exact (h.setPluginLock t).interruptFor caller _
  · exact h.setPluginLock t

theorem Pending.lockExecuting {c : CoreId} (h : s.Pending c) (caller : CoreId) (ts : List ThreadId) :
    (s.lockExecuting caller ts).2.2.Pending c := by
  induction ts generalizing s with
  | nil => exact h
  | cons t ts ih =>
    obtain ⟨-, hrun⟩ | ⟨-, thread, -, -, hstate⟩ := lockExecuting_cons (s := s) caller t ts
    · rw [hrun]
      exact ih h
    · rw [hstate]
      exact ih (h.lockAt caller t thread)

theorem Placed.lockAt {A : Set ThreadId} (hp : s.Placed A) (caller : CoreId) (t : ThreadId)
    (thread : Thread) : (s.lockAt caller t thread).Placed A := by
  rw [State.lockAt]
  split
  · exact (hp.setPluginLock t).interruptFor caller _
  · exact hp.setPluginLock t

/-- A thread that the loader holds stays on its core. -/
theorem Changes.homeOf_hold {picked : ThreadId → Bool}
    (h : s.Changes (Thread.changeIf picked Thread.hold) s') (t : ThreadId) :
    s'.homeOf t = s.homeOf t := by
  have hcore (thread : Thread) : (Thread.changeIf picked Thread.hold t thread).core = thread.core := by
    rw [Thread.changeIf]
    split <;> rfl
  rw [homeOf, h.thread?, Option.map_map, homeOf]
  exact congrArg (Option.map · _) (funext hcore)

theorem pending_interruptFor {caller home : CoreId} (hne : home ≠ caller)
    (hcore : (s.core? home).isSome) : (s.interruptFor caller home).Pending home := by
  obtain ⟨core, hc⟩ := Option.isSome_iff_exists.mp hcore
  refine ⟨{ core with ipiPending := true }, ?_, rfl⟩
  rw [interruptFor, if_neg hne, State.raiseIpi, State.raiseIpi, core?_modifyCore, if_pos rfl,
    core?_modifyCore, if_neg (Ne.symm hne), hc]
  rfl

/-- A thread that was picked is free no more. -/
theorem Changes.isFree_hold {picked : ThreadId → Bool}
    (h : s.Changes (Thread.changeIf picked Thread.hold) s') (t : ThreadId) :
    s'.isFree t = (!picked t && s.isFree t) := by
  rw [State.isFree, h.thread?, State.isFree]
  cases s.thread? t with
  | none => simp
  | some thread => cases hp : picked t <;> simp [Thread.changeIf, hp, Thread.hold]

/-- Both passes together hold all threads but the holder of the mutex, and name those that were free. -/
theorem lockPasses_effect (caller : CoreId) {ts : List ThreadId} (hn : ts.Nodup) :
    s.Changes (Thread.changeIf (fun t => t ∈ ts && s.syncOwner ≠ some t) Thread.hold)
        ((s.lockIdle ts).2.lockExecuting caller ts).2.2 ∧
      ((s.lockIdle ts).1 ++ ((s.lockIdle ts).2.lockExecuting caller ts).1).Nodup ∧
      ∀ t, t ∈ (s.lockIdle ts).1 ++ ((s.lockIdle ts).2.lockExecuting caller ts).1 ↔
        t ∈ ts ∧ s.syncOwner ≠ some t ∧ s.isFree t = true := by
  obtain ⟨hfirst, hidle⟩ := lockIdle_effect (s := s) hn
  obtain ⟨hsecond, hexec⟩ := lockExecuting_effect (s := (s.lockIdle ts).2) caller hn
  simp only [hfirst.syncOwner, hfirst.isFree_hold] at hsecond hexec
  have hsync {t : ThreadId} (h : s.skips t = false) : s.syncOwner ≠ some t := by
    intro he
    simp [skips, he] at h
  refine ⟨?_, ?_, fun t => ?_⟩
  · refine hfirst.changeIf_trans Thread.hold_hold hsecond fun t => ?_
    cases hskip : s.skips t with
    | true => simp
    | false => simp [hsync hskip]
  · rw [hidle, hexec]
    refine List.nodup_append.mpr ⟨hn.filter _, hn.filter _, ?_⟩
    rintro t hidle _ hexec rfl
    obtain ⟨hm, hidle⟩ := List.mem_filter.mp hidle
    have hexec := (List.mem_filter.mp hexec).2
    simp_all
  · rw [hidle, hexec, List.mem_append, List.mem_filter, List.mem_filter]
    cases hskip : s.skips t with
    | true => simp
    | false => by_cases ht : t ∈ ts <;> simp [ht, hsync hskip]

/-- The cores of the threads that the second pass names are asked to reschedule, but for the
caller's. -/
theorem Placed.pending_lockExecuting {A : Set ThreadId} (hp : s.Placed A) (caller : CoreId)
    {ts : List ThreadId} {c : CoreId} (ht : t ∈ (s.lockExecuting caller ts).1)
    (hhome : s.homeOf t = some c) (hc : c ≠ caller) :
    (s.lockExecuting caller ts).2.2.Pending c := by
  induction ts generalizing s with
  | nil => cases ht
  | cons u ts ih =>
    obtain ⟨-, hrun⟩ | ⟨-, thread, hu, hnames, hstate⟩ := lockExecuting_cons (s := s) caller u ts
    · rw [hrun] at ht ⊢
      exact ih hp ht hhome
    · have hlater (hlater : t ∈ ((s.lockAt caller u thread).lockExecuting caller ts).1) :
          ((s.lockAt caller u thread).lockExecuting caller ts).2.2.Pending c :=
        ih (hp.lockAt caller u thread) hlater (((changes_lockAt caller thread).homeOf_hold t).trans hhome)
      rw [hnames] at ht
      rw [hstate]
      split at ht
      next hfree =>
        obtain rfl | ht := List.mem_cons.mp ht
        · have hcore : thread.core = c := by
            rw [homeOf, hu] at hhome
            exact Option.some.inj hhome
          have hasked : (s.lockAt caller t thread).Pending c := by
            rw [State.lockAt, if_pos hfree, hcore]
            exact pending_interruptFor hc ((hp.setPluginLock t).home t c
              (((changes_setPluginLock s t).homeOf_hold t).trans hhome))
          exact hasked.lockExecuting caller ts
        · exact hlater ht
      next => exact hlater ht

end

section
variable {s : State} (p : ProcessId) (filter : Option ThreadFilter)

/-- The schedule operation is about the thread: it belongs to the process, is not terminating, and
passes the filter. -/
def concerns (p : ProcessId) (filter : Option ThreadFilter) (t : ThreadId) (thread : Thread) : Bool :=
  thread.owner = p && !thread.mask.isTerminating && matchesFilter filter t thread

theorem mem_scheduleTargets {t : ThreadId} : t ∈ s.scheduleTargets p filter ↔
    ∃ thread, s.thread? t = some thread ∧ concerns p filter t thread = true := by
  simp only [scheduleTargets, List.mem_map, List.mem_filter]
  constructor
  · rintro ⟨⟨t, thread⟩, ⟨hm, hconcerns⟩, rfl⟩
    exact ⟨thread, (Table.get?_eq_some_iff _ t thread).mpr hm, hconcerns⟩
  · rintro ⟨thread, ht, hconcerns⟩
    exact ⟨(t, thread), ⟨(Table.get?_eq_some_iff _ t thread).mp ht, hconcerns⟩, rfl⟩

theorem nodup_scheduleTargets : (s.scheduleTargets p filter).Nodup :=
  s.threads.nodup_keys.sublist (List.filter_sublist.map _)

variable {p filter}

/-- The mask of a thread that the operation is about, in terms of the thread itself. -/
theorem mem_scheduleTargets_iff {t : ThreadId} {thread : Thread} (ht : s.thread? t = some thread) :
    t ∈ s.scheduleTargets p filter ↔ concerns p filter t thread = true := by
  rw [mem_scheduleTargets]
  constructor
  · rintro ⟨found, hfound, hconcerns⟩
    cases ht.symm.trans hfound
    exact hconcerns
  · exact fun hconcerns => ⟨thread, ht, hconcerns⟩

/-- What becomes of a thread in a lock. -/
def lockedThread (s : State) (p : ProcessId) (filter : Option ThreadFilter) (t : ThreadId)
    (thread : Thread) : Thread :=
  if concerns p filter t thread && s.syncOwner ≠ some t then thread.hold else thread

/-- What becomes of a thread in an unlock. -/
def unlockedThread (p : ProcessId) (filter : Option ThreadFilter) (t : ThreadId) (thread : Thread) :
    Thread :=
  if concerns p filter t thread then thread.unhold else thread

variable (p filter)

theorem unlockThreads_effect :
    s.Changes (unlockedThread p filter) (s.unlockThreads p filter).2 ∧
      (s.unlockThreads p filter).1.unlocked = (s.scheduleTargets p filter).filter s.isHeld := by
  obtain ⟨hchange, hnamed⟩ := unlockEach_effect (s := s) (nodup_scheduleTargets p filter)
  refine ⟨hchange.congr fun t thread ht => ?_, hnamed⟩
  simp only [Thread.changeIf, unlockedThread, mem_scheduleTargets_iff ht, decide_eq_true_eq]

variable (caller : CoreId)

theorem changes_lockedThread {s' : State}
    (h : s.Changes (Thread.changeIf
      (fun t => t ∈ s.scheduleTargets p filter && s.syncOwner ≠ some t) Thread.hold) s') :
    s.Changes (s.lockedThread p filter) s' := by
  refine h.congr fun t thread ht => ?_
  have hmem : decide (t ∈ s.scheduleTargets p filter) = concerns p filter t thread := by
    rw [Bool.eq_iff_iff, decide_eq_true_eq]
    exact mem_scheduleTargets_iff ht
  simp only [Thread.changeIf, lockedThread, hmem]

theorem lockThreads_effect :
    s.Changes (s.lockedThread p filter) (s.lockThreads caller p filter).2 ∧
      (s.lockThreads caller p filter).1.locked.Nodup ∧
      ∀ t, t ∈ (s.lockThreads caller p filter).1.locked ↔
        t ∈ s.scheduleTargets p filter ∧ s.syncOwner ≠ some t ∧ s.isFree t = true := by
  have hn := nodup_scheduleTargets (s := s) p filter
  rw [lockThreads]
  dsimp only
  split
  next =>
    obtain ⟨hchange, hnames⟩ := lockPasses_effect (s := s) caller hn
    have hdone := (changes_lockedThread p filter hchange).trans (changes_deliverIpis _)
    refine ⟨?_, hnames⟩
    dsimp only
    split
    · exact hdone.trans (changes_reschedule _ caller)
    · exact hdone
  next hnone =>
    obtain ⟨hchange, hnames⟩ := lockIdle_effect (s := s) hn
    have hskips (t : ThreadId) (ht : t ∈ s.scheduleTargets p filter) :
        s.skips t = decide (s.syncOwner = some t) := by
      have hidle : s.runningCore t = none := by
        simp at hnone
        exact hnone t ht
      simp [skips, hidle]
    refine ⟨changes_lockedThread p filter (hchange.congr fun t thread _ => ?_), hnames ▸ hn.filter _,
      fun t => ?_⟩
    · by_cases ht : t ∈ s.scheduleTargets p filter
      · simp [Thread.changeIf, hskips t ht]
      · simp [Thread.changeIf, ht]
    · rw [hnames, List.mem_filter]
      exact and_congr_right fun ht => by simp [hskips t ht]

/-- The cores of held threads that executed are interrupted, but for the caller's. -/
theorem Placed.mem_interrupted {A : Set ThreadId} (hp : s.Placed A) {t : ThreadId} {c : CoreId}
    (ht : t ∈ (s.lockThreads caller p filter).1.locked) (hrun : (s.runningCore t).isSome = true)
    (hhome : s.homeOf t = some c) (hc : c ≠ caller) :
    c ∈ (s.lockThreads caller p filter).1.interrupted := by
  have hn := nodup_scheduleTargets (s := s) p filter
  obtain ⟨hfirst, hidle⟩ := lockIdle_effect (s := s) hn
  have htarget := ((lockThreads_effect p filter caller).2.2 t |>.mp ht).1
  have hany : ((s.scheduleTargets p filter).any fun t => (s.runningCore t).isSome) = true :=
    List.any_eq_true.mpr ⟨t, htarget, hrun⟩
  rw [State.lockThreads] at ht ⊢
  dsimp only at ht ⊢
  rw [if_pos hany] at ht ⊢
  -- an executing thread is left to the second pass
  obtain hin | hin := List.mem_append.mp ht
  · obtain ⟨d, hd⟩ := Option.isSome_iff_exists.mp hrun
    rw [hidle] at hin
    simp [skips, hd] at hin
  · have hplaced := hp.lockIdle (s.scheduleTargets p filter)
    obtain ⟨core, hcore, hpend⟩ :=
      hplaced.pending_lockExecuting caller hin ((hfirst.homeOf_hold t).trans hhome) hc
    exact mem_pendingCores hcore hpend

/-- What a lock of the process does that the object stands for. -/
structure Locks (s : State) (caller : CoreId) (p : ProcessId) (o : ObjectId)
    (filter : Option ThreadFilter) (report : ScheduleReport) (s' : State) : Prop where
  state : s' = { s with
    threads := s.threads.mapValues (s.lockedThread p filter)
    cores := s'.cores
    processes := s'.processes
    objects := s'.objects }
  /-- Records and references change only if the process cannot be referred to meanwhile. -/
  books : s.Lendable o → s'.books = s.books
  nodup : report.locked.Nodup
  locked : ∀ t, t ∈ report.locked ↔ ∃ before after, s.thread? t = some before ∧
    s'.thread? t = some after ∧ before.mask.isPluginLocked = false ∧ after.mask.isPluginLocked = true
  unlocked : report.unlocked = []
  interrupted : ∀ t ∈ report.locked, ∀ c, (s.runningCore t).isSome = true → s.homeOf t = some c →
    c ≠ caller → c ∈ report.interrupted

/-- What an unlock of the process does that the object stands for. -/
structure Unlocks (s : State) (p : ProcessId) (o : ObjectId) (filter : Option ThreadFilter)
    (report : ScheduleReport) (s' : State) : Prop where
  state : s' = { s with
    threads := s.threads.mapValues (unlockedThread p filter)
    cores := s'.cores
    processes := s'.processes
    objects := s'.objects }
  /-- Records and references change only if the process cannot be referred to meanwhile. -/
  books : s.Lendable o → s'.books = s.books
  nodup : report.unlocked.Nodup
  unlocked : ∀ t, t ∈ report.unlocked ↔ ∃ before after, s.thread? t = some before ∧
    s'.thread? t = some after ∧ before.mask.isPluginLocked = true ∧ after.mask.isPluginLocked = false
  locked : report.locked = []
  interrupted : report.interrupted = []

end

section
variable {s s' : State} {p : ProcessId} {filter : Option ThreadFilter} {t : ThreadId}

/-- The threads that gain the hold in a lock. -/
theorem mem_targets_free_iff (h : s'.threads = s.threads.mapValues (s.lockedThread p filter)) :
    (t ∈ s.scheduleTargets p filter ∧ s.syncOwner ≠ some t ∧ s.isFree t = true) ↔
      ∃ before after, s.thread? t = some before ∧ s'.thread? t = some after ∧
        before.mask.isPluginLocked = false ∧ after.mask.isPluginLocked = true := by
  rw [thread?_of_threads h, State.isFree]
  cases ht : s.thread? t with
  | none => simp
  | some thread =>
    rw [mem_scheduleTargets_iff ht]
    cases hc : concerns p filter t thread <;> cases hf : thread.mask.isPluginLocked <;>
      by_cases hsync : s.syncOwner = some t <;> simp [lockedThread, hc, hf, hsync, Thread.hold]

/-- The threads that lose the hold in an unlock. -/
theorem mem_targets_held_iff (h : s'.threads = s.threads.mapValues (unlockedThread p filter)) :
    (t ∈ s.scheduleTargets p filter ∧ s.isHeld t = true) ↔
      ∃ before after, s.thread? t = some before ∧ s'.thread? t = some after ∧
        before.mask.isPluginLocked = true ∧ after.mask.isPluginLocked = false := by
  rw [thread?_of_threads h, State.isHeld]
  cases ht : s.thread? t with
  | none => simp
  | some thread =>
    rw [mem_scheduleTargets_iff ht]
    cases hc : concerns p filter t thread <;> cases hf : thread.mask.isPluginLocked <;>
      simp [unlockedThread, hc, hf, Thread.unhold]

variable {A : Set ThreadId} {caller : Caller} {handle : Handle} {o : ObjectId}

/-- A release touches records and objects only. -/
theorem rest_releaseProcess (s : State) (p : ProcessId) :
    { s.releaseProcess p with processes := s.processes, objects := s.objects } = s := by
  rw [releaseProcess]
  split
  · rfl
  · refine release_keeps (P := fun s' => { s' with processes := s.processes, objects := s.objects } = s)
      (fun s' o h => ?_) (fun _ _ h => h) rfl _
    obtain ⟨-, hsame⟩ | ⟨_, -, -, hsame⟩ | ⟨_, -, -, hsame⟩ := dropReference_cases s' o
    all_goals rwa [hsame]

/-- Whatever becomes of the process, threads change as they did while it was held. -/
theorem Changes.released {f : ThreadId → Thread → Thread} (h : (s.addReference o).Changes f s')
    (p : ProcessId) : s'.releaseProcess p = { s with
      threads := s.threads.mapValues f
      cores := (s'.releaseProcess p).cores
      processes := (s'.releaseProcess p).processes
      objects := (s'.releaseProcess p).objects } := by
  have hrest := congrArg (fun u : State => { u with
    processes := (s'.releaseProcess p).processes
    objects := (s'.releaseProcess p).objects }) (rest_releaseProcess s' p)
  have hcores : (s'.releaseProcess p).cores = s'.cores :=
    (congrArg State.cores (rest_releaseProcess s' p) :)
  refine hrest.trans ?_
  rw [hcores]
  exact congrArg (fun u : State => { u with
    processes := (s'.releaseProcess p).processes
    objects := (s'.releaseProcess p).objects }) h.eq

/-- The reference that is held meanwhile is no change, if it can be given back. -/
theorem Changes.books_released {f : ThreadId → Thread → Thread} (h : (s.addReference o).Changes f s')
    (hs : s.Rooted) (hr : s.resolveProcess caller.process handle = .ok (p, o)) (hlend : s.Lendable o) :
    (s'.releaseProcess p).books = s.books := by
  rw [hs.giveBack hr hlend h.books]
  exact congrArg (fun b : Books => { b with objects := s.objects }) h.books

variable (filter)

/-- A lock of the process that a handle names. -/
theorem Rooted.control_lock (hs : s.Rooted) (hp : s.Placed A)
    (hr : s.resolveProcess caller.process handle = .ok (p, o)) :
    ∃ report s', s.control caller handle (.schedule .lock filter) = (.ok (.schedule report), s') ∧
      s.Locks caller.core p o filter report s' := by
  have hplaced : (s.addReference o).Placed A := hp.frame (threading_addReference s o)
  obtain ⟨hchange, hnodup, hlocked⟩ := lockThreads_effect (s := s.addReference o) p filter caller.core
  have hafter := hchange.released p
  refine ⟨((s.addReference o).lockThreads caller.core p filter).1, _, control_of_ok hr, hafter,
    hchange.books_released hs hr, hnodup, fun t => ?_, ?_, fun t ht c => ?_⟩
  · exact (hlocked t).trans (mem_targets_free_iff (congrArg State.threads hafter))
  · rw [lockThreads]
    dsimp only
    split <;> rfl
  · exact hplaced.mem_interrupted p filter caller.core ht

/-- An unlock of the process that a handle names. -/
theorem Rooted.control_unlock (hs : s.Rooted)
    (hr : s.resolveProcess caller.process handle = .ok (p, o)) :
    ∃ report s', s.control caller handle (.schedule .unlock filter) = (.ok (.schedule report), s') ∧
      s.Unlocks p o filter report s' := by
  obtain ⟨hchange, hunlocked⟩ := unlockThreads_effect (s := s.addReference o) p filter
  have hafter := hchange.released p
  refine ⟨((s.addReference o).unlockThreads p filter).1, _, control_of_ok hr, hafter,
    hchange.books_released hs hr, ?_, fun t => ?_, rfl, rfl⟩
  · exact hunlocked ▸ (nodup_scheduleTargets p filter).filter _
  · rw [hunlocked, List.mem_filter]
    exact mem_targets_held_iff (congrArg State.threads hafter)

end

/-- A schedule operation, after any history, on any process that a handle names: it changes the masks
of the threads it concerns and where threads wait and execute, and nothing else, if the reference that
it holds meanwhile can be counted and given back. -/
theorem runAll_schedule (cores : Nat) (ops : List Operation) (caller : Caller) (handle : Handle)
    {p : ProcessId} {o : ObjectId} (filter : Option ThreadFilter)
    (hr : ((boot cores).runAll ops).resolveProcess caller.process handle = .ok (p, o)) :
    (∃ report s', ((boot cores).runAll ops).control caller handle (.schedule .lock filter) =
        (.ok (.schedule report), s') ∧
      ((boot cores).runAll ops).Locks caller.core p o filter report s') ∧
    ∃ report s', ((boot cores).runAll ops).control caller handle (.schedule .unlock filter) =
        (.ok (.schedule report), s') ∧
      ((boot cores).runAll ops).Unlocks p o filter report s' := by
  have hs := (rooted_boot cores).runAll ops
  have hp := (placed_boot cores).runAll ops
  exact ⟨hs.control_lock filter hp hr, hs.control_unlock filter hr⟩

/-- A process is retained by hand until its count wraps around to zero. A lock holds its thread, but when
it gives its own reference back, the object and the record of the process go. -/
theorem not_books_of_wrapped_count :
    let s := (boot 1).runAll (.createProcess "host" 1 :: .createThread ⟨1⟩ ⟨0⟩ ::
      List.replicate (UInt32.size - 1) (.retain ⟨1⟩))
    let r := s.control ⟨⟨1⟩, ⟨1⟩, ⟨0⟩⟩ .currentProcess (.schedule .lock none)
    s.resolveProcess ⟨1⟩ .currentProcess = .ok (⟨1⟩, ⟨1⟩) ∧
      r.1 = .ok (.schedule ⟨[⟨1⟩], [], [], 0⟩) ∧
      (s.process? ⟨1⟩).isSome = true ∧ r.2.process? ⟨1⟩ = none ∧ r.2.books ≠ s.books := by
  rw [runAll_cons, runAll_cons, runAll_replicate_retain]
  intro s r
  have hthere : (s.process? ⟨1⟩).isSome = true := by decide
  have hended : (r.2.process? ⟨1⟩).isNone = true := by decide
  refine ⟨by decide, by decide, hthere, Option.isNone_iff_eq_none.mp hended, fun hsame => ?_⟩
  rw [process?_of_books hsame, Option.isNone_iff_eq_none] at hended
  rw [hended] at hthere
  cases hthere

/-- Two threads execute and a third one holds the mutex. A lock from the first core holds the two. -/
theorem runAll_schedule_pair :
    let s := (boot 2).runAll [.createProcess "host" 1, .createThread ⟨1⟩ ⟨0⟩, .createThread ⟨1⟩ ⟨1⟩,
      .createThread ⟨1⟩ ⟨1⟩, .setThreadState ⟨1⟩ .runnable, .setThreadState ⟨2⟩ .runnable,
      .runOnCore ⟨1⟩, .runOnCore ⟨2⟩, .setSyncOwner (some ⟨3⟩)]
    s.resolveProcess ⟨1⟩ .currentProcess = .ok (⟨1⟩, ⟨1⟩) ∧ s.Lendable ⟨1⟩ ∧
      ∃ report s', s.control ⟨⟨1⟩, ⟨1⟩, ⟨0⟩⟩ .currentProcess (.schedule .lock none) =
          (.ok (.schedule report), s') ∧
        s.Locks ⟨0⟩ ⟨1⟩ ⟨1⟩ none report s' ∧ s'.books = s.books ∧
        report = ⟨[⟨1⟩, ⟨2⟩], [], [⟨0⟩, ⟨1⟩], 0⟩ := by
  intro s
  obtain ⟨⟨report, s', hrun, hlocks⟩, -⟩ := runAll_schedule 2 [.createProcess "host" 1,
    .createThread ⟨1⟩ ⟨0⟩, .createThread ⟨1⟩ ⟨1⟩, .createThread ⟨1⟩ ⟨1⟩, .setThreadState ⟨1⟩ .runnable,
    .setThreadState ⟨2⟩ .runnable, .runOnCore ⟨1⟩, .runOnCore ⟨2⟩, .setSyncOwner (some ⟨3⟩)]
    ⟨⟨1⟩, ⟨1⟩, ⟨0⟩⟩ .currentProcess none (p := ⟨1⟩) (o := ⟨1⟩) rfl
  have hanswer : (s.control ⟨⟨1⟩, ⟨1⟩, ⟨0⟩⟩ .currentProcess (.schedule .lock none)).1 =
      .ok (.schedule ⟨[⟨1⟩, ⟨2⟩], [], [⟨0⟩, ⟨1⟩], 0⟩) := rfl
  have hlend : s.Lendable ⟨1⟩ := by
    intro object ho
    cases ho
    decide
  refine ⟨rfl, hlend, report, s', hrun, hlocks, hlocks.books hlend, ?_⟩
  have hsame : s.control ⟨⟨1⟩, ⟨1⟩, ⟨0⟩⟩ .currentProcess (.schedule .lock none) = _ := hrun
  rw [hsame] at hanswer
  exact ControlOutput.schedule.inj (Except.ok.inj hanswer)

end State
end PluginSlot.Kernel
