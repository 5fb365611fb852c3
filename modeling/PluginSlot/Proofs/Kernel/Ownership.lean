import Mathlib.Data.List.Infix
import PluginSlot.Proofs.Kernel.Balance

/-!
Whose the threads are. A thread keeps its owner until its process is destroyed, which takes the
thread with it; so it outlives the record of its owner only if it was there, or came, after that
process was reaped.
-/
namespace PluginSlot.Kernel

/-- The operation ends the record of a reaped process that owns a thread. -/
def Operation.Orphans (op : Operation) (s : State) : Prop :=
  ∃ p process t, s.process? p = some process ∧ process.reaped = true ∧
    (op.run s).2.process? p = none ∧ s.ownerOf t = some p

/-- Does an operation make or end threads? -/
def Operation.populates : Operation → Bool
  | createThread _ _ | destroyProcess _ => true
  | _ => false

namespace State

/-- The owner of every thread has a record, and its core exists. -/
structure Owned (s : State) : Prop where
  owner : ∀ t p, s.ownerOf t = some p → (s.process? p).isSome
  home : ∀ t thread, s.thread? t = some thread → (s.core? thread.core).isSome

/-- The checker finds exactly the threads without an owner or without a core. -/
theorem ownershipViolations_eq_nil_iff (s : State) : s.ownershipViolations = [] ↔ s.Owned := by
  simp only [ownershipViolations, List.flatMap_eq_nil_iff, List.append_eq_nil_iff, ite_eq_left_iff,
    reduceCtorEq, imp_false, not_not, Prod.forall, ← Table.get?_eq_some_iff]
  constructor
  · intro hall
    constructor
    · intro t p howner
      obtain ⟨thread, ht, rfl⟩ := ownerOf_eq_some_iff.mp howner
      exact (hall t thread ht).1
    · intro t thread ht
      exact (hall t thread ht).2
  · intro hs t thread ht
    exact ⟨hs.owner t _ (ownerOf_eq_some_iff.mpr ⟨thread, ht, rfl⟩), hs.home t thread ht⟩

instance (s : State) : Decidable s.Owned := decidable_of_iff _ s.ownershipViolations_eq_nil_iff

section
variable {s s' : State} {p : ProcessId} {process : Process} {t : ThreadId}

theorem ownerOf_of_threading (h : s'.threading = s.threading) : s'.ownerOf = s.ownerOf := by
  funext t
  rw [ownerOf, ownerOf, thread?_of_threading h]

theorem ownerOf_withProcess {α : Type} (p : ProcessId) (h : Handle)
    {use : ProcessId → State → Except Error α × State}
    (huse : ∀ q s, (use q s).2.ownerOf = s.ownerOf) :
    (s.withProcess p h use).2.ownerOf = s.ownerOf := by
  have hacquire := ownerOf_of_threading (threading_acquireProcess s p h)
  rw [withProcess]
  split
  next he => rwa [he] at hacquire
  next q s₁ he =>
    rw [he] at hacquire
    calc ((use q s₁).2.releaseProcess q).ownerOf
        = (use q s₁).2.ownerOf := ownerOf_of_threading (threading_releaseProcess _ _)
      _ = s₁.ownerOf := huse q s₁
      _ = s.ownerOf := hacquire

theorem ownerOf_controlTarget (caller : Caller) (p : ProcessId) (op : ControlOp) :
    (s.controlTarget caller p op).2.ownerOf = s.ownerOf := by
  cases op with
  | listHandles c =>
    rw [controlTarget]
    split <;> rfl
  | forceRwx =>
    rw [controlTarget]
    split <;> rfl
  | memoryChangeEvent =>
    have hevent := threading_memoryChangeEvent s p
    rw [controlTarget]
    split
    · rfl
    · split
      next he =>
        rw [he] at hevent
        exact ownerOf_of_threading hevent
      next he =>
        rw [he] at hevent
        exact ownerOf_of_threading (by simpa using hevent)
  | signalOnExit =>
    rw [controlTarget]
    split <;> rfl
  | physicalAddress virtual => rfl
  | schedule mode filter =>
    cases mode with
    | lock => exact congrArg Holdings.owners (holdings_lockThreads caller.core p filter)
    | unlock => exact congrArg Holdings.owners (holdings_unlockThreads p filter)

theorem ownerOf_control (caller : Caller) (target : Handle) (op : ControlOp) :
    (s.control caller target op).2.ownerOf = s.ownerOf :=
  ownerOf_withProcess _ _ fun q _ => ownerOf_controlTarget caller q op

theorem ownerOf_controlRaw (caller : Caller) (target : Handle) (code arg : UInt32) :
    (s.controlRaw caller target code arg).2.ownerOf = s.ownerOf := by
  rw [controlRaw]
  split
  · rfl
  · exact ownerOf_control caller target _

theorem ownerOf_titleOf (p : ProcessId) (h : Handle) : (s.titleOf p h).2.ownerOf = s.ownerOf := by
  apply ownerOf_withProcess
  intro q s
  split <;> rfl

theorem ownerOf_beginExit (p : ProcessId) : (s.beginExit p).2.ownerOf = s.ownerOf := by
  obtain hsame | ⟨-, hsame⟩ := holdings_beginExit (s := s) p
  · exact congrArg Holdings.owners hsame
  · rw [hsame]

theorem mem_threadsOf : t ∈ s.threadsOf p ↔ s.ownerOf t = some p := by
  rw [ownerOf_eq_some_iff]
  simp only [threadsOf, List.mem_map, List.mem_filter, decide_eq_true_eq]
  constructor
  · rintro ⟨⟨t, thread⟩, ⟨hm, howner⟩, rfl⟩
    exact ⟨thread, (Table.get?_eq_some_iff _ t thread).mpr hm, howner⟩
  · rintro ⟨thread, ht, howner⟩
    exact ⟨(t, thread), ⟨(Table.get?_eq_some_iff _ t thread).mp ht, howner⟩, rfl⟩

theorem ownerOf_foldl_removeThread (ts : List ThreadId) (t : ThreadId) :
    (ts.foldl removeThread s).ownerOf t = if t ∈ ts then none else s.ownerOf t := by
  induction ts generalizing s with
  | nil => rfl
  | cons u ts ih =>
    rw [List.foldl_cons, ih]
    by_cases hin : t ∈ ts
    · simp [hin]
    · by_cases hu : u = t
      · subst hu
        simp [hin, ownerOf, thread?_removeThread_self]
      · have hne : t ≠ u := Ne.symm hu
        simp [hin, hne, ownerOf, thread?_removeThread_ne s hu]

theorem threading_foldl_release (os : List ObjectId) (s : State) :
    (os.foldl release s).threading = s.threading := by
  induction os generalizing s with
  | nil => rfl
  | cons o os ih => exact (ih _).trans (threading_release s o)

/-- A process is destroyed once, and then its threads go with it, and no others. -/
theorem destroyProcess_cases (s : State) (p : ProcessId) : (s.destroyProcess p).2 = s ∨
    ∃ process, s.process? p = some process ∧ process.reaped = false ∧
      ∀ t, (s.destroyProcess p).2.ownerOf t = if s.ownerOf t = some p then none else s.ownerOf t := by
  cases hp : s.process? p with
  | none =>
    refine .inl ?_
    simp only [destroyProcess, hp]
  | some process =>
    cases hlive : process.reaped with
    | true =>
      refine .inl ?_
      simp only [destroyProcess, hp, hlive, if_pos]
    | false =>
      refine .inr ⟨process, rfl, hlive, fun t => ?_⟩
      have hrun := congrArg Prod.snd (destroyProcess_eq hp hlive)
      have hgone : (s.destroyProcess p).2.threading = (s.bury p).threading := by
        rw [hrun]
        exact threading_foldl_release _ _
      rw [ownerOf_of_threading hgone]
      show (((s.beginExit p).2.threadsOf p).foldl removeThread (s.beginExit p).2).ownerOf t = _
      simp only [ownerOf_foldl_removeThread, mem_threadsOf, ownerOf_beginExit]

theorem ownerOf_createThread {q : ProcessId} {c : CoreId}
    (h : (s.createThread q c).2.ownerOf t = some p) :
    s.ownerOf t = some p ∨ p = q ∧ (s.process? q).isSome := by
  let thread : Thread := ⟨q, .ofState .paused, c, .replicate tlsWords 0⟩
  rw [createThread] at h
  split at h
  · exact .inl h
  next hok =>
    have hafter : (s.addThread thread).ownerOf t = some p := h
    by_cases ht : t = ⟨s.nextThread⟩
    · rw [ownerOf, ht, thread?_addThread_self] at hafter
      refine .inr ⟨(Option.some.inj hafter).symm, ?_⟩
      simp only [Bool.or_eq_true, Bool.not_eq_true', not_or, Bool.not_eq_false] at hok
      exact hok.1
    · rw [ownerOf, thread?_addThread_ne s thread ht] at hafter
      exact .inl hafter

/-- Only the birth of a thread and the end of a process change who owns what. -/
theorem ownerOf_run (op : Operation) (hop : op.populates = false) :
    (op.run s).2.ownerOf = s.ownerOf := by
  cases op with
  | createThread _ _ | destroyProcess _ => cases hop
  | control caller target op => exact ownerOf_control caller target op
  | controlRaw caller target code arg => exact ownerOf_controlRaw caller target code arg
  | createProcess name titleId => exact ownerOf_of_threading (threading_createProcess s name titleId)
  | setTls t slot value => exact congrArg Holdings.owners (holdings_setTls s t slot value)
  | setThreadState t state => exact congrArg Holdings.owners (holdings_setThreadState s t state)
  | setDebugLock t locked => exact congrArg Holdings.owners (holdings_setDebugLock s t locked)
  | beginExit p => exact ownerOf_beginExit p
  | runOnCore t => exact congrArg Holdings.owners (holdings_runOnCore s t)
  | enqueue t => exact congrArg Holdings.owners (holdings_enqueue s t)
  | evict t => exact congrArg Holdings.owners (holdings_evict s t)
  | reschedule c => exact congrArg Holdings.owners (holdings_reschedule s c)
  | tick c => exact congrArg Holdings.owners (holdings_tick s c)
  | raiseIpi c => exact congrArg Holdings.owners (holdings_raiseIpi s c)
  | deliverIpis => exact congrArg Holdings.owners holdings_deliverIpis
  | setPluginLock t => exact congrArg Holdings.owners (holdings_setPluginLock s t)
  | clearPluginLock t => exact congrArg Holdings.owners (holdings_clearPluginLock s t)
  | setSyncOwner t => rfl
  | retain o => exact ownerOf_of_threading (threading_retain s o)
  | release o => exact ownerOf_of_threading (threading_release s o)
  | openHandle p o => exact ownerOf_of_threading (threading_openHandle s p o)
  | openProcess p target => exact ownerOf_of_threading (threading_openProcess s p target)
  | createObject p c => exact ownerOf_of_threading (threading_createObject s p c)
  | closeHandle p h => exact ownerOf_of_threading (threading_closeHandle s p h)
  | acquireProcess p h => exact ownerOf_of_threading (threading_acquireProcess s p h)
  | releaseProcess p => exact ownerOf_of_threading (threading_releaseProcess s p)
  | titleOf p h => exact ownerOf_titleOf p h
  | clearEvent p h => exact ownerOf_of_threading (threading_clearEvent s p h)
  | mapPage p virtual physical permissions =>
    exact ownerOf_of_threading (threading_mapPage s p virtual physical permissions)
  | unmapPage p virtual => exact ownerOf_of_threading (threading_unmapPage s p virtual)

/-- Whoever owns a thread after an operation owned it before, and was not destroyed by it; or the
operation created the thread. -/
theorem ownerOf_before {op : Operation} (h : (op.run s).2.ownerOf t = some p) :
    s.ownerOf t = some p ∧ (op = .destroyProcess p → (op.run s).2 = s) ∨
      ∃ c, op = .createThread p c ∧ (s.process? p).isSome := by
  cases op with
  | createThread q c =>
    obtain hold | ⟨rfl, hq⟩ := ownerOf_createThread h
    · exact .inl ⟨hold, nofun⟩
    · exact .inr ⟨c, rfl, hq⟩
  | destroyProcess q =>
    have hafter : (s.destroyProcess q).2.ownerOf t = some p := h
    obtain hsame | ⟨process, hq, hlive, howner⟩ := destroyProcess_cases s q
    · rw [hsame] at hafter
      exact .inl ⟨hafter, fun _ => hsame⟩
    · rw [howner] at hafter
      split at hafter
      · cases hafter
      next hne =>
        refine .inl ⟨hafter, ?_⟩
        rintro ⟨⟩
        exact absurd hafter hne
  | _ =>
    rw [ownerOf_run _ rfl] at h
    exact .inl ⟨h, fun he => by cases he⟩

/-- A thread stays with a reaped process when its record ends. -/
theorem ownerOf_after {op : Operation} (hp : s.process? p = some process)
    (hreaped : process.reaped = true) (hgone : (op.run s).2.process? p = none)
    (ht : s.ownerOf t = some p) : (op.run s).2.ownerOf t = some p := by
  cases op with
  | createThread q c =>
    have hsame : (s.createThread q c).2.process? p = s.process? p :=
      process?_of_books (books_createThread q c) p
    cases hgone.symm.trans (hsame.trans hp)
  | destroyProcess q =>
    show (s.destroyProcess q).2.ownerOf t = some p
    obtain hsame | ⟨other, hq, hlive, howner⟩ := destroyProcess_cases s q
    · rw [hsame]
      exact ht
    · have hne : s.ownerOf t ≠ some q := by
        intro htq
        cases Option.some.inj (ht.symm.trans htq)
        cases hp.symm.trans hq
        cases hreaped.symm.trans hlive
      rw [howner, if_neg hne, ht]
  | _ =>
    rw [ownerOf_run _ rfl]
    exact ht

variable {loose : List ObjectId}

/-- While owners have records, an operation takes one away exactly if it orphans a thread. -/
theorem Audited.owner_run (hs : s.Audited loose) (hroom : s.Roomy) {op : Operation}
    (hop : op.isBare = false)
    (howner : ∀ t p, s.ownerOf t = some p → (s.process? p).isSome) :
    (∀ t p, (op.run s).2.ownerOf t = some p → ((op.run s).2.process? p).isSome) ↔
      ¬op.Orphans s := by
  constructor
  · rintro hafter ⟨p, process, t, hp, hreaped, hgone, ht⟩
    have hsome := hafter t p (ownerOf_after hp hreaped hgone ht)
    rw [hgone] at hsome
    cases hsome
  · intro hfree t p ht
    cases hgone : (op.run s).2.process? p with
    | some process => rfl
    | none =>
      exfalso
      obtain ⟨hbefore, hidle⟩ | ⟨c, rfl, hp⟩ := ownerOf_before ht
      · obtain ⟨process, hp⟩ := Option.isSome_iff_exists.mp (howner t p hbefore)
        obtain hreaped | hdestroy := (settles hs hroom op hop).ended p process hp hgone
        · exact hfree ⟨p, process, t, hp, hreaped, hgone, hbefore⟩
        · rw [hidle hdestroy, hp] at hgone
          cases hgone
      · have hsame : (s.createThread p c).2.process? p = s.process? p :=
          process?_of_books (books_createThread p c) p
        have hnone : s.process? p = none := hsame.symm.trans hgone
        rw [hnone] at hp
        cases hp

end

/-- In a run that takes and drops no references by hand, and in which no count is exhausted, the core of
every thread exists; and after every step the owner of every thread has a record, exactly if no step
ended the record of a reaped process that owned a thread. -/
theorem runAll_owned_iff (cores : Nat) (ops : List Operation) (h : ∀ op ∈ ops, op.isBare = false)
    (hroom : RoomyRun cores ops) :
    (∀ done, done <+: ops → ((boot cores).runAll done).Owned) ↔
      ∀ done op, done ++ [op] <+: ops → ¬op.Orphans ((boot cores).runAll done) := by
  have haudited {done : List Operation} (hdone : done <+: ops) :
      ∃ lost, ((boot cores).runAll done).Audited lost := by
    obtain ⟨lost, hs, -⟩ := exists_audited cores done (fun op hop => h op (hdone.subset hop))
      (hroom.of_prefix hdone)
    exact ⟨lost, hs⟩
  constructor
  · intro howned done op hstep
    have hdone : done <+: ops := (List.prefix_append done [op]).trans hstep
    obtain ⟨lost, hs⟩ := haudited hdone
    apply (hs.owner_run (hroom done op hstep) (h op (hstep.subset (by simp)))
      (howned done hdone).owner).mp
    rw [← runAll_concat]
    exact (howned _ hstep).owner
  · intro hfree done hdone
    constructor
    · induction done using List.reverseRecOn with
      | nil =>
        intro t p ht
        cases ht
      | append_singleton done op ih =>
        have hbefore : done <+: ops := (List.prefix_append done [op]).trans hdone
        obtain ⟨lost, hs⟩ := haudited hbefore
        rw [runAll_concat]
        exact (hs.owner_run (hroom done op hdone) (h op (hdone.subset (by simp))) (ih hbefore)).mpr
          (hfree done op hdone)
    · intro t thread ht
      have hplaced := (placed_boot cores).runAll done
      apply hplaced.home t
      rw [homeOf, ht]
      rfl

/-- A reaped process is given a thread, and its record goes with the last handle to it. -/
theorem not_owned_of_late_thread :
    ¬((boot 1).runAll [.createProcess "loader" 1, .createProcess "host" 2,
      .openProcess ⟨1⟩ ⟨2⟩, .destroyProcess ⟨2⟩, .createThread ⟨2⟩ ⟨0⟩,
      .closeHandle ⟨1⟩ ⟨0x100⟩]).Owned := by
  decide

/-- A thread that was created before its process was destroyed is gone before the record is. -/
theorem runAll_owned_destroyed :
    let ops : List Operation := [.createProcess "loader" 1, .createProcess "host" 2,
      .openProcess ⟨1⟩ ⟨2⟩, .createThread ⟨2⟩ ⟨0⟩, .destroyProcess ⟨2⟩, .closeHandle ⟨1⟩ ⟨0x100⟩]
    (∀ op ∈ ops, op.isBare = false) ∧ RoomyRun 1 ops ∧
      (∀ done, done <+: ops → ((boot 1).runAll done).Owned) ∧
      ∀ done op, done ++ [op] <+: ops → ¬op.Orphans ((boot 1).runAll done) := by
  intro ops
  have hops : ∀ op ∈ ops, op.isBare = false := by simp [ops, Operation.isBare]
  have hroom : RoomyRun 1 ops := roomyRun_of_length 1 (by decide)
  have hinits : ∀ done ∈ ops.inits, ((boot 1).runAll done).Owned := by decide
  have howned : ∀ done, done <+: ops → ((boot 1).runAll done).Owned :=
    fun done hdone => hinits done ((List.mem_inits done ops).mpr hdone)
  exact ⟨hops, hroom, howned, (runAll_owned_iff 1 ops hops hroom).mp howned⟩

end State
end PluginSlot.Kernel
