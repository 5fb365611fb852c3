import Mathlib.Data.List.Nodup
import PluginSlot.Proofs.Kernel.Scheduled

/-!
Who waits, who executes, and that nobody who may run is lost. The checker agrees: it never reports
a breach of these invariants.
-/
namespace PluginSlot.Kernel
namespace State

variable {s : State} {c : CoreId} {core : Core} {t : ThreadId} {A : Set ThreadId}

/-- Counting from a table adds to what the table says. -/
theorem getD_count_foldl (ts : List ThreadId) (counts : Table ThreadId Nat) (t : ThreadId) :
    ((ts.foldl (fun counts t => counts.insert t ((counts.get? t).getD 0 + 1)) counts).get? t).getD 0 =
      (counts.get? t).getD 0 + ts.count t := by
  induction ts generalizing counts with
  | nil => simp
  | cons u ts ih =>
    rw [List.foldl_cons, ih]
    by_cases h : u = t
    · subst h
      simp only [Table.get?_insert_self, Option.getD_some, List.count_cons_self]
      omega
    · rw [Table.get?_insert_ne _ h, List.count_cons_of_ne h]

theorem getD_queueCounts (s : State) (t : ThreadId) :
    (s.queueCounts.get? t).getD 0 = (s.cores.flatMap (·.queue)).count t := by
  simpa [queueCounts] using getD_count_foldl (s.cores.flatMap (·.queue)) .empty t

/-- No thread waits twice, on one core or on two. -/
theorem Placed.nodup_queues (hp : s.Placed A) : (s.cores.flatMap (·.queue)).Nodup := by
  refine List.nodup_flatMap.mpr ⟨fun core hcore => ?_, List.pairwise_iff_getElem.mpr ?_⟩
  · obtain ⟨n, hn⟩ := List.mem_iff_getElem?.mp hcore
    exact (Core.nodup_threads.mp (hp.ordered ⟨n⟩ core hn).nodup).1
  · intro i j hi hj hij t hti htj
    have hhome : some (⟨i⟩ : CoreId) = some ⟨j⟩ :=
      (hp.home_of_queued (List.getElem?_eq_getElem hi) hti).symm.trans
        (hp.home_of_queued (List.getElem?_eq_getElem hj) htj)
    cases hhome
    exact absurd hij (lt_irrefl _)

theorem Placed.queuedViolations_eq_nil (hp : s.Placed A) (hc : s.core? c = some core)
    (ht : t ∈ core.queue) : s.queuedViolations c t = [] := by
  obtain ⟨thread, hthread, hhome⟩ := homeOf_eq_some.mp (hp.home_of_queued hc ht)
  have hrun : thread.mask.isRunnable = true := by
    simpa [State.mayRun, hthread] using (hp.ordered c core hc).mayRun t ht
  simp [queuedViolations, hthread, hrun, hhome, hp.runningCore_of_queued hc ht]

theorem Placed.queueViolations_eq_nil (hp : s.Placed A) : s.queueViolations = [] := by
  have hqueued : s.indexedCores.flatMap (fun e => e.2.queue.flatMap (s.queuedViolations e.1)) = [] := by
    refine List.flatMap_eq_nil_iff.mpr fun ⟨c, core⟩ hc => List.flatMap_eq_nil_iff.mpr fun t ht => ?_
    exact hp.queuedViolations_eq_nil (mem_indexedCores.mp hc) ht
  have honce : s.queueCounts.entries.filterMap
      (fun e => if e.2 > 1 then some (Violation.queuedOften e.1 e.2) else none) = [] := by
    refine List.filterMap_eq_nil_iff.mpr fun ⟨t, times⟩ he => if_neg ?_
    have hcount := getD_queueCounts s t
    rw [(Table.get?_eq_some_iff _ t times).mpr he, Option.getD_some] at hcount
    have hle := List.nodup_iff_count_le_one.mp hp.nodup_queues t
    simp only [gt_iff_lt, not_lt]
    omega
  exact List.append_eq_nil_iff.mpr ⟨hqueued, honce⟩

theorem Placed.lostViolations_eq_nil (hp : s.Placed ∅) : s.lostViolations = [] := by
  refine List.filterMap_eq_nil_iff.mpr fun ⟨t, thread⟩ he => if_pos ?_
  have ht : s.thread? t = some thread := (Table.get?_eq_some_iff _ t thread).mpr he
  cases hm : thread.mask.isRunnable with
  | false => simp
  | true =>
    have hhome : s.homeOf t = some thread.core := by simp [homeOf, ht]
    have hrun : s.mayRun t = true := by simp [State.mayRun, ht, hm]
    obtain ⟨core, hc⟩ := hp.core_of_home hhome
    rcases Core.mem_threads.mp (hp.present _ core t hc hhome hrun (Set.notMem_empty t)) with hq | hcur
    · simp [hc, hq]
    · simp [runningCore_isSome.mpr ⟨_, core, hc, hcur⟩]

/-- Each thread is where it belongs: one that waits exists, may run, waits once, for its own core
and executes nowhere; one that executes does so on its own core only; and one that may run waits
or executes there. -/
structure Scheduled (s : State) : Prop where
  queued : ∀ c core t, s.core? c = some core → t ∈ core.queue →
    (∃ thread, s.thread? t = some thread ∧ thread.mask.isRunnable = true ∧ thread.core = c) ∧
    core.queue.count t = 1 ∧ ∀ d other, s.core? d = some other → other.current ≠ some t
  current : ∀ c core t, s.core? c = some core → core.current = some t →
    (∃ thread, s.thread? t = some thread ∧ thread.core = c) ∧
    ∀ d other, s.core? d = some other → other.current = some t → d = c
  runnable : ∀ t thread, s.thread? t = some thread → thread.mask.isRunnable = true →
    ∃ core, s.core? thread.core = some core ∧ (t ∈ core.queue ∨ core.current = some t)

theorem Placed.scheduled (hp : s.Placed ∅) : s.Scheduled where
  queued c core t hc ht := by
    obtain ⟨thread, hthread, hhome⟩ := homeOf_eq_some.mp (hp.home_of_queued hc ht)
    have hord := hp.ordered c core hc
    have hrun : thread.mask.isRunnable = true := by
      simpa [State.mayRun, hthread] using hord.mayRun t ht
    refine ⟨⟨thread, hthread, hrun, hhome⟩, ?_, ?_⟩
    · exact List.count_eq_one_of_mem (Core.nodup_threads.mp hord.nodup).1 ht
    · exact runningCore_eq_none.mp (hp.runningCore_of_queued hc ht)
  current c core t hc ht := by
    have hhome := hp.home_of_current hc ht
    refine ⟨homeOf_eq_some.mp hhome, fun d other hd hcur => ?_⟩
    exact Option.some.inj ((hp.home_of_current hd hcur).symm.trans hhome)
  runnable t thread ht hm := by
    have hhome : s.homeOf t = some thread.core := by simp [homeOf, ht]
    have hrun : s.mayRun t = true := by simp [State.mayRun, ht, hm]
    obtain ⟨core, hc⟩ := hp.core_of_home hhome
    exact ⟨core, hc, Core.mem_threads.mp (hp.present _ core t hc hhome hrun (Set.notMem_empty t))⟩

/-- After every history without evictions by hand each thread is where it belongs, and the checker
finds neither a thread queued wrongly nor a lost one. -/
theorem runAll_scheduled (cores : Nat) (ops : List Operation) (h : ∀ t, .evict t ∉ ops) :
    ((boot cores).runAll ops).Scheduled ∧ ((boot cores).runAll ops).queueViolations = [] ∧
      ((boot cores).runAll ops).lostViolations = [] := by
  have hp : ((boot cores).runAll ops).Placed ∅ := by
    refine ((placed_boot cores).runAll ops).mono ?_
    rintro t (ht | ht)
    · exact ht
    · exact absurd ht (h t)
  exact ⟨hp.scheduled, hp.queueViolations_eq_nil, hp.lostViolations_eq_nil⟩

/-- Two threads share a core: one executes, the other waits. -/
theorem runAll_scheduled_pair :
    let ops : List Operation := [.createProcess "host" 1, .createThread ⟨1⟩ ⟨0⟩,
      .createThread ⟨1⟩ ⟨0⟩, .setThreadState ⟨1⟩ .runnable, .setThreadState ⟨2⟩ .runnable, .tick ⟨0⟩]
    (∀ t, .evict t ∉ ops) ∧
      ((boot 1).runAll ops).core? ⟨0⟩ = some ⟨some ⟨1⟩, [⟨2⟩], false, 0⟩ ∧
      ((boot 1).runAll ops).Scheduled ∧ ((boot 1).runAll ops).queueViolations = [] ∧
      ((boot 1).runAll ops).lostViolations = [] := by
  intro ops
  have hops : ∀ t, .evict t ∉ ops := by simp [ops]
  exact ⟨hops, rfl, runAll_scheduled 1 ops hops⟩

end State
end PluginSlot.Kernel
