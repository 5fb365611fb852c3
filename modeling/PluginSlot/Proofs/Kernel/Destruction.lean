import PluginSlot.Proofs.Kernel.Registration
import PluginSlot.Proofs.Kernel.Removal
import PluginSlot.Proofs.Kernel.Remains

/-!
The end of a process. Its threads and handles go at once, and the kernel drops its own reference; the
record stays while other processes name it, and may take the last handle of another reaped process
along.
-/
namespace PluginSlot.Kernel.State

/-- References balance, records and the objects of processes name each other, and reaped processes have
no handles. -/
structure Orderly (s : State) : Prop extends Balanced s where
  own : ∀ p process, s.process? p = some process →
    ∃ object, s.object? process.object = some object ∧ object.body = .process p
  recorded : ∀ o object p, s.object? o = some object → object.body = .process p →
    ∃ process, s.process? p = some process ∧ process.object = o
  tidy : s.Tidy

/-- What the destruction of a process does. -/
structure Destroys (s s' : State) (p : ProcessId) (process : Process) : Prop where
  orderly : s'.Orderly
  /-- Its threads are gone, and it owns no others. -/
  unowned : ∀ t, s'.ownerOf t ≠ some p
  gone : ∀ t, s.ownerOf t = some p → s'.Gone t
  otherThreads : ∀ t, s.ownerOf t ≠ some p → s'.thread? t = s.thread? t
  handles : ∀ now, s'.process? p = some now → now.handles.isEmpty = true
  /-- Its record stays exactly if another process names its object. -/
  stays_iff : (s'.process? p).isSome = true ↔ ∃ q h, q ≠ p ∧ s.Names q h process.object
  names_iff : ∀ q h, s'.Names q h process.object ↔ q ≠ p ∧ s.Names q h process.object
  /-- When those handles are closed one by one, in any order, it goes with the last one. -/
  closing : ∀ done rest, (done ++ rest).Perm (s'.namings process.object) →
    (((s'.runAll (done.map fun e => .closeHandle e.1 e.2)).process? p).isSome = true ↔ rest ≠ []) ∧
      ∀ q h, (q, h) ∈ rest →
        ((s'.runAll (done.map fun e => .closeHandle e.1 e.2)).closeHandle q h).1 = .ok ()
  /-- Another record stays as it is, or goes because it was reaped and the last handles to it were those
  of this process. -/
  others : ∀ q other, q ≠ p → s.process? q = some other → s'.process? q = some other ∨
    s'.process? q = none ∧ other.reaped = true ∧ (∃ h, s.Names p h other.object) ∧
      ∀ r h, s.Names r h other.object → r = p
  again : (s'.process? p).isSome = true → s'.destroyProcess p = (.ok (), s')

section
variable {s : State} {p q : ProcessId} {process : Process} {o : ObjectId} {h : Handle}

theorem Tidy.bury (htidy : s.Tidy) (hp : s.process? p = some process) : (s.bury p).Tidy := by
  intro q now hq hreaped
  by_cases he : q = p
  · subst he
    cases (process?_bury_self hp).symm.trans hq
    rfl
  · rw [process?_bury_ne hp he] at hq
    exact htidy q now hq hreaped

theorem names_bury (hp : s.process? p = some process) :
    (s.bury p).Names q h o ↔ q ≠ p ∧ s.Names q h o := by
  by_cases he : q = p
  · subst he
    constructor
    · rintro ⟨now, hnow, hh⟩
      cases (process?_bury_self hp).symm.trans hnow
      cases hh
    · exact fun hn => absurd rfl hn.1
  · rw [Names, process?_bury_ne hp he]
    exact ⟨fun hn => ⟨he, hn⟩, fun hn => hn.2⟩

/-- Ids and handles come in order in every run, so order in the references is all that is missing. -/
theorem Orderly.accounted (hs : s.Orderly) (hr : s.Registered) (hown : s.OwnEvents) :
    s.Accounted [] := by
  refine Filed.accounted ?_ hs.toBalanced
  exact {
    backed := hs.own
    backing := hs.recorded
    event := fun p process e hp he => by
      obtain ⟨object, ho⟩ := Option.isSome_iff_exists.mp (hs.event p process e hp he)
      exact ⟨object, ho, hr.event p process e object hp he ho⟩
    ownEvent := hown
    numbered := hr.numbered
    objectBelow := hr.objectBelow
    processBelow := hr.processBelow }

theorem Accounted.orderly (hs : s.Accounted []) (htidy : s.Tidy) : s.Orderly :=
  ⟨hs.balanced_iff.mpr rfl, hs.backed, hs.backing, htidy⟩

/-- The books of a destroyed process: what it held is released, which strands nothing, and ends the
records of no other processes than those it named. -/
theorem Accounted.destroyProcess (hs : s.Accounted []) (htidy : s.Tidy)
    (hp : s.process? p = some process) (hlive : process.reaped = false) :
    ∃ s', s.destroyProcess p = (.ok (), s') ∧ s'.Accounted [] ∧ Sheds [] (s.bury p) s' ∧
      (s.bury p).Thins s' ∧
      ∀ q other, (s.bury p).process? q = some other → s'.process? q = none →
        other.object ∈ process.handles.slots.values ++ [process.object] := by
  have hburied := hs.bury hp hlive
  obtain ⟨stranded, hafter, hshed⟩ := hburied.shedAll
  obtain rfl := hshed.eq_nil (htidy.bury hp)
  exact ⟨_, destroyProcess_eq hp hlive, hafter, hshed, thins_foldl_release _ _,
    fun q other => hburied.object_mem_of_gone⟩

/-- A record other than that of the destroyed process goes only with the last handles to it, which were
those of this process. -/
theorem Accounted.ended_elsewhere {s' : State} {other : Process} (hs : s.Accounted [])
    (hafter : s'.Accounted []) (hp : s.process? p = some process) (hq : s.process? q = some other)
    (hne : q ≠ p) (hended : s'.process? q = none)
    (hbody : ∀ object, s'.object? other.object = some object → object.body = .process q)
    (hreleased : other.object ∈ process.handles.slots.values ++ [process.object])
    (hnames : ∀ r h, s'.Names r h other.object ↔ r ≠ p ∧ s.Names r h other.object) :
    (∃ h, s.Names p h other.object) ∧ ∀ r h, s.Names r h other.object → r = p := by
  constructor
  · rcases List.mem_append.mp hreleased with hnamed | hown
    · obtain ⟨h, hh⟩ := mem_values_iff.mp hnamed
      exact ⟨h, process, hp, hh⟩
    · -- the destroyed process has an object of its own
      obtain ⟨object, ho, hself⟩ := hs.backed p process hp
      obtain ⟨object', ho', hother⟩ := hs.backed q other hq
      rw [List.mem_singleton.mp hown, ho] at ho'
      cases ho'
      exact absurd (ObjectBody.process.inj (hother.symm.trans hself)) hne
  · intro r h hn
    by_contra hr
    -- a handle of a third process would keep the record
    obtain ⟨now, hnow⟩ := hafter.exists_of_names hbody ((hnames r h).mpr ⟨hr, hn⟩)
    cases hended.symm.trans hnow

theorem Accounted.destroys (hs : s.Accounted []) (htidy : s.Tidy) (hp : s.process? p = some process)
    (hlive : process.reaped = false) :
    ∃ s', s.destroyProcess p = (.ok (), s') ∧ s.Destroys s' p process := by
  obtain ⟨s', hrun, hafter, hshed, hthins, hreleased⟩ := hs.destroyProcess htidy hp hlive
  have hthreads := destroyProcess_threads hp hlive
  rw [hrun] at hthreads
  obtain ⟨hgone, hothers⟩ := hthreads
  have htidy' : s'.Tidy := hshed.tidy (htidy.bury hp)
  have hnames {q : ProcessId} {h : Handle} {o : ObjectId} :
      s'.Names q h o ↔ q ≠ p ∧ s.Names q h o :=
    (hshed.names_iff (htidy.bury hp)).trans (names_bury hp)
  have hcorpse (now : Process) (hnow : s'.process? p = some now) : now = process.corpse :=
    Option.some.inj ((hshed.before hnow).symm.trans (process?_bury_self hp))
  have hburied := hs.bury hp hlive
  have hremains : s'.Remains p process.object :=
    (hburied.remains (process?_bury_self hp) rfl (by simp [Process.corpse])).shed hshed hthins
  refine ⟨s', hrun, ?_⟩
  constructor
  · exact hafter.orderly htidy'
  · intro t ht
    by_cases howned : s.ownerOf t = some p
    · rw [ownerOf, (hgone t howned).thread] at ht
      cases ht
    · rw [ownerOf, hothers t howned] at ht
      exact howned ht
  · exact hgone
  · exact hothers
  · intro now hnow
    rw [hcorpse now hnow]
    rfl
  · refine (hafter.remains_iff hremains).trans ?_
    simp only [hnames]
  · exact fun q h => hnames
  · intro done rest hperm
    refine hafter.closeEach htidy' hremains (hperm.nodup_iff.mpr (nodup_namings s' _)) fun q h => ?_
    exact hperm.mem_iff.trans mem_namings
  · intro q other hne hq
    have hkept : (s.bury p).process? q = some other := (process?_bury_ne hp hne).trans hq
    obtain hstay | ⟨hended, hreaped, -⟩ := hshed.stays q other hkept
    · exact .inl hstay
    · refine .inr ⟨hended, hreaped, hs.ended_elsewhere hafter hp hq hne hended (fun now hnow => ?_)
        (hreleased q other hkept hended) fun r h => hnames⟩
      obtain ⟨old, hold, hsame, -⟩ := hthins other.object now hnow
      obtain ⟨object, ho, hbody⟩ := hburied.backed q other hkept
      cases hold.symm.trans ho
      exact hsame.trans hbody
  · intro hsome
    obtain ⟨now, hnow⟩ := Option.isSome_iff_exists.mp hsome
    have hreaped : now.reaped = true := (hremains.record now hnow).1
    simp only [State.destroyProcess, hnow, hreaped, if_true]

end

/-- After a run that takes and drops no references by hand, and in which no count is exhausted, the
kernel is in order if references balance and reaped processes have no handles. -/
theorem runAll_orderly_iff (cores : Nat) (ops : List Operation) (h : ∀ op ∈ ops, op.isBare = false)
    (hroom : RoomyRun cores ops) :
    ((boot cores).runAll ops).Orderly ↔
      ((boot cores).runAll ops).Balanced ∧ ((boot cores).runAll ops).Tidy := by
  obtain ⟨lost, hs, -⟩ := exists_audited cores ops h hroom
  constructor
  · exact fun ho => ⟨ho.toBalanced, ho.tidy⟩
  · exact fun ⟨hb, htidy⟩ => ⟨hb, hs.backed, hs.backing, htidy⟩

/-- After every run that leaves the kernel in order, references taken and dropped by hand included: the
destruction of a process that is not reaped succeeds, and leaves the kernel in order. -/
theorem runAll_destroyProcess (cores : Nat) (ops : List Operation)
    (hs : ((boot cores).runAll ops).Orderly) (p : ProcessId) (process : Process)
    (hp : ((boot cores).runAll ops).process? p = some process) (hlive : process.reaped = false) :
    ∃ s', ((boot cores).runAll ops).destroyProcess p = (.ok (), s') ∧
      ((boot cores).runAll ops).Destroys s' p process := by
  have haccounted := hs.accounted ((registered_boot cores).runAll ops) (ownEvents_runAll cores ops)
  exact haccounted.destroys hs.tidy hp hlive

/-- A process that names itself, a reaped process, and is named by a third, with one thread. -/
theorem runAll_destroyProcess_host :
    let ops : List Operation := [.createProcess "loader" 1, .createProcess "host" 2,
      .createProcess "tool" 3, .createThread ⟨2⟩ ⟨0⟩, .openProcess ⟨1⟩ ⟨2⟩, .openProcess ⟨2⟩ ⟨2⟩,
      .openProcess ⟨2⟩ ⟨3⟩, .destroyProcess ⟨3⟩]
    let s := (boot 1).runAll ops
    s.Orderly ∧ ∃ process s', s.process? ⟨2⟩ = some process ∧ process.reaped = false ∧
      s.destroyProcess ⟨2⟩ = (.ok (), s') ∧ s.Destroys s' ⟨2⟩ process ∧
        s'.namings process.object = [(⟨1⟩, ⟨0x100⟩)] ∧ s'.process? ⟨3⟩ = none := by
  intro ops s
  have hops : ∀ op ∈ ops, op.isBare = false := by simp [ops, Operation.isBare]
  have hroom : RoomyRun 1 ops := roomyRun_of_length 1 (by decide)
  have horderly : s.Orderly := (runAll_orderly_iff 1 ops hops hroom).mpr ⟨by decide, by decide⟩
  have hrecord : (s.process? ⟨2⟩).map (fun process => (process.object, process.reaped)) =
      some (⟨2⟩, false) := by decide
  obtain ⟨process, hp, hown⟩ := Option.map_eq_some_iff.mp hrecord
  obtain ⟨hobject, hlive⟩ := Prod.mk.inj hown
  obtain ⟨s', hrun, hdestroys⟩ := runAll_destroyProcess 1 ops horderly ⟨2⟩ process hp hlive
  have hafter : s' = (s.destroyProcess ⟨2⟩).2 := by rw [hrun]
  refine ⟨horderly, process, s', hp, hlive, hrun, hdestroys, ?_, ?_⟩
  · rw [hafter, hobject]
    decide
  · rw [hafter]
    exact Option.isNone_iff_eq_none.mp (by decide)

end PluginSlot.Kernel.State
