import PluginSlot.Proofs.Loader.Course
import PluginSlot.Proofs.Loader.Delivery

/-!
The slot after its host's exit. It is empty, whatever failed, and can be used again exactly if the
memory of the last plugin could be unmapped.
-/
namespace PluginSlot
open Platform Loader Occupancy

namespace Loader
variable {σ : Type} {p : Platform σ}

section vacant
variable {place : Region.Place}

/-- No notification means anything to an empty slot. -/
theorem leads_handleNotification_of_vacant :
    Leads p (Vacant place) handleNotification fun _ => Vacant place := by
  have hinternal : Internal (recorder p) fun m => (occupancy m).Vacant place :=
    internal_occupancy (Vacant place)
  exact ensures_handleNotification hinternal.toCore hinternal.status hinternal.toCore (fun _ hm => hm)
    (leads_onExit_of_empty fun v hv => hv.state) (leads_onSwap_of_empty fun v hv => hv.state)
    (leads_runPendingTasks_of_empty fun v hv => hv.tasks)

theorem leads_shutdown_of_vacant : Leads p (Vacant place) shutdown fun _ => Vacant place := by
  refine .bind (leads_runPendingTasks_of_empty fun v hv => hv.tasks) fun _ => Leads.client fun l => ?_
  refine .of_fact (fun v hv => hv.2.target.symm.trans hv.1.target) fun hl => ?_
  rw [hl]
  exact marginal_closeHandles.steady.assures.weaken fun v hv => hv.1

/-- Into a slot with memory left in it nothing is loaded, whatever happens. -/
theorem leads_operation_of_vacant (hplace : place = .nowhere ∨ place = .mounted)
    (op : Service.Operation) :
    Leads p (Vacant place) op.run fun _ v => place = .nowhere ∧ v.Occupied ∨ v.Vacant place := by
  have hvacant (v : Occupancy) (hv : v.Vacant place) :
      place = .nowhere ∧ v.Occupied ∨ v.Vacant place := .inr hv
  apply Service.leads_operation hvacant
  · intro v hv
    obtain ⟨-, hv⟩ | hv := hv
    · exact hv.tasks
    · exact hv.tasks
  · exact fun target => leads_load_of_vacant hplace
  · exact leads_handleNotification_of_vacant.imp fun _ => hvacant
  · exact leads_shutdown_of_vacant.imp fun _ => hvacant

end vacant

section exit

/-- Settings for a plugin do not outlive it. -/
structure Reset (l : Loader) : Prop where
  swap : l.block.swap = .unset l.block.defaultFilename
  exeLoad : l.exeLoad = .unset
  uiBlocked : l.uiBlocked = false

theorem internal_reset : Internal (recorder p) fun m => m.client.Reset := by
  apply Internal.of
  · exact fun _ _ _ hm => hm
  · exact fun _ _ hm => hm
  · exact fun _ _ hm => hm
  · exact fun _ _ hm => ⟨hm.swap, hm.exeLoad, hm.uiBlocked⟩

/-- Whatever fails on the way, the settings are reset. -/
theorem resets_teardown (target : Kernel.Handle) :
    (teardown target).Ensures (recorder p) (fun m => m.client.target = target)
      fun _ m => m.client.Reset := by
  -- what comes before the reset may do anything
  have hany {α : Type} {P : Machine Loader (σ × List Observation) → Prop}
      (x : Act Loader (σ × List Observation) α) :
      x.Ensures (recorder p) P fun _ _ => True := fun _ _ => trivial
  have hempty : (do Act.setWord .event Handshake.ok; transition .empty; record (.teardownDone target) :
      Act Loader (σ × List Observation) Unit).Ensures (recorder p) (fun m => m.client.Reset)
        fun _ m => m.client.Reset := by
    refine .bind (peripheral_setWord _ _ _ internal_reset.toCore) fun _ => ?_
    refine .bind (.bind (peripheral_client _ internal_reset.toCore) fun l => ?_) fun _ =>
      internal_reset.journal _
    refine .bind (Q := fun _ m => m.client.Reset) (fun m hm => ⟨hm.swap, hm.exeLoad, hm.uiBlocked⟩) ?_
    exact fun _ => .bind (internal_reset.status _) fun _ => internal_reset.journal _
  refine .bind (Q := fun l _ => l.target = target) (fun m hm => hm) fun l => ?_
  split
  case isTrue hne => exact fun m hm => absurd hm hne
  case isFalse =>
    dsimp only
    split
    case' isTrue => refine .bind (hany _) fun r => .bind (hany (debugRegion _ r)) fun _ => ?_
    all_goals
      refine .bind (hany _) fun r => .bind (hany (debugRegion _ r)) fun _ => ?_
      refine .bind (hany _) fun closed => .bind (hany (debugPlatform _ closed)) fun _ => ?_
      exact .bind (Q := fun _ m => m.client.Reset) (fun _ _ => ⟨rfl, rfl, rfl⟩) fun _ => hempty

theorem resets_runPendingTasks : runPendingTasks.Ensures (recorder p)
    (fun m => (occupancy m).Leaving) fun _ m => m.client.Reset := by
  intro m hm
  have htasks : m.client.tasks = ⟨[.teardown m.client.target]⟩ := hm.tasks
  show (runTasks m.client.tasks.entries (recorder p)
    { m with client := { m.client with tasks := .empty } }).2.client.Reset
  rw [htasks]
  exact resets_teardown m.client.target _ rfl

/-- When the host has exited, its plugin is gone, and so are its settings. -/
theorem exit_handleNotification : handleNotification.Ensures (recorder p)
    (fun m => (occupancy m).Loaded ∧ Wire.Status.eventOf m.status = Wire.Status.exitEvent)
    fun _ m => (occupancy m).Vacated ∧ m.client.Reset := by
  have hrun : runPendingTasks.Ensures (recorder p) (fun m => (occupancy m).Leaving)
      fun _ m => (occupancy m).Vacated ∧ m.client.Reset :=
    fun m hm => ⟨leads_runPendingTasks_of_leaving m hm, resets_runPendingTasks m hm⟩
  have hanswer (word : UInt32) : (do
        Act.setStatus (Wire.Status.stateOf word)
        let result ← onExit word
        Act.call (.publish lifecycleHandled)
        let _ ← runPendingTasks
        pure result : Act Loader (σ × List Observation) (Except Error Unit)).Ensures (recorder p)
      (fun m => (occupancy m).Loaded) fun _ m => (occupancy m).Vacated ∧ m.client.Reset := by
    refine .bind (steady_setStatus _).assures fun _ => .bind (leads_onExit word) fun result => ?_
    refine .bind (peripheral_call rfl).steady.assures fun _ => .bind hrun fun _ => ?_
    exact .pure fun m hm => hm
  intro m hm
  obtain ⟨hm, hexit⟩ := hm
  have hrest := hanswer m.status m hm
  rw [handleNotification, Act.bind_run]
  simp only [Act.status, hexit, Wire.Status.exitEvent]
  exact hrest

end exit
end Loader

namespace Service
variable {σ : Type} {p : Platform σ}

/-- An operation on an empty slot. -/
theorem vacant_attempt {m : Machine Loader (σ × List Observation)} {place : Region.Place}
    (hplace : place = .nowhere ∨ place = .mounted) (op : Operation)
    (hm : { occupancy m with unmapFailed := false }.Vacant place) :
    place = .nowhere ∧ (occupancy (attempt p op m).2).Occupied ∨
      (occupancy (attempt p op m).2).Vacant place :=
  leads_operation_of_vacant hplace op _ hm

/-- Memory that is left in an empty slot stays there. -/
theorem vacant_course_append {config : Config} {s : σ} {ops : List Operation}
    (hops : { occupancy (course p config s ops) with unmapFailed := false }.Vacant .mounted)
    (later : List Operation) :
    { occupancy (course p config s (ops ++ later)) with unmapFailed := false }.Vacant .mounted := by
  induction later using List.reverseRecOn with
  | nil => rwa [List.append_nil]
  | append_singleton later op ih =>
    rw [← List.append_assoc, course_concat]
    obtain ⟨hplace, -⟩ | hv := vacant_attempt (p := p) (.inr rfl) op ih
    · cases hplace
    · exact ⟨⟨hv.state, hv.exitPending, hv.tasks, rfl, hv.place⟩, hv.target⟩

/-- A load in which every call succeeds ends with a plugin that runs, and whose memory is mounted and
has the image just injected. -/
def Usable (p : Platform σ) (m : Machine Loader (σ × List Observation)) : Prop :=
  ∀ target, (∀ o ∈ (attempt p (.load target) m).2.platform.2, o.isFailure = false) →
    (attempt p (.load target) m).1 = .done ∧
      (attempt p (.load target) m).2.client.state = .running ∧
      (delivery (attempt p (.load target) m).2).Filled target

theorem usable_of_empty {m : Machine Loader (σ × List Observation)} (hm : (occupancy m).Kempt)
    (hin : (occupancy m).InPlace) (hs : m.client.state = .empty) (henabled : m.client.enabled = true) :
    Usable p m := by
  intro target hclean
  have hnowhere : m.client.block.placement.place = .nowhere := by
    have hstate : (occupancy m).state = .empty := hs
    rwa [InPlace, hstate] at hin
  have hfree := Region.Placement.place_eq_nowhere.mp hnowhere
  have hload : (load target).Ensures (recorder p) (fun m => (delivery m).Ready) _ := delivers_load
  obtain hspoiled | ⟨hok, hrunning, hfilled⟩ :=
    hload { m with platform := (m.platform.1, []) } ⟨hs, hfree, henabled, hm.tasks⟩
  · obtain ⟨o, ho, hfailed⟩ := List.any_eq_true.mp hspoiled
    have hok := hclean o ho
    rw [hfailed] at hok
    cases hok
  · exact ⟨congrArg Outcome.ofResult hok, hrunning, hfilled⟩

/-- When a host has exited, its slot is empty and the settings of its plugin are gone, whatever
failed. The memory is gone exactly if the platform did not refuse to unmap it. Then the slot can be
used again at any time; otherwise it never can. -/
theorem reusable_after_exit (p : Platform σ) (config : Config) (s : σ) (ops : List Operation)
    (hloaded : (course p config s ops).client.state ≠ .empty)
    (hexit : Wire.Status.eventOf (course p config s ops).status = Wire.Status.exitEvent) :
    let left := ops ++ [.handleNotification]
    (course p config s left).client.state = .empty ∧ (course p config s left).client.target = .null ∧
      (course p config s left).client.Reset ∧
      ((course p config s left).client.block.isFree = true ↔
        ∀ o ∈ (course p config s left).platform.2, o.isFailedUnmap = false) ∧
      ((course p config s left).client.block.isFree = true → ∀ between,
        (∀ done op, done ++ [op] <+: between →
          ∀ o ∈ (course p config s (left ++ (done ++ [op]))).platform.2, o.isFailedUnmap = false) →
        (course p config s (left ++ between)).client.state = .empty →
        (course p config s (left ++ between)).client.enabled = true →
        Usable p (course p config s (left ++ between))) ∧
      ((course p config s left).client.block.isFree = false → ∀ later,
        (course p config s (left ++ later)).client.state = .empty ∧
          (course p config s (left ++ later)).client.block.isMounted = true) := by
  intro left
  have hgone : (occupancy (course p config s left)).Vacated ∧ (course p config s left).client.Reset := by
    have hbefore := kempt_course p config s ops
    rw [course_concat]
    exact exit_handleNotification { course p config s ops with platform := (_, []) }
      ⟨⟨hloaded, hbefore.exitPending, hbefore.tasks, rfl⟩, hexit⟩
  have hfree : (course p config s left).client.block.isFree = true ↔
      (occupancy (course p config s left)).unmapFailed = false := by
    rw [Region.Block.isFree_iff]
    show (occupancy (course p config s left)).place = .nowhere ↔ _
    obtain ⟨hf, hplace⟩ | ⟨hf, hplace⟩ := hgone.1.place <;> rw [hf, hplace] <;> simp
  refine ⟨hgone.1.state, hgone.1.target, hgone.2, ?_, ?_, ?_⟩
  · rw [hfree]
    simp [occupancy]
  · intro hleft between hclean hempty henabled
    have hplace : (occupancy (course p config s left)).InPlace := by
      rw [InPlace, hgone.1.state]
      exact (Region.Block.isFree_iff _).mp hleft
    refine usable_of_empty (kempt_course p config s _) (inPlace_course_append hplace ?_) hempty henabled
    intro done op hdone
    have hrecord := hclean done op hdone
    simp only [occupancy, List.any_eq_false, Bool.not_eq_true]
    exact hrecord
  · intro hleft later
    have hmounted : (occupancy (course p config s left)).place = .mounted := by
      obtain ⟨-, hplace⟩ | ⟨hf, -⟩ := hgone.1.place
      · exact hplace
      · rw [hfree.mpr hf] at hleft
        cases hleft
    have hvacant := vacant_course_append
      ⟨⟨hgone.1.state, hgone.1.exitPending, hgone.1.tasks, rfl, hmounted⟩, hgone.1.target⟩ later
    exact ⟨hvacant.state, (Region.Block.isMounted_iff _).mpr hvacant.place⟩

/-- A plugin whose host is about to exit. -/
def departing : List Operation :=
  [.setEnabled true, .load ⟨0x102⟩, .post Wire.Status.exitEvent false]

/-- A second plugin is loaded after the exit. -/
theorem reusable_after_exit_departing :
    (course Stub.platform .default .initial departing).client.state ≠ .empty ∧
      Wire.Status.eventOf (course Stub.platform .default .initial departing).status =
        Wire.Status.exitEvent ∧
      (attempt Stub.platform (.load ⟨0x103⟩)
        (course Stub.platform .default .initial (departing ++ [.handleNotification]))).2.client.state =
          .running := by
  have hloaded : (course Stub.platform .default .initial departing).client.state ≠ .empty := by
    decide +kernel
  have hexit : Wire.Status.eventOf (course Stub.platform .default .initial departing).status =
      Wire.Status.exitEvent := by
    decide +kernel
  obtain ⟨-, -, -, -, husable, -⟩ :=
    reusable_after_exit Stub.platform .default .initial departing hloaded hexit
  have hagain := husable (by decide +kernel) [] (by simp) (by decide +kernel) (by decide +kernel)
  rw [List.append_nil] at hagain
  exact ⟨hloaded, hexit, (hagain ⟨0x103⟩ (by decide +kernel)).2.1⟩

/-- The host exits, but its memory is not unmapped. The slot counts as empty, and yet the next load
fails, although every call in it succeeds. -/
theorem not_reusable_of_refused_unmap :
    let left := course Stub.retentive .default .initial
      [.setEnabled true, .load ⟨0x102⟩, .post Wire.Status.exitEvent true]
    left.client.state = .empty ∧ left.client.block.isFree = false ∧
      (attempt Stub.retentive (.load ⟨0x103⟩) left).1 = .failed .loadFailed ∧
      ∀ o ∈ (attempt Stub.retentive (.load ⟨0x103⟩) left).2.platform.2, o.isFailure = false := by
  decide +kernel

end Service
end PluginSlot
