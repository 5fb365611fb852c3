import PluginSlot.Proofs.Loader.Contents

/-!
Every operation of the loader leaves the contents of a loaded plugin sound, whatever fails on the
way.
-/
namespace PluginSlot
open Platform Loader Custody

namespace Custody

/-- The slot is empty, and reserved for a target. -/
def Vacant (target : Kernel.Handle) (v : Custody) : Prop := v.state = .empty ∧ v.target = target

/-- The slot is still empty, but the region of its target has an image and is mounted. -/
def Prepared (v : Custody) : Prop := ∃ image, v.Guards .empty image ∧ v.Mounted

end Custody

namespace Loader
variable {σ α : Type} {p : Platform σ} {P : Custody → Prop}
variable {state : SlotState} {image : List UInt8}

section teardown

theorem assures_any {x : Act Loader (Observed σ) α} : Assures p P x fun _ _ => True :=
  fun _ _ => trivial

/-- Whatever fails on the way, a teardown that is not stale leaves the slot empty. -/
theorem sound_teardown (target : Kernel.Handle) :
    Assures p Sound (teardown target) fun _ => Sound := by
  have hempty : Assures p (fun _ => True) (do transition .empty; record (.teardownDone target)) fun _ => Sound :=
    .bind ((assures_transition .empty).weaken fun _ _ => sound_of_empty rfl) fun _ =>
      (aloof_record _).assures
  refine .client fun l => ?_
  split
  · exact (peripheral_debug _).aloof.assures.weaken fun v hv => hv.1
  · dsimp only
    split
    · iterate 8 refine .bind assures_any fun _ => ?_
      exact hempty
    · iterate 6 refine .bind assures_any fun _ => ?_
      exact hempty

theorem sound_runTasks (tasks : List Task) : Assures p Sound (runTasks tasks) fun _ => Sound := by
  induction tasks with
  | nil => exact .pure fun _ hv => hv
  | cons task tasks ih =>
    cases task with
    | teardown target => exact .bind (sound_teardown target) fun _ => ih

theorem sound_runPendingTasks : Assures p Sound runPendingTasks fun _ => Sound := by
  refine .client fun l => ?_
  refine .bind (Aloof.assures (aloof_modify fun _ => ⟨rfl, rfl, rfl⟩)) fun _ => ?_
  exact .bind ((sound_runTasks _).weaken fun v hv => hv.1) fun _ => .pure fun _ hv => hv

theorem sound_shutdown : Assures p Sound shutdown fun _ => Sound := by
  refine .bind sound_runPendingTasks fun _ => .client fun l => ?_
  dsimp only
  split
  · refine .bind ((sound_teardown _).weaken fun v hv => hv.1) fun _ => ?_
    exact Aloof.assures marginal_closeHandles.aloof
  · exact Assures.weaken (Aloof.assures marginal_closeHandles.aloof) fun v hv => hv.1

end teardown

section load
variable {target : Kernel.Handle}

theorem assures_place (data : List UInt8) :
    Assures p (fun v => v.Vacant target ∧ v.latest = some (target, data)) (place target data)
      fun r v => v.state = .empty ∧ (r = .ok () → v.Prepared) := by
  let allocated : Except Region.Error Unit → Custody → Prop := fun r v =>
    v.state = .empty ∧ (r = .ok () → v.Guards .empty data)
  have hallocate : Assures p (fun v => v.Vacant target ∧ v.latest = some (target, data))
      (onBlock (·.allocate data)) allocated := by
    refine assures_onBlock fun b v ⟨hv, hlatest⟩ _ => ?_
    rw [Region.Block.allocate]
    split
    · refine ⟨hv.1, fun _ => ⟨hv.1, ?_, rfl, by simp⟩⟩
      rw [hlatest, hv.2]
    · exact ⟨hv.1, by simp⟩
  refine .bind hallocate fun answer => ?_
  cases answer with
  | error e => exact .pure fun v hv => ⟨hv.1, by simp⟩
  | ok _ =>
    refine .bind ((assures_mount target).weaken fun v hv => hv.2 rfl) fun answer => ?_
    cases answer with
    | error e => exact .pure fun v hv => ⟨hv.1.state, by simp⟩
    | ok _ => exact .pure fun v hv => ⟨hv.1.state, fun _ => ⟨data, hv.1, hv.2 rfl⟩⟩

theorem assures_injectFirst (config : List UInt32) (failure : Platform.Error)
    (paths : List String) :
    Assures p (Vacant target) (injectFirst target config failure paths)
      fun r v => v.state = .empty ∧ (r = .ok () → v.Prepared) := by
  induction paths generalizing failure with
  | nil => exact .pure fun v hv => ⟨hv.1, nofun⟩
  | cons path paths ih =>
    let injected : Except Platform.Error (List UInt8) → Custody → Prop := fun r v =>
      v.Vacant target ∧ ∀ data, r = .ok data → v.latest = some (target, data)
    have hinject : Assures p (Vacant target) (Act.call (.inject target path config)) injected := by
      refine assures_inject (fun v image hv => ⟨hv, fun data hdata => ?_⟩) fun v e hv => ⟨hv, nofun⟩
      cases hdata
      rfl
    refine .bind (Aloof.assures (aloof_modify fun _ => ⟨rfl, rfl, rfl⟩)) fun _ => ?_
    refine .bind hinject fun answer => ?_
    cases answer with
    | error e => exact (ih e).weaken fun v hv => hv.1
    | ok data => exact (assures_place data).weaken fun v hv => ⟨hv.1, hv.2 data rfl⟩

theorem assures_inject_target :
    Assures p (Vacant target) (inject target)
      fun r v => v.state = .empty ∧ ((∃ noFlash, r = .ok noFlash) → v.Prepared) := by
  refine .bind (Aloof.assures (aloof_call rfl)) fun answer => ?_
  cases answer with
  | error e => exact .pure fun v hv => ⟨hv.1, by simp⟩
  | ok titleId =>
    refine .client fun l => ?_
    have hparameters : Aloof p (Act.modifyClient (·.useParameters titleId)) := by
      refine aloof_modify fun l => ?_
      rw [useParameters]
      split <;> exact ⟨rfl, rfl, rfl⟩
    refine .bind ((Aloof.assures hparameters).weaken fun v hv => hv.1) fun _ => ?_
    refine .bind (assures_injectFirst _ _ _) fun answer => ?_
    cases answer with
    | error e => exact .pure fun v hv => ⟨hv.1, by simp⟩
    | ok _ => exact .pure fun v hv => ⟨hv.1, fun _ => hv.2 rfl⟩

theorem sound_finishLoad (noFlash : Bool) :
    Assures p Prepared (finishLoad target noFlash) fun _ => Sound := by
  have hrun : Assures p Prepared (transition .running) fun _ => Sound := by
    refine (assures_transition .running).weaken fun v ⟨image, hv, hm⟩ => ?_
    exact Guards.sound_of_running ⟨rfl, hv.latest, hv.holds⟩ hm
  have htell (line : String) (event : Event) :
      Aloof p (do Act.debug line; record event : Act Loader (Observed σ) Unit) :=
    .bind (peripheral_debug _).aloof fun _ => (aloof_record _)
  refine .client fun l => ?_
  dsimp only
  split
  · refine .bind ((Aloof.assures (aloof_call rfl)).weaken fun v hv => hv.1) fun _ => ?_
    exact .bind hrun fun _ => Aloof.assures (htell _ _)
  · exact .bind (hrun.weaken fun v hv => hv.1) fun _ => Aloof.assures (htell _ _)

/-- A load that is given up leaves the slot empty. -/
theorem sound_abandonLoad (e : Error) :
    Assures p (fun v => v.state = .empty) (abandonLoad target e) fun _ => Sound := by
  have hdiscard : Assures p (fun v => v.state = .empty) (onBlock (·.discard))
      fun _ v => v.state = .empty := assures_onBlock fun b v hv _ => hv
  refine .bind hdiscard fun _ => .client fun l => .bind (assures_modify fun m hm => ?_) fun _ =>
    (aloof_call rfl).then fun _ => (peripheral_debug _).aloof.then fun _ => (aloof_record _).assures
  exact sound_of_empty hm.1

theorem sound_load : Assures p Sound (load target) fun _ => Sound := by
  refine .bind sound_runPendingTasks fun _ => .client fun l => ?_
  split
  · refine Assures.weaken (Aloof.assures ?_) fun v hv => hv.1
    exact .bind (peripheral_debug _).aloof fun _ => .bind (aloof_call rfl) fun _ => .pure _
  · rename_i hempty
    split
    · refine Assures.weaken (Aloof.assures (.bind (aloof_call rfl) fun answer => ?_)) fun v hv => hv.1
      cases answer <;> exact .pure _
    · refine .bind (Aloof.assures (peripheral_setWord _ _).aloof) fun _ => ?_
      refine .bind (assures_modify fun m hm => ?_) fun _ =>
        .bind assures_inject_target fun answer => ?_
      · exact ⟨hm.2.state.trans (Classical.not_not.mp hempty), rfl⟩
      · cases answer with
        | error e => exact .bind ((sound_abandonLoad e).weaken fun v hv => hv.1) fun _ => .pure fun _ hv => hv
        | ok noFlash =>
          exact .bind ((sound_finishLoad noFlash).weaken fun v hv => hv.2 ⟨_, rfl⟩) fun _ =>
            .pure fun _ hv => hv

end load

section swap

/-- A swap-out that fails keeps the region in memory. -/
theorem sound_swapOut : Assures p (Guards state image) swapOut fun _ => Sound := by
  have hswapped : Assures p (Guards state image) (transition .swapped) fun _ => Sound := by
    refine (assures_transition .swapped).weaken fun v hv => ?_
    exact Guards.sound_of_swapped ⟨rfl, hv.latest, hv.holds⟩
  refine .client fun l => .bind ((Aloof.assures (aloof_call rfl)).weaken fun v hv => hv.1) ?_
  intro answer
  -- whether the threads could be held makes no difference
  cases answer
  all_goals
    refine (peripheral_debug _).aloof.then fun _ => .bind (assures_unmount l.target) fun r =>
      (peripheral_debugRegion _ r).aloof.then fun _ => .bind assures_writeOut fun written => ?_
    cases written with
    | ok _ =>
      refine .bind (assures_free.weaken fun v hv => ⟨hv.1, hv.2 rfl⟩) fun r => ?_
      exact (peripheral_debugRegion _ r).aloof.then fun _ => hswapped
    | error e =>
      refine (peripheral_debug _).aloof.then fun _ => .bind (hswapped.weaken fun v hv => hv.1) fun _ => ?_
      exact (aloof_record _).assures

theorem assures_restore (target : Kernel.Handle) :
    Assures p (Guards state image) (restore target) fun r v =>
      v.Guards state image ∧ (r = .ok () → v.Mounted) := by
  refine .client fun l => ?_
  dsimp only
  split
  · refine .bind (assures_readBack.weaken fun v hv => hv.1) fun r => ?_
    cases r with
    | error e => exact .pure fun v hv => ⟨hv, nofun⟩
    | ok _ => exact assures_mount target
  · exact (assures_mount target).weaken fun v hv => hv.1

theorem sound_swapIn : Assures p (Guards .swapped image) swapIn fun _ => Sound := by
  refine .client fun l => .bind ((assures_restore l.target).weaken fun v hv => hv.1) fun r => ?_
  cases r with
  | error e =>
    refine (peripheral_debug _).aloof.then fun _ => (aloof_record _).then fun _ => .pure fun v hv => ?_
    exact hv.1.sound_of_swapped
  | ok _ =>
    refine (aloof_call rfl).then fun answer => ?_
    cases answer
    all_goals
      refine (peripheral_debug _).aloof.then fun _ =>
        .bind ((assures_transition .running).weaken fun v hv => ?_) fun _ => .pure fun _ hv => hv
      exact Guards.sound_of_running ⟨rfl, hv.1.latest, hv.1.holds⟩ (hv.2 rfl)

theorem sound_onSwap (word : UInt32) : Assures p Sound (onSwap word) fun _ => Sound := by
  have hunexpected (line : String) :
      Aloof p (do Act.debug line; unexpected word : Act Loader (Observed σ) _) :=
    .bind (peripheral_debug _).aloof fun _ => (peripheral_unexpected word).aloof
  have hloaded (l : Loader) (hl : l.state ≠ .empty) (v : Custody) (hv : v.Sound ∧ v.Fits l) :
      ∃ image, v.Guards l.state image := by
    obtain ⟨image, hguards, -⟩ := hv.1 (by rwa [hv.2.state])
    exact ⟨image, hv.2.state ▸ hguards⟩
  refine .client fun l => ?_
  split
  · exact (Aloof.assures (hunexpected _)).weaken fun v hv => hv.1
  · split
    case h_1 => exact (Aloof.assures (peripheral_unexpected word).aloof).weaken fun v hv => hv.1
    case h_2 hs =>
      refine Assures.weaken (.exists fun image => ?_) (hloaded l (by simp [hs]))
      rw [hs]
      refine (peripheral_shakeHands _ _ _).aloof.then fun _ => .bind sound_swapOut fun _ => ?_
      exact .pure fun _ hv => hv
    case h_3 hs =>
      refine Assures.weaken (.exists fun image => ?_) (hloaded l (by simp [hs]))
      rw [hs]
      refine .bind sound_swapIn fun back => ?_
      dsimp only
      split
      · refine (peripheral_notify _ _).aloof.then fun r => (peripheral_debugPlatform _ r).aloof.then fun _ => ?_
        exact .pure fun _ hv => hv
      · exact .pure fun _ hv => hv

theorem sound_handleNotification : Assures p Sound handleNotification fun _ => Sound := by
  have hinternal : Internal (observer p) fun m => (custody m).Sound := internal_custody Sound
  exact ensures_handleNotification hinternal.toCore hinternal.status hinternal.toCore (fun _ hm => hm)
    (fun word => Aloof.assures (aloof_onExit word)) sound_onSwap sound_runPendingTasks

end swap
end Loader
end PluginSlot
