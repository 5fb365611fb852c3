import PluginSlot.Proofs.Loader.Ledger
import Mathlib.Data.List.Induction

/-!
The loader makes its calls in order, whatever fails. Between two operations the memory of a plugin is
either mapped into its host, or away with the threads of the host held; each operation is followed from
one such point to the next.
-/
namespace PluginSlot
open Platform Loader Kernel

namespace Loader
namespace Conduct

/-- The region is mounted, and mapped into this process according to the ledger. -/
def MountedIn (v : Conduct) (target : Handle) : Prop :=
  ∃ data saved, v.placement = .resident data true saved ∧
    v.ledger.mapped = some (target, data.length)

/-- The region is in memory, but not mounted. -/
def InMemory (v : Conduct) : Prop := ∃ data saved, v.placement = .resident data false saved

/-- The region is in memory, or in a file that the ledger knows of. -/
inductive Stowed (v : Conduct) : Prop where
  | inMemory (h : v.InMemory)
  | inFile (length : Nat) (saved : Region.SwapSettings) (h : v.placement = .swappedOut length saved)
      (hw : v.ledger.written = some (saved.filename, length))

/-- The region is away from the host, whose threads are held. -/
structure Held (v : Conduct) : Prop where
  stowed : v.Stowed
  unmapped : v.ledger.mapped = none
  schedule : v.ledger.schedule = some (v.target, .lock)

/-- There is no region, or one that could not be unmapped. -/
inductive Vacant (v : Conduct) : Prop where
  | free (h : v.placement = .free) (hm : v.ledger.mapped = none)
  | leftover (target : Handle) (h : v.MountedIn target) (hr : v.ledger.refused = true)

/-- The slot is in this state, with nothing put off. -/
structure Calm (state : SlotState) (v : Conduct) : Prop where
  state : v.state = state
  exitPending : v.exitPending = false
  tasks : v.tasks = .empty

/-- Between two operations. -/
inductive AtRest (v : Conduct) : Prop where
  | vacant (h : v.Calm .empty) (htarget : v.target = .null) (hv : v.Vacant)
  | running (h : v.Calm .running) (hm : v.MountedIn v.target)
  | swapped (h : v.Calm .swapped) (hv : v.MountedIn v.target ∨ v.Held)

/-- A plugin is to be torn down. -/
structure Departing (v : Conduct) : Prop where
  state : v.state ≠ .empty
  tasks : v.tasks = .empty
  leaving : v.exitPending = true ∨ v.ledger.shuttingDown = true
  region : v.MountedIn v.target ∨ v.Held

variable {v : Conduct}

theorem MountedIn.isMounted {target : Handle} {b : Region.Block} (h : v.MountedIn target)
    (hb : v.placement = b.placement) : b.isMounted = true := by
  obtain ⟨data, saved, hplacement, -⟩ := h
  rw [Region.Block.isMounted, ← hb, hplacement]

theorem Stowed.isMounted {b : Region.Block} (h : v.Stowed) (hb : v.placement = b.placement) :
    b.isMounted = false := by
  rw [Region.Block.isMounted, ← hb]
  cases h with
  | inMemory h =>
    obtain ⟨data, saved, h⟩ := h
    rw [h]
  | inFile length saved h => rw [h]

/-- Only the placement and what is written out count. -/
theorem Stowed.of_placement {w : Conduct} (h : v.Stowed) (hplacement : w.placement = v.placement)
    (hwritten : w.ledger.written = v.ledger.written) : w.Stowed := by
  cases h with
  | inMemory h =>
    obtain ⟨data, saved, h⟩ := h
    exact .inMemory ⟨data, saved, hplacement.trans h⟩
  | inFile length saved h hw => exact .inFile length saved (hplacement.trans h) (hwritten.trans hw)

theorem Vacant.of_region {w : Conduct} (h : v.Vacant) (hplacement : w.placement = v.placement)
    (hmapped : w.ledger.mapped = v.ledger.mapped) (hrefused : w.ledger.refused = v.ledger.refused) :
    w.Vacant := by
  cases h with
  | free h hm => exact .free (hplacement.trans h) (hmapped.trans hm)
  | leftover target h hr =>
    obtain ⟨data, saved, hmounted, hm⟩ := h
    exact .leftover target ⟨data, saved, hplacement.trans hmounted, hmapped.trans hm⟩ (hrefused.trans hr)

theorem AtRest.tasks (h : v.AtRest) : v.tasks = .empty := by
  cases h with
  | vacant h | running h | swapped h => exact h.tasks

theorem AtRest.region (h : v.AtRest) (hs : v.state ≠ .empty) : v.MountedIn v.target ∨ v.Held := by
  cases h with
  | vacant h => exact absurd h.state hs
  | running _ hm => exact .inl hm
  | swapped _ hv => exact hv

/-- A plugin that is loaded but not mapped is held between operations. -/
theorem AtRest.restrained (h : v.AtRest) : v.ledger.Restrained v.state v.target := by
  intro hs hunmapped
  obtain ⟨data, saved, -, hmapped⟩ | hheld := h.region hs
  · cases hunmapped.symm.trans hmapped
  · exact hheld.schedule

/-- At rest it does not matter what the current operation is. -/
theorem AtRest.begin (h : v.AtRest) (shuttingDown tearing : Bool) :
    { v with ledger := { v.ledger with shuttingDown := shuttingDown, tearing := tearing } }.AtRest := by
  cases h with
  | vacant hc htarget hv =>
    exact .vacant ⟨hc.state, hc.exitPending, hc.tasks⟩ htarget (hv.of_region rfl rfl rfl)
  | running hc hm => exact .running ⟨hc.state, hc.exitPending, hc.tasks⟩ hm
  | swapped hc hv =>
    refine .swapped ⟨hc.state, hc.exitPending, hc.tasks⟩ (hv.imp id fun h => ?_)
    exact ⟨h.stowed.of_placement rfl rfl, h.unmapped, h.schedule⟩

section edit
variable {data data' : List UInt8} {mounted : Bool} {saved : Option Region.SwapSettings}
  (hv : v.placement = .resident data mounted saved) (hlength : data'.length = data.length)
include hv hlength

theorem MountedIn.edit {target : Handle} (h : v.MountedIn target) :
    { v with placement := .resident data' mounted none }.MountedIn target := by
  obtain ⟨_, _, hplacement, hmapped⟩ := h
  cases hv.symm.trans hplacement
  exact ⟨data', none, rfl, hlength ▸ hmapped⟩

/-- An edit of the contents changes nothing about where they are. -/
theorem AtRest.edit (h : v.AtRest) : { v with placement := .resident data' mounted none }.AtRest := by
  cases h with
  | vacant hc htarget hregion =>
    refine .vacant ⟨hc.state, hc.exitPending, hc.tasks⟩ htarget ?_
    cases hregion with
    | free h => cases hv.symm.trans h
    | leftover target h hr => exact .leftover target (h.edit hv hlength) hr
  | running hc h => exact .running ⟨hc.state, hc.exitPending, hc.tasks⟩ (h.edit hv hlength)
  | swapped hc hregion =>
    refine .swapped ⟨hc.state, hc.exitPending, hc.tasks⟩ ?_
    obtain h | h := hregion
    · exact .inl (h.edit hv hlength)
    · refine .inr ⟨?_, h.unmapped, h.schedule⟩
      cases h.stowed with
      | inMemory h =>
        obtain ⟨_, _, h⟩ := h
        cases hv.symm.trans h
        exact .inMemory ⟨data', none, rfl⟩
      | inFile _ _ h => cases hv.symm.trans h

end edit

/-- What is written out counts only for a plugin that is loaded. -/
theorem AtRest.writeStatus (h : v.AtRest) (value : UInt32) :
    (v.enter (.writeStatus value) ()).AtRest := by
  by_cases hs : v.state = .empty
  · have hforget : v.enter (.writeStatus value) () = { v with ledger := { v.ledger with written := none } } := by
      simp [Conduct.enter, Ledger.enter, hs]
    rw [hforget]
    cases h with
    | vacant hc htarget hv =>
      exact .vacant ⟨hc.state, hc.exitPending, hc.tasks⟩ htarget (hv.of_region rfl rfl rfl)
    | running hc | swapped hc => cases hs.symm.trans hc.state
  · have hsame : v.enter (.writeStatus value) () = v := by simp [Conduct.enter, Ledger.enter, hs]
    rwa [hsame]

end Conduct

open Conduct
variable {σ α : Type} {p : Platform σ}

theorem heeds_transition {P : Conduct → Prop} {state : SlotState}
    (hP : ∀ v, P v → { v with state := state }.AtRest) :
    Heeds p P (transition state) fun _ => AtRest := by
  refine peripheral_client.first fun l => ?_
  refine .bind (heeds_modify (R := AtRest) fun m _ hm => ?_) fun _ => ?_
  · exact ⟨fun _ => (hP _ hm).restrained, hP _ hm⟩
  · exact .bind (heeds_setStatus fun v hv => hv.writeStatus _) fun _ => heeds_record _

section teardown

/-- A teardown that is not stale leaves the slot vacant. -/
theorem heeds_teardown (target : Handle) :
    Heeds p (fun v => v.target = target ∧ v.Departing) (teardown target) fun _ => AtRest := by
  let unmounted (v : Conduct) : Prop := v.tasks = .empty ∧
    (v.Stowed ∧ v.ledger.mapped = none ∨ v.ledger.refused = true ∧ v.MountedIn target)
  let forgotten (v : Conduct) : Prop := v.tasks = .empty ∧ v.Vacant
  have hunmount : Heeds p (fun v => v.Departing ∧ v.MountedIn target) (onBlockAct (·.unmount target))
      fun _ => unmounted := by
    refine heeds_unmount (fun v hv => hv.2) (fun v hv => ?_) ?_ ?_
    · exact hv.1.leaving.imp id .inl
    · exact fun v data saved hv _ => ⟨hv.1.tasks, .inl ⟨.inMemory ⟨data, saved, rfl⟩, rfl⟩⟩
    · exact fun v length e hv => ⟨hv.1.tasks, .inr ⟨rfl, hv.2⟩⟩
  have hdiscard : Heeds p unmounted (onBlock (·.discard)) fun _ => forgotten := by
    refine heeds_onBlock fun b v hv hplace => ?_
    rw [Region.Block.discard]
    obtain ⟨hstowed, hmapped⟩ | ⟨hrefused, hmounted⟩ := hv.2
    · rw [hstowed.isMounted hplace]
      exact ⟨hv.1, .free rfl hmapped⟩
    · obtain ⟨data, saved, hplacement, hmapped⟩ := id hmounted
      rw [hmounted.isMounted hplace]
      exact ⟨hv.1, .leftover target ⟨data, saved, hplace.symm.trans hplacement, hmapped⟩ hrefused⟩
  have hvacate : Heeds p forgotten (do
      Act.modifyClient fun l =>
        { l with
          target := .null
          exitPending := false
          exeLoad := .unset
          block := l.block.resetSwap
          uiBlocked := false }
      Act.setWord .event Handshake.ok
      transition .empty
      record (.teardownDone target)) fun _ => AtRest := by
    have hpublish (event : Event) : Heeds p AtRest (do
        Act.setStatus SlotState.empty.statusBits
        record event
        record (.teardownDone target)) fun _ => AtRest :=
      .bind (heeds_setStatus fun v hv => hv.writeStatus _) fun _ =>
        .bind (heeds_record _) fun _ => heeds_record _
    -- no call is made before the state has changed
    intro m hm
    refine hpublish (.transition m.client.state .empty)
      { m with
        client :=
          { m.client with
            target := .null
            exitPending := false
            exeLoad := .unset
            block := m.client.block.resetSwap
            uiBlocked := false
            state := .empty }
        words := m.words.set .event Handshake.ok } ⟨⟨hm.1.orderly, ?_⟩, ?_⟩
    · exact fun _ hs => absurd rfl hs
    · exact .vacant ⟨rfl, rfl, hm.2.1⟩ rfl (hm.2.2.of_region rfl rfl rfl)
  refine Heeds.client fun l => ?_
  split
  case isTrue hne => exact .of_fact (fun v hv => hv.2.target.symm.trans hv.1.1) fun h => absurd h hne
  case isFalse =>
    dsimp only
    split
    case' isTrue hl =>
      refine .bind (hunmount.weaken fun v hv => ⟨hv.1.2, ?_⟩) fun r => ?_
      · obtain hmounted | hheld := hv.1.2.region
        · rwa [hv.1.1] at hmounted
        · cases hl.symm.trans (hheld.stowed.isMounted hv.2.placement)
      refine (peripheral_debugRegion _ r).first fun _ => .bind hdiscard fun r => ?_
    case' isFalse hl =>
      refine .bind (hdiscard.weaken fun v hv => ⟨hv.1.2.tasks, ?_⟩) fun r => ?_
      · obtain hmounted | hheld := hv.1.2.region
        · exact absurd (hmounted.isMounted hv.2.placement) hl
        · exact .inl ⟨hheld.stowed, hheld.unmapped⟩
    all_goals
      refine (peripheral_debugRegion _ r).first fun _ => ?_
      refine (peripheral_call rfl).first fun closed => ?_
      exact (peripheral_debugPlatform _ closed).first fun _ => hvacate

/-- With nothing put off, nothing happens. -/
theorem heeds_runPendingTasks_of_empty {P : Conduct → Prop} (hP : ∀ v, P v → v.tasks = .empty) :
    Heeds p P runPendingTasks fun _ => P := by
  refine Heeds.client fun l => .of_fact (fun v hv => hv.2.tasks.symm.trans (hP v hv.1)) fun hl => ?_
  rw [hl]
  have hdrain : Heeds p P (Act.modifyClient ({ · with tasks := .empty })) fun _ => P := by
    refine heeds_modify fun m hcareful hm => ⟨hcareful, ?_⟩
    have hsame : { conduct m with tasks := .empty } = conduct m := by rw [← hP _ hm]
    show P { conduct m with tasks := .empty }
    rwa [hsame]
  refine .bind (hdrain.weaken fun v hv => hv.1) fun _ => ?_
  exact .bind (.pure fun _ hv => hv) fun _ => .pure fun _ hv => hv

theorem heeds_runPendingTasks : Heeds p AtRest runPendingTasks fun _ => AtRest :=
  heeds_runPendingTasks_of_empty fun _ hv => hv.tasks

/-- The host exits, and the teardown of its plugin is all that is put off. -/
structure Conduct.Leaving (v : Conduct) : Prop where
  state : v.state ≠ .empty
  tasks : v.tasks = ⟨[.teardown v.target]⟩
  exitPending : v.exitPending = true
  region : v.MountedIn v.target ∨ v.Held

theorem heeds_runPendingTasks_of_leaving : Heeds p Leaving runPendingTasks fun _ => AtRest := by
  refine Heeds.client fun l => .of_fact (fun v hv => ?_) fun hl : l.tasks = ⟨[.teardown l.target]⟩ => ?_
  · rw [← hv.2.tasks, hv.1.tasks, hv.2.target]
  · have hdrain : Heeds p (fun v => v.Leaving ∧ v.Fits l) (Act.modifyClient ({ · with tasks := .empty }))
        fun _ v => v.target = l.target ∧ v.Departing := by
      refine heeds_modify fun m hcareful hm => ⟨hcareful, hm.2.target, ?_⟩
      refine ⟨hm.1.state, rfl, .inl hm.1.exitPending, hm.1.region.imp id fun h => ?_⟩
      exact ⟨h.stowed.of_placement rfl rfl, h.unmapped, h.schedule⟩
    rw [hl]
    refine .bind hdrain fun _ => .bind (Q := fun _ => AtRest) ?_ fun _ => .pure fun _ hv => hv
    exact .bind (heeds_teardown l.target) fun _ => .pure fun _ hv => hv

theorem heeds_shutdown :
    Heeds p (fun v => v.AtRest ∧ v.ledger.shuttingDown = true) shutdown fun _ => AtRest := by
  have hclose : Heeds p AtRest _ fun _ => AtRest := marginal_closeHandles.heeds
  refine .bind (heeds_runPendingTasks_of_empty fun v hv => hv.1.tasks) fun _ => Heeds.client fun l => ?_
  dsimp only
  split
  case isTrue hl =>
    refine .bind ((heeds_teardown l.target).weaken fun v hv => ⟨hv.2.target, ?_⟩) fun _ => hclose
    have hstate : v.state ≠ .empty := by
      intro hs
      cases hv.1.1 with
      | vacant _ htarget =>
        rw [← hv.2.target, v.target.isNull_iff.mpr htarget] at hl
        cases hl
      | running h | swapped h => cases hs.symm.trans h.state
    exact ⟨hstate, hv.1.1.tasks, .inr hv.1.2, hv.1.1.region hstate⟩
  case isFalse => exact hclose.weaken fun v hv => hv.1.1

end teardown

section load
variable {target : Handle}

/-- The slot is vacant, and a target is chosen. -/
structure Conduct.Aimed (target : Handle) (v : Conduct) : Prop extends v.Calm .empty where
  region : v.Vacant
  target : v.target = target

/-- The region of the target is in memory, but not mapped. -/
structure Conduct.Filled (target : Handle) (v : Conduct) : Prop extends v.Calm .empty where
  place : v.InMemory
  unmapped : v.ledger.mapped = none
  target : v.target = target

/-- The region of the target is mapped. -/
structure Conduct.Ready (target : Handle) (v : Conduct) : Prop extends v.Calm .empty where
  mounted : v.MountedIn target
  target : v.target = target

/-- How an injection ends. -/
def Injected {ε : Type} (target : Handle) : Except ε α → Conduct → Prop
  | .ok _ => Ready target
  | .error _ => fun v => v.Aimed target ∨ v.Filled target

/-- How an allocation ends. -/
def Allocated {ε : Type} (target : Handle) : Except ε α → Conduct → Prop
  | .ok _ => Filled target
  | .error _ => Aimed target

theorem heeds_place (data : List UInt8) :
    Heeds p (Aimed target) (place target data) (Injected target) := by
  have hallocate : Heeds p (Aimed target) (onBlock (·.allocate data)) (Allocated target) := by
    refine heeds_onBlock fun b v hv hplace => ?_
    rw [Region.Block.allocate]
    split
    case h_1 hb =>
      refine ⟨⟨hv.state, hv.exitPending, hv.tasks⟩, ⟨data, none, rfl⟩, ?_, hv.target⟩
      cases hv.region with
      | free _ hm => exact hm
      | leftover _ h => obtain ⟨_, _, hplacement, _⟩ := h; cases hplacement.symm.trans (hplace.trans hb)
    case h_2 =>
      rw [← hplace]
      exact hv
  have hmount : Heeds p (Filled target) (onBlockAct (·.mount target)) (Injected target) := by
    refine heeds_mount (fun v _ _ hv _ => hv.unmapped) ?_ fun v e hv => .inr hv
    exact fun v data saved hv _ => ⟨⟨hv.state, hv.exitPending, hv.tasks⟩, ⟨data, saved, rfl, rfl⟩, hv.target⟩
  refine .bind hallocate fun answer => ?_
  cases answer with
  | error e => exact .pure fun v hv => .inl hv
  | ok _ =>
    refine .bind hmount fun answer => ?_
    cases answer <;> exact .pure fun v hv => hv

theorem heeds_inject : Heeds p (Aimed target) (inject target)
    fun r => Injected target (r.map fun _ => ()) :=
  ensures_inject (central_conduct (Aimed target)) (fun _ _ => heeds_unlisted rfl) heeds_place
    fun _ _ hm => hm.imp id .inl

theorem heeds_finishLoad (noFlash : Bool) :
    Heeds p (Ready target) (finishLoad target noFlash) fun _ => AtRest := by
  have hrun : Heeds p (Ready target) (transition .running) fun _ => AtRest := by
    refine heeds_transition fun v hv => .running ⟨rfl, hv.exitPending, hv.tasks⟩ ?_
    obtain ⟨data, saved, hplacement, hmapped⟩ := hv.mounted
    exact ⟨data, saved, hplacement, hv.target ▸ hmapped⟩
  exact ensures_finishLoad (central_conduct _).toCore (central_conduct _).toCore hrun noFlash

/-- A load that is given up leaves the slot as vacant as it was. -/
theorem heeds_abandonLoad (e : Error) :
    Heeds p (fun v => v.Aimed target ∨ v.Filled target) (abandonLoad target e) fun _ => AtRest := by
  have hdiscard : Heeds p (fun v => v.Aimed target ∨ v.Filled target) (onBlock (·.discard))
      fun _ v => v.Calm .empty ∧ v.Vacant := by
    refine heeds_onBlock fun b v hv hplace => ?_
    rw [Region.Block.discard]
    obtain hv | hv := hv
    · refine ⟨⟨hv.state, hv.exitPending, hv.tasks⟩, ?_⟩
      cases hv.region with
      | free h hm =>
        have hb : b.isMounted = false := by rw [Region.Block.isMounted, ← hplace, h]
        rw [hb]
        exact .free rfl hm
      | leftover host h hr =>
        rw [h.isMounted hplace]
        exact hv.region.of_region hplace.symm rfl rfl
    · rw [(Stowed.inMemory hv.place).isMounted hplace]
      exact ⟨⟨hv.state, hv.exitPending, hv.tasks⟩, .free rfl hv.unmapped⟩
  refine .bind hdiscard fun _ => peripheral_client.first fun l => .bind (heeds_modify fun m _ hm => ?_)
    fun _ => (peripheral_call rfl).first fun _ => (peripheral_debug _).first fun _ => heeds_record _
  refine ⟨fun _ hs => absurd hm.1.state hs, .vacant ?_ rfl (hm.2.of_region rfl rfl rfl)⟩
  exact ⟨hm.1.state, hm.1.exitPending, hm.1.tasks⟩

theorem heeds_load : Heeds p AtRest (load target) fun _ => AtRest := by
  refine .bind heeds_runPendingTasks fun _ => Heeds.client fun l => ?_
  have hrefuse {γ : Type} {x : Act Loader (σ × List Sighting) γ} (hx : Peripheral (watch p) x) :
      Heeds p (fun v => v.AtRest ∧ v.Fits l) x fun _ => AtRest := hx.heeds.weaken fun v hv => hv.1
  split
  case isTrue =>
    exact hrefuse (.bind (peripheral_debug _) fun _ => .bind (peripheral_call rfl) fun _ => .pure _)
  case isFalse hstate =>
    split
    · exact hrefuse (.bind (peripheral_call rfl) fun closed => by cases closed <;> exact .pure _)
    · have haim : Heeds p (fun v => v.AtRest ∧ v.Fits l) (Act.modifyClient ({ · with target := target }))
          fun _ => Aimed target := by
        refine heeds_modify fun m _ hm => ?_
        have hs : m.client.state = .empty := hm.2.state.trans (Decidable.of_not_not hstate)
        cases hm.1 with
        | vacant h _ hv =>
          refine ⟨fun _ hloaded => absurd hs hloaded, ⟨h.state, h.exitPending, h.tasks⟩, ?_, rfl⟩
          exact hv.of_region rfl rfl rfl
        | running h | swapped h => cases hs.symm.trans h.state
      refine (peripheral_setWord _ _).first fun _ => .bind haim fun _ => .bind heeds_inject fun answer => ?_
      cases answer with
      | ok noFlash => exact .bind (heeds_finishLoad noFlash) fun _ => .pure fun v hv => hv
      | error e => exact .bind (heeds_abandonLoad e) fun _ => .pure fun v hv => hv

end load

section swap

/-- A plugin is being swapped out: its threads are held, and its memory is mapped or not. -/
structure Conduct.Pausing (v : Conduct) : Prop extends v.Calm .running where
  schedule : v.ledger.schedule = some (v.target, .lock)
  region : v.MountedIn v.target ∨ v.InMemory ∧ v.ledger.mapped = none

/-- The region of a paused plugin was just written to a file, and is still in memory. -/
structure Conduct.Written (v : Conduct) : Prop extends v.Calm .running where
  schedule : v.ledger.schedule = some (v.target, .lock)
  unmapped : v.ledger.mapped = none
  image : ∃ data saved, v.placement = .resident data false (some saved) ∧
    v.ledger.written = some (saved.filename, data.length)

/-- How writing the region out ends. -/
def WrittenOut {ε : Type} : Except ε α → Conduct → Prop
  | .ok _ => Written
  | .error _ => Pausing

theorem heeds_holdThreads {P : Conduct → Prop} (target : Handle)
    (hP : ∀ v, P v → v.Calm .running ∧ v.target = target ∧ v.MountedIn target) :
    Heeds p P (Act.call (.schedule target .lock)) fun _ v =>
      v.Calm .running ∧ v.target = target ∧ v.MountedIn target ∧
        v.ledger.schedule = some (target, .lock) := by
  refine heeds_call (fun _ _ _ => trivial) fun v a _ hv => ?_
  obtain ⟨⟨hstate, hexit, htasks⟩, htarget, hmounted⟩ := hP v hv
  refine ⟨fun _ _ _ => ?_, ⟨hstate, hexit, htasks⟩, htarget, hmounted, rfl⟩
  show some (target, ScheduleMode.lock) = some (v.target, .lock)
  rw [htarget]

theorem heeds_swapOut : Heeds p (fun v => v.Calm .running ∧ v.MountedIn v.target) swapOut
    fun _ => AtRest := by
  have hunmount (target : Handle) : Heeds p
      (fun v => v.Calm .running ∧ v.target = target ∧ v.MountedIn target ∧
        v.ledger.schedule = some (target, .lock)) (onBlockAct (·.unmount target)) fun _ => Pausing := by
    refine heeds_unmount (fun v hv => hv.2.2.1) (fun v hv => .inr (.inr ?_)) ?_ ?_
    · rw [hv.2.1]
      exact hv.2.2.2
    · rintro v data saved ⟨⟨hstate, hexit, htasks⟩, rfl, -, hschedule⟩ -
      exact ⟨⟨hstate, hexit, htasks⟩, hschedule, .inr ⟨⟨data, saved, rfl⟩, rfl⟩⟩
    · rintro v length e ⟨⟨hstate, hexit, htasks⟩, rfl, hmounted, hschedule⟩
      exact ⟨⟨hstate, hexit, htasks⟩, hschedule, .inl hmounted⟩
  have hunmapped (v : Conduct) (data : List UInt8) (saved : Option Region.SwapSettings)
      (hv : v.Pausing) (hplacement : v.placement = .resident data false saved) :
      v.ledger.mapped = none := by
    obtain ⟨_, _, hmounted, -⟩ | ⟨-, hunmapped⟩ := hv.region
    · cases hplacement.symm.trans hmounted
    · exact hunmapped
  have hwrite : Heeds p Pausing (onBlockAct (·.writeOut)) WrittenOut := by
    refine heeds_writeOut hunmapped ?_ (fun v e hv => hv) fun v e hv => ?_
    · exact fun v data saved settings hv hplacement => ⟨⟨hv.state, hv.exitPending, hv.tasks⟩,
        hv.schedule, hunmapped v data saved hv hplacement, data, settings, rfl, rfl⟩
    · exact ⟨⟨hv.state, hv.exitPending, hv.tasks⟩, hv.schedule, hv.region⟩
  have hfree : Heeds p Written (onBlock (·.free)) fun _ v => { v with state := .swapped }.AtRest := by
    refine heeds_onBlock fun b v hv hplace => ?_
    obtain ⟨data, saved, hplacement, hwritten⟩ := hv.image
    rw [Region.Block.free, ← hplace, hplacement]
    refine .swapped ⟨rfl, hv.exitPending, hv.tasks⟩ (.inr ⟨?_, hv.unmapped, hv.schedule⟩)
    exact .inFile data.length saved rfl hwritten
  have hswapped : Heeds p Pausing (transition .swapped) fun _ => AtRest := by
    refine heeds_transition fun v hv => .swapped ⟨rfl, hv.exitPending, hv.tasks⟩ ?_
    exact hv.region.imp id fun h => ⟨.inMemory h.1, h.2, hv.schedule⟩
  refine Heeds.client fun l => .bind (heeds_holdThreads l.target fun v hv => ?_) fun answer => ?_
  · exact ⟨hv.1.1, hv.2.target, hv.2.target ▸ hv.1.2⟩
  -- whether the threads could be held makes no difference to the order
  cases answer
  all_goals
    refine (peripheral_debug _).first fun _ => .bind (hunmount l.target) fun r => ?_
    refine (peripheral_debugRegion _ r).first fun _ => .bind hwrite fun written => ?_
    cases written with
    | ok _ =>
      refine .bind hfree fun r => (peripheral_debugRegion _ r).first fun _ => ?_
      exact heeds_transition fun v hv => hv
    | error e =>
      exact (peripheral_debug _).first fun _ => .bind hswapped fun _ => heeds_record _

/-- A plugin is swapped out. -/
structure Conduct.Paused (v : Conduct) : Prop extends v.Calm .swapped where
  region : v.MountedIn v.target ∨ v.Held

theorem Conduct.Paused.atRest {v : Conduct} (h : v.Paused) : v.AtRest := .swapped h.toCalm h.region

/-- A region that is away can be put back; what is not put back stays as it was, or in memory. -/
theorem heeds_restore {target : Handle} :
    Heeds p (fun v => v.Paused ∧ v.target = target) (restore target) fun r v =>
      v.Paused ∧ v.target = target ∧ (r = .ok () → v.MountedIn target) := by
  let paused (v : Conduct) : Prop := v.Paused ∧ v.target = target
  have hfile (v : Conduct) (length : Nat) (saved : Region.SwapSettings) (hv : paused v)
      (hplacement : v.placement = .swappedOut length saved) :
      v.Held ∧ v.ledger.written = some (saved.filename, length) := by
    obtain ⟨_, _, hmounted, -⟩ | hheld := hv.1.region
    · cases hplacement.symm.trans hmounted
    · refine ⟨hheld, ?_⟩
      cases hheld.stowed with
      | inMemory h =>
        obtain ⟨_, _, h⟩ := h
        cases hplacement.symm.trans h
      | inFile _ _ h hw =>
        cases hplacement.symm.trans h
        exact hw
  have hread : Heeds p paused (onBlockAct (·.readBack)) fun _ => paused := by
    refine heeds_readBack (fun v length saved hv hplacement => ?_) ?_ fun v e hv => hv
    · obtain ⟨hheld, hwritten⟩ := hfile v length saved hv hplacement
      exact ⟨hheld.unmapped, hwritten⟩
    · intro v data saved hv hplacement
      obtain ⟨hheld, -⟩ := hfile v data.length saved hv hplacement
      refine ⟨⟨⟨hv.1.state, hv.1.exitPending, hv.1.tasks⟩, .inr ?_⟩, hv.2⟩
      exact ⟨.inMemory ⟨data, some saved, rfl⟩, hheld.unmapped, hheld.schedule⟩
  have hmount : Heeds p paused (onBlockAct (·.mount target)) fun r v =>
      v.Paused ∧ v.target = target ∧ (r = .ok () → v.MountedIn target) := by
    refine heeds_mount (fun v data saved hv hplacement => ?_) ?_ fun v e hv => ⟨hv.1, hv.2, nofun⟩
    · obtain ⟨_, _, hmounted, -⟩ | hheld := hv.1.region
      · cases hplacement.symm.trans hmounted
      · exact hheld.unmapped
    · rintro v data saved ⟨hv, rfl⟩ -
      have hmounted : Conduct.MountedIn { v.enter (.map v.target data.length) (.ok ()) with
          placement := .resident data true saved } v.target := ⟨data, saved, rfl, rfl⟩
      exact ⟨⟨⟨hv.state, hv.exitPending, hv.tasks⟩, .inl hmounted⟩, rfl, fun _ => hmounted⟩
  refine peripheral_client.first fun l => ?_
  dsimp only
  split
  case' isTrue => refine .bind hread fun restored => ?_
  case' isFalse => refine .bind (Q := fun _ => paused) (.pure fun v hv => hv) fun restored => ?_
  all_goals
    cases restored with
    | error e => exact .pure fun v hv => ⟨hv.1, hv.2, nofun⟩
    | ok _ => exact hmount

theorem heeds_releaseThreads {target : Handle} :
    Heeds p (fun v => v.Paused ∧ v.target = target ∧ v.MountedIn target)
      (Act.call (.schedule target .unlock)) fun _ v => v.Paused ∧ v.MountedIn v.target := by
  refine heeds_call (fun v _ hv => ?_) ?_
  · obtain ⟨data, saved, -, hmapped⟩ := hv.2.2
    exact ⟨data.length, hmapped⟩
  · rintro v a - ⟨hv, rfl, hmounted⟩
    obtain ⟨data, saved, hplacement, hmapped⟩ := id hmounted
    refine ⟨fun _ _ hnone => ?_, ⟨⟨hv.state, hv.exitPending, hv.tasks⟩, .inl hmounted⟩, hmounted⟩
    cases hmapped.symm.trans hnone

theorem heeds_swapIn : Heeds p Paused swapIn fun _ => AtRest := by
  refine Heeds.client fun l => .bind (heeds_restore.weaken fun v hv => ⟨hv.1, hv.2.target⟩) ?_
  intro answer
  cases answer with
  | error e =>
    refine (peripheral_debug _).first fun _ => (peripheral_record rfl).first fun _ => ?_
    exact .pure fun v hv => hv.1.atRest
  | ok _ =>
    have hrun : Heeds p (fun v => v.Paused ∧ v.MountedIn v.target) (do transition .running; pure true)
        fun _ => AtRest := by
      refine .bind (heeds_transition fun v hv => ?_) fun _ => .pure fun v hv => hv
      exact .running ⟨rfl, hv.1.exitPending, hv.1.tasks⟩ hv.2
    refine .bind (heeds_releaseThreads.weaken fun v hv => ⟨hv.1, hv.2.1, hv.2.2 rfl⟩) fun unlocked => ?_
    cases unlocked <;> exact (peripheral_debug _).first fun _ => hrun

end swap

section notification

theorem heeds_onExit (word : UInt32) :
    Heeds p AtRest (onExit word) fun _ v => v.AtRest ∨ v.Leaving := by
  refine Heeds.client fun l => ?_
  split
  case isTrue =>
    refine .weaken (P := fun v => v.AtRest ∨ v.Leaving) (peripheral_unexpected word).heeds ?_
    exact fun v hv => .inl hv.1
  case isFalse hloaded =>
    split
    · exact .pure fun v hv => .inl hv.1
    · have hqueue : Heeds p (fun v => v.AtRest ∧ v.Fits l) (do
          Act.modifyClient fun now =>
            { now with exitPending := true, tasks := (now.tasks.push (.teardown l.target)).2 }
          record (.teardownQueued l.target)
          pure (.ok ())) fun (_ : Except Error Unit) v => v.AtRest ∨ v.Leaving := by
        refine .bind (heeds_modify (R := Leaving) fun m hcareful hm => ⟨hcareful, ?_⟩) fun _ =>
          (peripheral_record rfl).first fun _ => .pure fun v hv => .inr hv
        have hs : (conduct m).state ≠ .empty := hm.2.state ▸ hloaded
        refine ⟨hs, ?_, rfl, (hm.1.region hs).imp id fun h => ?_⟩
        · show (m.client.tasks.push (.teardown l.target)).2 = ⟨[.teardown m.client.target]⟩
          rw [show m.client.tasks = .empty from hm.1.tasks, ← hm.2.target]
          rfl
        · exact ⟨h.stowed.of_placement rfl rfl, h.unmapped, h.schedule⟩
      dsimp only
      split
      · exact (peripheral_shakeHands _ _ _).first fun _ => hqueue
      · exact hqueue

theorem heeds_onSwap (word : UInt32) : Heeds p AtRest (onSwap word) fun _ => AtRest := by
  refine Heeds.client fun l => ?_
  have hunexpected : Heeds p (fun v => v.AtRest ∧ v.Fits l) (unexpected word) fun _ => AtRest :=
    .weaken (P := AtRest) (peripheral_unexpected word).heeds fun v hv => hv.1
  split
  · exact (peripheral_debug _).first fun _ => hunexpected
  · split
    case h_1 => exact hunexpected
    case h_2 hrunning =>
      refine (peripheral_shakeHands _ _ _).first fun _ => ?_
      refine .bind (heeds_swapOut.weaken fun v hv => ?_) fun _ => .pure fun v hv => hv
      cases hv.1 with
      | running h hm => exact ⟨h, hm⟩
      | vacant h | swapped h => cases (hv.2.state.trans hrunning).symm.trans h.state
    case h_3 hswapped =>
      refine .bind (heeds_swapIn.weaken fun v hv => ?_) fun back => ?_
      · cases hv.1 with
        | swapped h hregion => exact ⟨h, hregion⟩
        | vacant h | running h => cases (hv.2.state.trans hswapped).symm.trans h.state
      · split
        · refine (peripheral_notify _ _).first fun told => ?_
          exact (peripheral_debugPlatform _ told).first fun _ => .pure fun v hv => hv
        · exact .pure fun v hv => hv

theorem heeds_setStatus_atRest (value : UInt32) :
    Heeds p AtRest (Act.setStatus value) fun _ => AtRest := heeds_setStatus fun _ hv => hv.writeStatus value

theorem heeds_handleNotification : Heeds p AtRest handleNotification fun _ => AtRest := by
  let answered (v : Conduct) : Prop := v.AtRest ∨ v.Leaving
  have hrun : Heeds p answered runPendingTasks fun _ => AtRest := by
    intro m hm
    obtain hrest | hleaving := hm.2
    · exact heeds_runPendingTasks m ⟨hm.1, hrest⟩
    · exact heeds_runPendingTasks_of_leaving m ⟨hm.1, hleaving⟩
  exact ensures_handleNotification (central_conduct AtRest).toCore heeds_setStatus_atRest
    (central_conduct answered).toCore (fun _ hm => hm.imp id .inl) heeds_onExit
    (fun word => (heeds_onSwap word).imp fun _ _ => .inl) hrun

end notification
end Loader

namespace Service
open Conduct
variable {σ : Type} {p : Platform σ}

theorem heeds_editMemory (change : Option (Nat × UInt8)) :
    Heeds p AtRest (editMemory change) fun _ => AtRest := by
  refine heeds_onBlock fun b v hv hplace => ?_
  rw [Region.Block.edit]
  split
  case h_1 data mounted saved hb =>
    refine hv.edit (hplace.trans hb) ?_
    cases change with
    | none => rfl
    | some e => exact List.length_set
  case h_2 =>
    rw [← hplace]
    exact hv

/-- Every operation leads from rest to rest. -/
theorem heeds_operation (op : Operation) :
    Heeds p (fun v => v.AtRest ∧ (op = .shutdown → v.ledger.shuttingDown = true)) op.run
      fun _ => AtRest := by
  cases op with
  | shutdown =>
    exact .bind (heeds_shutdown.weaken fun v hv => ⟨hv.1, hv.2 rfl⟩) fun _ => .pure fun v hv => hv
  | editMemory change =>
    refine .bind ((heeds_editMemory change).weaken fun v hv => hv.1) fun edited => ?_
    cases edited <;> exact .pure fun v hv => hv
  | _ =>
    refine .weaken (P := AtRest) ?_ fun v hv => hv.1
    exact ensures_operation (central_conduct AtRest) (central_conduct AtRest) (fun _ hm => hm)
      heeds_runPendingTasks _ (fun _ _ => heeds_load) nofun heeds_setStatus_atRest
      heeds_handleNotification nofun

variable (p) (config : Config) (s : σ)

theorem atRest_career (ops : List Operation) :
    Proper (career p config s ops) ∧ (conduct (career p config s ops)).AtRest := by
  induction ops using List.reverseRecOn with
  | nil =>
    refine ensures_start (central_conduct AtRest) (heeds_setStatus_atRest _) (machine config (s, []))
      ⟨⟨orderly_nil, fun _ hs => absurd rfl hs⟩, ?_⟩
    exact .vacant ⟨rfl, rfl, rfl⟩ rfl (.free rfl rfl)
  | append_singleton ops op ih =>
    rw [career_concat]
    refine heeds_operation op _ ⟨⟨orderly_begun ih.1.orderly, fun _ => ih.2.restrained⟩, ?_, ?_⟩
    · exact ih.2.begin _ _
    · exact fun h => decide_eq_true h

/-- The loader makes its calls in order, and leaves no plugin that is not mapped without its threads
held. -/
theorem orderly_career (ops : List Operation) :
    Orderly (career p config s ops).platform.2 ∧
      (ledger (career p config s ops).platform.2).Restrained (career p config s ops).client.state
        (career p config s ops).client.target := by
  obtain ⟨hproper, hrest⟩ := atRest_career p config s ops
  exact ⟨hproper.orderly, hrest.restrained⟩

end Service
end PluginSlot
