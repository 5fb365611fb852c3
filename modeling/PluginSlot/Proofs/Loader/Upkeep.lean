import PluginSlot.Proofs.Loader.Occupancy

/-!
Every operation leaves the slot in order, and the memory where the state of the slot says, unless
the platform refuses to unmap it.
-/
namespace PluginSlot
open Platform Loader

namespace Loader
namespace Occupancy

/-- The slot between two operations: nothing is put off, a plugin that runs is mounted, and an empty
slot has no target and no memory, or memory that could not be unmapped. -/
structure Kempt (v : Occupancy) : Prop where
  exitPending : v.exitPending = false
  tasks : v.tasks = .empty
  running : v.state = .running → v.place = .mounted
  empty : v.state = .empty → v.target = .null ∧ (v.place = .nowhere ∨ v.place = .mounted)

/-- The memory is where the state says. -/
def InPlace (v : Occupancy) : Prop :=
  match v.state with
  | .empty => v.place = .nowhere
  | .running => v.place = .mounted
  | .swapped => v.place ≠ .mounted

/-- Before an operation, with the memory in its place if `b` says so. -/
structure Fresh (b : Prop) (v : Occupancy) : Prop extends Kempt v where
  clean : v.unmapFailed = false
  inPlace : b → v.InPlace

/-- After the operation, the memory is in its place, if it was, unless it could not be unmapped. -/
structure Settled (b : Prop) (v : Occupancy) : Prop extends Kempt v where
  outOfPlace : v.unmapFailed = true → ¬v.InPlace
  inPlace : b → v.unmapFailed = false → v.InPlace

/-- The slot after a teardown. -/
structure Vacated (v : Occupancy) : Prop where
  state : v.state = .empty
  target : v.target = .null
  exitPending : v.exitPending = false
  tasks : v.tasks = .empty
  place : v.unmapFailed = true ∧ v.place = .mounted ∨ v.unmapFailed = false ∧ v.place = .nowhere

/-- The slot is empty, with nothing put off, and the memory is in some place. -/
structure Reserved (place : Region.Place) (v : Occupancy) : Prop where
  state : v.state = .empty
  exitPending : v.exitPending = false
  tasks : v.tasks = .empty
  clean : v.unmapFailed = false
  place : v.place = place

/-- No target is loaded either. -/
structure Vacant (place : Region.Place) (v : Occupancy) : Prop extends Reserved place v where
  target : v.target = .null

/-- A plugin runs. -/
structure Occupied (v : Occupancy) : Prop where
  state : v.state = .running
  exitPending : v.exitPending = false
  tasks : v.tasks = .empty
  clean : v.unmapFailed = false
  place : v.place = .mounted

/-- A plugin is loaded, and nothing is put off. -/
structure Loaded (v : Occupancy) : Prop where
  state : v.state ≠ .empty
  exitPending : v.exitPending = false
  tasks : v.tasks = .empty
  clean : v.unmapFailed = false

/-- A plugin is swapped out, and not mounted if `b` says so. -/
structure Paused (b : Prop) (v : Occupancy) : Prop where
  state : v.state = .swapped
  exitPending : v.exitPending = false
  tasks : v.tasks = .empty
  clean : v.unmapFailed = false
  place : b → v.place ≠ .mounted

/-- The teardown of the plugin is all that is put off. -/
structure Leaving (v : Occupancy) : Prop where
  tasks : v.tasks = ⟨[.teardown v.target]⟩
  clean : v.unmapFailed = false

variable {b : Prop} {v : Occupancy}

theorem Fresh.settled (h : v.Fresh b) : v.Settled b :=
  { h with
    outOfPlace := fun hf => by cases h.clean.symm.trans hf
    inPlace := fun hb _ => h.inPlace hb }

theorem Vacated.settled (h : v.Vacated) : v.Settled b := by
  constructor
  · constructor
    · exact h.exitPending
    · exact h.tasks
    · intro hr
      cases h.state.symm.trans hr
    · intro _
      refine ⟨h.target, ?_⟩
      obtain ⟨-, hplace⟩ | ⟨-, hplace⟩ := h.place
      · exact .inr hplace
      · exact .inl hplace
  · intro hf
    obtain ⟨-, hplace⟩ | ⟨hclean, -⟩ := h.place
    · simp [InPlace, h.state, hplace]
    · cases hclean.symm.trans hf
  · intro _ hclean
    obtain ⟨hf, -⟩ | ⟨-, hplace⟩ := h.place
    · cases hclean.symm.trans hf
    · simp [InPlace, h.state, hplace]

theorem Fresh.vacant (h : v.Fresh b) (hs : v.state = .empty) : v.Vacant v.place :=
  ⟨⟨hs, h.exitPending, h.tasks, h.clean, rfl⟩, (h.empty hs).1⟩

theorem Vacant.fresh {place : Region.Place} (h : v.Vacant place)
    (hplace : place = .nowhere ∨ place = .mounted) (hb : b → place = .nowhere) : v.Fresh b := by
  constructor
  · constructor
    · exact h.exitPending
    · exact h.tasks
    · intro hr
      cases h.state.symm.trans hr
    · intro _
      rw [h.place]
      exact ⟨h.target, hplace⟩
  · exact h.clean
  · intro htrue
    simp [InPlace, h.state, h.place, hb htrue]

theorem Occupied.fresh (h : v.Occupied) : v.Fresh b := by
  constructor
  · constructor
    · exact h.exitPending
    · exact h.tasks
    · exact fun _ => h.place
    · intro he
      cases h.state.symm.trans he
  · exact h.clean
  · intro _
    simp [InPlace, h.state, h.place]

theorem Fresh.occupied (h : v.Fresh b) (hs : v.state = .running) : v.Occupied :=
  ⟨hs, h.exitPending, h.tasks, h.clean, h.running hs⟩

theorem Fresh.paused (h : v.Fresh b) (hs : v.state = .swapped) : v.Paused b := by
  refine ⟨hs, h.exitPending, h.tasks, h.clean, fun hb => ?_⟩
  have hin := h.inPlace hb
  rwa [InPlace, hs] at hin

theorem Paused.fresh (h : v.Paused b) : v.Fresh b := by
  constructor
  · constructor
    · exact h.exitPending
    · exact h.tasks
    · intro hr
      cases h.state.symm.trans hr
    · intro he
      cases h.state.symm.trans he
  · exact h.clean
  · intro hb
    rw [InPlace, h.state]
    exact h.place hb

end Occupancy

open Occupancy
variable {σ : Type} {p : Platform σ} {P : Occupancy → Prop} {b : Prop}

section teardown

/-- A teardown that is not stale empties the slot. The memory is gone, unless it was mounted and the
platform refused to unmap it. -/
theorem leads_teardown (target : Kernel.Handle) :
    Leads p (fun v => v.target = target ∧ v.tasks = .empty ∧ v.unmapFailed = false)
      (teardown target) fun _ => Vacated := by
  let given (v : Occupancy) : Prop := v.target = target ∧ v.tasks = .empty ∧ v.unmapFailed = false
  let unmounted (v : Occupancy) : Prop := v.tasks = .empty ∧
    (v.unmapFailed = true ∧ v.place = .mounted ∨ v.unmapFailed = false ∧ v.place ≠ .mounted)
  let forgotten (v : Occupancy) : Prop := v.tasks = .empty ∧
    (v.unmapFailed = true ∧ v.place = .mounted ∨ v.unmapFailed = false ∧ v.place = .nowhere)
  have hunmount : Leads p given (onBlockAct (·.unmount target)) fun _ => unmounted := by
    apply leads_unmount
    · exact fun v hv _ => ⟨hv.2.1, .inr ⟨hv.2.2, nofun⟩⟩
    · exact fun v _ hv hm => ⟨hv.2.1, .inl ⟨rfl, hm⟩⟩
    · exact fun v _ hv hm => ⟨hv.2.1, .inr ⟨hv.2.2, hm⟩⟩
  have hdiscard : Leads p unmounted (onBlock (·.discard)) fun _ => forgotten := by
    apply leads_discard
    · intro v hv hm
      obtain ⟨-, hmounted⟩ | ⟨hclean, -⟩ := hv.2
      · exact absurd hmounted hm
      · exact ⟨hv.1, .inr ⟨hclean, rfl⟩⟩
    · intro v _ hv hm
      obtain ⟨hf, -⟩ | ⟨-, hne⟩ := hv.2
      · exact ⟨hv.1, .inl ⟨hf, hm⟩⟩
      · exact absurd hm hne
  have hvacate : Leads p (fun v => Vacated { v with state := .empty })
      (do transition .empty; record (.teardownDone target)) fun _ => Vacated :=
    .bind (leads_transition .empty) fun _ => (steady_record _).assures
  refine Leads.client fun l => ?_
  split
  case isTrue hne =>
    intro m hm
    exact absurd (hm.2.target.symm.trans hm.1.1) hne
  case isFalse =>
    dsimp only
    split
    case' isTrue =>
      refine .bind (hunmount.weaken fun v hv => hv.1) fun r => ?_
      refine (peripheral_debugRegion _ r).steady.then fun _ => ?_
      refine .bind hdiscard fun r => ?_
    case' isFalse hm =>
      refine .bind (hdiscard.weaken fun v hv => ⟨hv.1.2.1, .inr ⟨hv.1.2.2, ?_⟩⟩) fun r => ?_
      · rw [hv.2.place]
        exact fun hplace => hm (l.block.isMounted_iff.mpr hplace)
    all_goals
      refine (peripheral_debugRegion _ r).steady.then fun _ => ?_
      refine (peripheral_call rfl).steady.then fun closed => ?_
      refine (peripheral_debugPlatform _ closed).steady.then fun _ => ?_
      refine .bind (leads_modify fun m hm => ?_) fun _ =>
        (peripheral_setWord _ _).steady.then fun _ => hvacate
      exact ⟨rfl, rfl, rfl, hm.1, hm.2⟩

/-- With nothing put off, nothing happens. -/
theorem leads_runPendingTasks_of_empty (hP : ∀ v, P v → v.tasks = .empty) :
    Leads p P runPendingTasks fun _ => P := by
  refine Leads.client fun l => .of_fact (fun v hv => hv.2.tasks.symm.trans (hP v hv.1)) fun hl => ?_
  rw [hl]
  have hdrain : Leads p P (Act.modifyClient ({ · with tasks := .empty })) fun _ => P := by
    apply leads_modify
    intro m hm
    have hsame : { occupancy m with tasks := .empty } = occupancy m := by rw [← hP _ hm]
    show P { occupancy m with tasks := .empty }
    rwa [hsame]
  refine .bind (hdrain.weaken fun v hv => hv.1) fun _ => ?_
  exact .bind (.pure fun _ hv => hv) fun _ => .pure fun _ hv => hv

/-- Of what can be put off there is only the teardown. -/
theorem leads_runPendingTasks_of_leaving :
    Leads p Leaving runPendingTasks fun _ => Vacated := by
  refine Leads.client fun l => .of_fact (fun v hv => ?_) fun hl : l.tasks = ⟨[.teardown l.target]⟩ => ?_
  · rw [← hv.2.tasks, hv.1.tasks, hv.2.target]
  · let drained (v : Occupancy) : Prop :=
      v.target = l.target ∧ v.tasks = .empty ∧ v.unmapFailed = false
    have hdrain : Leads p (fun v => v.Leaving ∧ v.Fits l)
        (Act.modifyClient ({ · with tasks := .empty })) fun _ => drained :=
      leads_modify fun m hm => ⟨hm.2.target, rfl, hm.1.clean⟩
    have htasks : Leads p drained (runTasks [.teardown l.target]) fun _ => Vacated :=
      .bind (leads_teardown l.target) fun _ => .pure fun _ hv => hv
    rw [hl]
    exact .bind hdrain fun _ => .bind htasks fun _ => .pure fun _ hv => hv

theorem leads_shutdown : Leads p (Fresh b) shutdown fun _ => Settled b := by
  have hclose : Leads p (Settled b) _ fun _ => Settled b := marginal_closeHandles.steady.assures
  refine .bind (leads_runPendingTasks_of_empty fun v hv => hv.tasks) fun _ => Leads.client fun l => ?_
  dsimp only
  split
  · refine .bind ((leads_teardown l.target).weaken fun v hv => ?_) fun _ => ?_
    · exact ⟨hv.2.target, hv.1.tasks, hv.1.clean⟩
    · exact hclose.weaken fun v hv => hv.settled
  · exact hclose.weaken fun v hv => hv.1.settled

end teardown

section load
variable {place : Region.Place} {target : Kernel.Handle}

/-- How the injection of a plugin ends, as far as the memory goes. -/
def Tried {α : Type} (place : Region.Place) : Except Error α → Occupancy → Prop :=
  Ends (fun v => place = .nowhere ∧ v.Reserved .mounted)
    fun v => v.Reserved place ∨ place = .nowhere ∧ v.Reserved .unmounted

theorem leads_place (data : List UInt8) :
    Leads p (Reserved place) (Loader.place target data) (Tried place) := by
  have hallocate : Leads p (Reserved place) (onBlock (·.allocate data))
      (Ends (fun v => place = .nowhere ∧ v.Reserved .unmounted) (Reserved place)) := by
    apply leads_allocate
    · exact fun v hv hn => ⟨hv.place.symm.trans hn, hv.state, hv.exitPending, hv.tasks, hv.clean, rfl⟩
    · exact fun v _ hv _ => hv
  refine .bind hallocate fun answer => ?_
  cases answer with
  | error e => exact .pure fun v hv => .inl hv
  | ok _ =>
    have hmount : Leads p (fun v => place = .nowhere ∧ v.Reserved .unmounted)
        (onBlockAct (·.mount target))
        (Ends (fun v => place = .nowhere ∧ v.Reserved .mounted)
          fun v => place = .nowhere ∧ v.Reserved .unmounted) := by
      apply leads_mount
      · exact fun v hv _ => ⟨hv.1, hv.2.state, hv.2.exitPending, hv.2.tasks, hv.2.clean, rfl⟩
      · exact fun v _ hv => hv
    refine .bind hmount fun answer => ?_
    cases answer with
    | error e => exact .pure fun v hv => .inr hv
    | ok _ => exact .pure fun v hv => hv

theorem leads_inject : Leads p (Reserved place) (inject target) (Tried place) := by
  have hinject : Leads p (Reserved place) (inject target) fun r => Tried place (r.map fun _ => ()) :=
    ensures_inject (central_occupancy _)
      (fun _ _ => (steady_call (by intro _ _ hc; cases hc)).assures) leads_place fun _ _ hm => .inl hm
  exact hinject.imp fun r v hv => by cases r <;> exact hv

theorem leads_finishLoad (noFlash : Bool) :
    Leads p (Reserved .mounted) (finishLoad target noFlash) fun _ => Occupied := by
  have hrun : Leads p (Reserved .mounted) (transition .running) fun _ => Occupied := by
    apply (leads_transition .running).weaken
    exact fun v hv => ⟨rfl, hv.exitPending, hv.tasks, hv.clean, hv.place⟩
  exact ensures_finishLoad (internal_occupancy _).toCore (internal_occupancy _).toCore hrun noFlash

/-- A load that is given up forgets the memory, unless it was mounted before. -/
theorem leads_abandonLoad (hplace : place = .nowhere ∨ place = .mounted) (e : Error) :
    Leads p (fun v => v.Reserved place ∨ place = .nowhere ∧ v.Reserved .unmounted)
      (abandonLoad target e) fun _ => Vacant place := by
  have hdiscard : Leads p (fun v => v.Reserved place ∨ place = .nowhere ∧ v.Reserved .unmounted)
      (onBlock (·.discard)) fun _ => Reserved place := by
    apply leads_discard
    · intro v hv hm
      obtain hv | ⟨rfl, hv⟩ := hv
      · obtain rfl | rfl := hplace
        · exact ⟨hv.state, hv.exitPending, hv.tasks, hv.clean, rfl⟩
        · exact absurd hv.place hm
      · exact ⟨hv.state, hv.exitPending, hv.tasks, hv.clean, rfl⟩
    · intro v _ hv hm
      obtain hv | ⟨-, hv⟩ := hv
      · exact hv
      · cases hm.symm.trans hv.place
  refine .bind hdiscard fun _ => Leads.client fun l => .bind (leads_modify fun m hm => ?_) fun _ =>
    (peripheral_call rfl).steady.then fun _ => (peripheral_debug _).steady.then fun _ =>
      (steady_record _).assures
  exact ⟨⟨hm.1.state, hm.1.exitPending, hm.1.tasks, hm.1.clean, hm.1.place⟩, rfl⟩

/-- A load into an empty slot ends with a plugin that runs, or with the slot as it was; the former
only if no memory was left in it. -/
theorem leads_load_of_vacant (hplace : place = .nowhere ∨ place = .mounted) :
    Leads p (Vacant place) (load target) fun _ v =>
      place = .nowhere ∧ v.Occupied ∨ v.Vacant place := by
  refine .bind (leads_runPendingTasks_of_empty fun v hv => hv.tasks) fun _ => Leads.client fun l => ?_
  split
  case isTrue hne => exact .of_fact (fun v hv => hv.2.state.symm.trans hv.1.state) fun h => absurd h hne
  case isFalse =>
    split
    · refine Act.Assures.weaken ?_ fun v hv => hv.1
      refine (peripheral_call rfl).steady.then fun answer => ?_
      cases answer <;> exact .pure fun v hv => .inr hv
    · refine (peripheral_setWord _ _).steady.then fun _ => ?_
      have hreserve : Leads p (fun v => v.Vacant place ∧ v.Fits l)
          (Act.modifyClient ({ · with target := target })) fun _ => Reserved place := by
        apply leads_modify
        exact fun m hm => ⟨hm.1.state, hm.1.exitPending, hm.1.tasks, hm.1.clean, hm.1.place⟩
      refine .bind hreserve fun _ => .bind leads_inject fun answer => ?_
      cases answer with
      | ok noFlash =>
        refine .of_fact (fun v hv => hv.1) fun hnowhere => ?_
        refine .bind ((leads_finishLoad noFlash).weaken fun v hv => hv.2) fun _ => ?_
        exact .pure fun v hv => .inl ⟨hnowhere, hv⟩
      | error e => exact .bind (leads_abandonLoad hplace e) fun _ => .pure fun v hv => .inr hv

/-- A slot that is occupied refuses a load. -/
theorem leads_load_of_loaded (hP : ∀ v, P v → v.state ≠ .empty ∧ v.tasks = .empty) :
    Leads p P (load target) fun _ => P := by
  refine .bind (leads_runPendingTasks_of_empty fun v hv => (hP v hv).2) fun _ => Leads.client fun l => ?_
  refine .of_fact (fun v hv => ?_) fun hne : l.state ≠ .empty => ?_
  · rw [← hv.2.state]
    exact (hP v hv.1).1
  · rw [if_pos hne]
    refine Act.Assures.weaken ?_ fun v hv => hv.1
    exact (peripheral_debug _).steady.then fun _ => (peripheral_call rfl).steady.then fun _ =>
      .pure fun v hv => hv

theorem leads_load : Leads p (Fresh b) (load target) fun _ => Settled b := by
  intro m hm
  by_cases hs : (occupancy m).state = .empty
  · obtain ⟨-, hplace⟩ := hm.empty hs
    have hload : Leads p (Vacant (occupancy m).place) (load target) _ := leads_load_of_vacant hplace
    obtain ⟨-, hv⟩ | hv := hload m (hm.vacant hs)
    · exact hv.fresh.settled
    · apply (hv.fresh hplace fun hb => ?_).settled
      have hin := hm.inPlace hb
      rwa [InPlace, hs] at hin
  · let here (v : Occupancy) : Prop := v.Fresh b ∧ v.state ≠ .empty
    have hload : Leads p here (load target) fun _ => here :=
      leads_load_of_loaded fun v hv => ⟨hv.2, hv.1.tasks⟩
    exact (hload m ⟨hm, hs⟩).1.settled

end load

section swap

/-- Swap-out goes on to the next state whatever fails; the memory stays mounted if, and only if, the
platform refuses to unmap it. -/
theorem leads_swapOut : Leads p Occupied swapOut fun _ => Settled b := by
  let going (v : Occupancy) : Prop := v.exitPending = false ∧ v.tasks = .empty ∧
    (v.unmapFailed = true ∧ v.place = .mounted ∨ v.unmapFailed = false ∧ v.place ≠ .mounted)
  have hunmount (target : Kernel.Handle) :
      Leads p Occupied (onBlockAct (·.unmount target)) fun _ => going := by
    apply leads_unmount
    · exact fun v hv _ => ⟨hv.exitPending, hv.tasks, .inr ⟨hv.clean, nofun⟩⟩
    · exact fun v _ hv hm => ⟨hv.exitPending, hv.tasks, .inl ⟨rfl, hm⟩⟩
    · exact fun v _ hv hm => absurd hv.place hm
  have hwrite : Leads p going (onBlockAct (·.writeOut)) fun _ => going := by
    apply leads_writeOut
    · exact fun v hv _ => hv
    · exact fun v _ hv => hv
  have hfree : Leads p going (onBlock (·.free)) fun _ => going := by
    apply leads_free
    · intro v place hv hm hplace
      obtain ⟨-, hmounted⟩ | ⟨hclean, -⟩ := hv.2.2
      · exact absurd hmounted hm
      · exact ⟨hv.1, hv.2.1, .inr ⟨hclean, hplace⟩⟩
    · exact fun v _ hv _ => hv
  have hswapped : Leads p going (transition .swapped) fun _ => Settled b := by
    apply (leads_transition .swapped).weaken
    intro v hv
    constructor
    · exact ⟨hv.1, hv.2.1, nofun, nofun⟩
    · intro hf hin
      obtain ⟨-, hmounted⟩ | ⟨hclean, -⟩ := hv.2.2
      · exact hin hmounted
      · cases hclean.symm.trans hf
    · intro _ hclean
      obtain ⟨hf, -⟩ | ⟨-, hplace⟩ := hv.2.2
      · cases hclean.symm.trans hf
      · exact hplace
  refine Leads.client fun l => (steady_call (by intro _ _ hc; cases hc)).then fun answer => ?_
  -- whether the threads could be held makes no difference
  cases answer
  all_goals
    refine (peripheral_debug _).steady.then fun _ => ?_
    refine .bind ((hunmount l.target).weaken fun v hv => hv.1) fun r => ?_
    refine (peripheral_debugRegion _ r).steady.then fun _ => .bind hwrite fun written => ?_
    cases written with
    | ok _ =>
      exact .bind hfree fun r => (peripheral_debugRegion _ r).steady.then fun _ => hswapped
    | error e =>
      exact (peripheral_debug _).steady.then fun _ => .bind hswapped fun _ =>
        (steady_record _).assures

/-- A region that cannot be put back is not mounted, unless it was. -/
theorem leads_restore (target : Kernel.Handle) :
    Leads p (Paused b) (restore target)
      (Ends (fun v => { v with state := .running }.Occupied) (Paused b)) := by
  have hread : Leads p (Paused b) (onBlockAct (·.readBack)) fun _ => Paused b := by
    apply leads_readBack
    · exact fun v hv _ => ⟨hv.state, hv.exitPending, hv.tasks, hv.clean, fun _ => nofun⟩
    · exact fun v _ hv => hv
  have hmount : Leads p (Paused b) (onBlockAct (·.mount target))
      (Ends (fun v => { v with state := .running }.Occupied) (Paused b)) := by
    apply leads_mount
    · exact fun v hv _ => ⟨rfl, hv.exitPending, hv.tasks, hv.clean, rfl⟩
    · exact fun v _ hv => hv
  refine Leads.client fun l => .weaken (P := Paused b) ?_ fun v hv => hv.1
  dsimp only
  split
  case' isTrue => refine .bind hread fun restored => ?_
  case' isFalse => refine .bind (Q := fun _ => Paused b) (.pure fun v hv => hv) fun restored => ?_
  all_goals
    cases restored with
    | error e => exact .pure fun v hv => hv
    | ok _ => exact hmount

theorem leads_swapIn : Leads p (Paused b) swapIn fun _ => Fresh b := by
  refine Leads.client fun l => .bind ((leads_restore l.target).weaken fun v hv => hv.1) fun answer => ?_
  cases answer with
  | error e =>
    refine (peripheral_debug _).steady.then fun _ => (steady_record _).then fun _ => ?_
    exact .pure fun v hv => hv.fresh
  | ok _ =>
    refine (steady_call (by intro _ _ hc; cases hc)).then fun unlocked => ?_
    cases unlocked
    all_goals
      refine (peripheral_debug _).steady.then fun _ => ?_
      refine .bind (leads_transition (P := Occupied) .running) fun _ => ?_
      exact .pure fun v hv => hv.fresh

end swap

section notification

/-- A plugin whose host exits is torn down once the notification is answered. -/
theorem leads_onExit (word : UInt32) : Leads p Loaded (onExit word) fun _ => Leaving := by
  let idle (v : Occupancy) : Prop := v.tasks = .empty ∧ v.unmapFailed = false
  refine Leads.client fun l => ?_
  refine .of_fact (fun v hv => ?_) fun hl : l.state ≠ .empty ∧ l.exitPending = false => ?_
  · rw [← hv.2.state, ← hv.2.exitPending]
    exact ⟨hv.1.state, hv.1.exitPending⟩
  · have hqueue : Leads p (fun v => idle v ∧ v.Fits l)
        (do
          Act.modifyClient fun now =>
            { now with exitPending := true, tasks := (now.tasks.push (.teardown l.target)).2 }
          record (.teardownQueued l.target)
          pure (.ok ())) fun (_ : Except Error Unit) => Leaving := by
      refine .bind (leads_modify (R := Leaving) fun m hm => ⟨?_, hm.1.2⟩) fun _ => ?_
      · have hempty : m.client.tasks = .empty := hm.1.1
        have htarget : m.client.target = l.target := hm.2.target
        show (m.client.tasks.push (.teardown l.target)).2 = ⟨[.teardown m.client.target]⟩
        rw [hempty, htarget]
        rfl
      · exact (steady_record _).then fun _ => .pure fun v hv => hv
    rw [if_neg hl.1, if_neg (Bool.eq_false_iff.mp hl.2)]
    refine Act.Assures.weaken (P := fun v => idle v ∧ v.Fits l) ?_ fun v hv => ?_
    · dsimp only
      split
      · exact (peripheral_shakeHands _ _ _).steady.then fun _ => hqueue
      · exact hqueue
    · exact ⟨⟨hv.1.tasks, hv.1.clean⟩, hv.2⟩

/-- No host can exit that there is not. -/
theorem leads_onExit_of_empty (hP : ∀ v, P v → v.state = .empty) (word : UInt32) :
    Leads p P (onExit word) fun _ => P := by
  refine Leads.client fun l => .of_fact (fun v hv => hv.2.state.symm.trans (hP v hv.1)) fun hl => ?_
  rw [if_pos hl]
  exact (peripheral_unexpected word).steady.assures.weaken fun v hv => hv.1

theorem leads_onSwap_of_empty (hP : ∀ v, P v → v.state = .empty) (word : UInt32) :
    Leads p P (onSwap word) fun _ => P := by
  refine Leads.client fun l => .of_fact (fun v hv => hv.2.state.symm.trans (hP v hv.1)) fun hl => ?_
  refine Act.Assures.weaken (P := P) ?_ fun v hv => hv.1
  rw [hl]
  split
  · exact (peripheral_debug _).steady.then fun _ => (peripheral_unexpected word).steady.assures
  · exact (peripheral_unexpected word).steady.assures

theorem leads_onSwap (word : UInt32) : Leads p (Fresh b) (onSwap word) fun _ => Settled b := by
  have hunexpected (l : Loader) :
      Leads p (fun v => v.Fresh b ∧ v.Fits l) (unexpected word) fun _ => Settled b :=
    Act.Assures.weaken (Q := fun _ => Settled b) (peripheral_unexpected word).steady.assures
      fun v hv => hv.1.settled
  refine Leads.client fun l => ?_
  split
  · exact (peripheral_debug _).steady.then fun _ => hunexpected l
  · split
    case h_1 => exact hunexpected l
    case h_2 hrunning =>
      refine (peripheral_shakeHands _ _ _).steady.then fun _ => ?_
      refine .bind (leads_swapOut.weaken fun v hv => ?_) fun _ => .pure fun v hv => hv
      exact hv.1.occupied (hv.2.state.trans hrunning)
    case h_3 hswapped =>
      refine .bind (leads_swapIn.weaken fun v hv => hv.1.paused (hv.2.state.trans hswapped)) ?_
      intro back
      split
      · refine (peripheral_notify _ _).steady.then fun told => ?_
        exact (peripheral_debugPlatform _ told).steady.then fun _ => .pure fun v hv => hv.settled
      · exact .pure fun v hv => hv.settled

theorem leads_handleNotification : Leads p (Fresh b) handleNotification fun _ => Settled b := by
  let answered (v : Occupancy) : Prop := v.Leaving ∨ v.Settled b
  have hrun : Leads p answered runPendingTasks fun _ => Settled b := by
    intro m hm
    obtain hm | hm := hm
    · exact (leads_runPendingTasks_of_leaving m hm).settled
    · exact leads_runPendingTasks_of_empty (fun v hv => hv.tasks) m hm
  have hexit (word : UInt32) : Leads p (Fresh b) (onExit word) fun _ => answered := by
    intro m hm
    by_cases hs : (occupancy m).state = .empty
    · let here (v : Occupancy) : Prop := v.Fresh b ∧ v.state = .empty
      have hrefuse : Leads p here (onExit word) fun _ => here :=
        leads_onExit_of_empty (fun v hv => hv.2) word
      exact .inr (hrefuse m ⟨hm, hs⟩).1.settled
    · exact .inl (leads_onExit word m ⟨hs, hm.exitPending, hm.tasks, hm.clean⟩)
  have hfresh : Internal (recorder p) fun m => (occupancy m).Fresh b := internal_occupancy (Fresh b)
  have hanswered : Internal (recorder p) fun m => answered (occupancy m) := internal_occupancy answered
  exact ensures_handleNotification hfresh.toCore hfresh.status hanswered.toCore (fun _ hm => .inr hm.settled)
    hexit (fun word => (leads_onSwap word).imp fun _ _ hv => .inr hv) hrun

end notification
end Loader

namespace Service
open Occupancy
variable {σ : Type} {p : Platform σ} {b : Prop}

/-- An edit leaves the memory where it is. -/
theorem leads_operation {P Q : Occupancy → Prop} (hPQ : ∀ v, P v → Q v)
    (hidle : ∀ v, Q v → v.tasks = .empty) (hload : ∀ target, Leads p P (load target) fun _ => Q)
    (hnotify : Leads p P handleNotification fun _ => Q) (hshutdown : Leads p P shutdown fun _ => Q)
    (op : Operation) : Leads p P op.run fun _ => Q := by
  refine ensures_operation (central_occupancy P) (central_occupancy Q) (fun m hm => hPQ _ hm)
    (leads_runPendingTasks_of_empty hidle) op (fun target _ => hload target) ?_
    (internal_occupancy P).status hnotify fun _ => hshutdown
  rintro change rfl
  have hedit : Leads p P (editMemory change) fun _ => P := by
    apply leads_onBlock
    intro block v hv hplace
    rwa [block.place_edit change, ← hplace]
  refine Act.Assures.bind hedit fun edited => ?_
  cases edited <;> exact .pure hPQ

/-- Whatever happens to a slot in order, it is in order afterwards. -/
theorem leads_operation_of_fresh (op : Operation) : Leads p (Fresh b) op.run fun _ => Settled b :=
  leads_operation (fun _ hv => hv.settled) (fun _ hv => hv.tasks) (fun _ => leads_load)
    leads_handleNotification leads_shutdown op

end Service
end PluginSlot
