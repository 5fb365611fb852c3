import PluginSlot.Proofs.Loader.Sighting

/-!
The standing of the slot, as the kernel and the journal see it, and what each operation makes of it.
Apart from loads and swaps, which may fail, the loader's part is determined: the effect is computed
from the standing before.
-/
namespace PluginSlot
open Platform Loader Wire

namespace Wire.Status

theorem and_or_distrib (a b mask : UInt32) : (a ||| b) &&& mask = a &&& mask ||| b &&& mask := by
  apply UInt32.toBitVec_inj.mp
  simp only [UInt32.toBitVec_or, UInt32.toBitVec_and]
  exact BitVec.and_or_distrib_right

theorem stateOf_post {event : UInt32} (h : stateOf event = 0) (word : UInt32) :
    stateOf (post word event) = stateOf word := by
  calc stateOf (post word event)
    _ = stateOf (stateOf word) ||| stateOf event := and_or_distrib _ _ _
    _ = stateOf word := by rw [h, UInt32.or_zero, stateOf_stateOf]

theorem eventOf_post {event : UInt32} (h : stateOf event = 0) (word : UInt32) :
    eventOf (post word event) = event := by
  calc eventOf (post word event)
    _ = eventOf (stateOf word) ||| eventOf event := and_or_distrib _ _ _
    _ = stateOf event ||| eventOf event := by rw [eventOf_stateOf, h]
    _ = event := stateOf_or_eventOf event

end Wire.Status

namespace Loader

structure Standing where
  state : SlotState
  target : Kernel.Handle
  exitPending : Bool
  tasks : TaskQueue
  status : UInt32
  /-- All transitions ever recorded. -/
  moves : List (SlotState × SlotState)

namespace Standing

/-- A transition replaces the whole status word. -/
def move (v : Standing) (state : SlotState) : Standing :=
  { v with state := state, status := state.statusBits, moves := v.moves ++ [(v.state, state)] }

def occupy (v : Standing) (target : Kernel.Handle) : Standing :=
  { v with target := target }.move .running

def vacate (v : Standing) : Standing :=
  { v with target := .null, exitPending := false }.move .empty

/-- The event in the status word is taken out of it. -/
def consume (v : Standing) : Standing := { v with status := Status.stateOf v.status }

def perform (v : Standing) : Task → Standing
  | .teardown target => if v.target = target then v.vacate else v

/-- All that is put off is done. -/
def settle (v : Standing) : Standing := v.tasks.entries.foldl perform { v with tasks := .empty }

/-- Nothing is put off, and an empty slot has no target. -/
structure Idle (v : Standing) : Prop where
  exitPending : v.exitPending = false
  tasks : v.tasks = .empty
  target : v.state = .empty → v.target = .null

/-- What a notification makes of the standing, and how it is answered. -/
inductive Notified (v : Standing) : Except Error Unit → Standing → Prop where
  | nothing (h : Status.eventOf v.status = 0) : Notified v (.ok ()) v.consume
  | exited (h : Status.eventOf v.status = Status.exitEvent) (hs : v.state ≠ .empty) :
      Notified v (.ok ()) v.consume.vacate
  | swappedOut (h : Status.eventOf v.status = Status.swapEvent) (hs : v.state = .running) :
      Notified v (.ok ()) (v.consume.move .swapped)
  | swappedIn (h : Status.eventOf v.status = Status.swapEvent) (hs : v.state = .swapped) :
      Notified v (.ok ()) (v.consume.move .running)
  | stillOut (h : Status.eventOf v.status = Status.swapEvent) (hs : v.state = .swapped) :
      Notified v (.ok ()) v.consume
  | unexpected (h : Status.eventOf v.status ≠ 0)
      (hs : v.state = .empty ∨ Status.eventOf v.status ≠ Status.exitEvent ∧
        Status.eventOf v.status ≠ Status.swapEvent) :
      Notified v (.error .unexpectedNotification) v.consume

variable {v : Standing}

theorem Idle.settle (hv : v.Idle) : v.settle = v := by
  have htasks : v.tasks.entries = [] := by rw [hv.tasks]; rfl
  rw [Standing.settle, htasks, List.foldl_nil, ← hv.tasks]

/-- With a teardown put off, the slot will be vacated. -/
theorem Idle.settle_leaving (hv : v.Idle) :
    { v with exitPending := true, tasks := ⟨[.teardown v.target]⟩ }.settle = v.vacate := by
  simp [Standing.settle, perform, vacate, Standing.move, hv.tasks]

theorem Idle.consume (hv : v.Idle) : v.consume.Idle := ⟨hv.exitPending, hv.tasks, hv.target⟩

theorem Idle.move (hv : v.Idle) (state : SlotState) (hstate : state ≠ .empty) :
    (v.move state).Idle := ⟨hv.exitPending, hv.tasks, fun h => absurd h hstate⟩

theorem Idle.occupy (hv : v.Idle) (target : Kernel.Handle) : (v.occupy target).Idle :=
  ⟨hv.exitPending, hv.tasks, nofun⟩

theorem Idle.vacate (hv : v.Idle) : v.vacate.Idle := ⟨rfl, hv.tasks, fun _ => rfl⟩

theorem Notified.idle {r : Except Error Unit} {w : Standing} (h : v.Notified r w) (hv : v.Idle) :
    w.Idle := by
  cases h with
  | exited => exact hv.consume.vacate
  | swappedOut | swappedIn => exact hv.consume.move _ nofun
  | _ => exact hv.consume

theorem Notified.of_exit {r : Except Error Unit} {w : Standing} (h : v.Notified r w)
    (hexit : Status.eventOf v.status = Status.exitEvent) :
    v.state ≠ .empty ∧ r = .ok () ∧ w = v.consume.vacate ∨
      v.state = .empty ∧ r = .error .unexpectedNotification ∧ w = v.consume := by
  cases h with
  | nothing h => exact absurd (h.symm.trans hexit) (by decide)
  | exited _ hs => exact .inl ⟨hs, rfl, rfl⟩
  | swappedOut h | swappedIn h | stillOut h => exact absurd (h.symm.trans hexit) (by decide)
  | unexpected _ hs => exact .inr ⟨hs.resolve_right fun hother => hother.1 hexit, rfl, rfl⟩

end Standing

variable {σ α β : Type} {p : Platform σ}

def standing (m : Machine Loader (σ × List Sighting)) : Standing where
  state := m.client.state
  target := m.client.target
  exitPending := m.client.exitPending
  tasks := m.client.tasks
  status := m.status
  moves := (fullJournal m).transitions

/-- What a computation makes of the standing, while the journal is kept in order. -/
abbrev Turns (p : Platform σ) (P : Standing → Prop) (x : Act Loader (σ × List Sighting) α)
    (Q : α → Standing → Prop) : Prop :=
  x.Maintains (watch p) Filed standing P Q

/-- A computation that does not change the standing. -/
abbrev Still (p : Platform σ) (x : Act Loader (σ × List Sighting) α) : Prop :=
  ∀ P, Turns p P x fun _ => P

theorem still_call {c : Call} (hc : c ≠ .now) :
    Still p (Act.call c : Act Loader (σ × List Sighting) c.Answer) := by
  intro P m hm
  have hstanding : standing (Act.call c (watch p) m).2 = standing m :=
    congrArg (fun full => { standing m with moves := full.transitions }) (fullJournal_call hc m)
  exact ⟨filed_call hc hm.1, hstanding ▸ hm.2⟩

theorem turns_record {P : Standing → Prop} (event : Event) :
    Turns p (fun v => P { v with
        moves := v.moves ++ match event with
          | .transition source target => [(source, target)]
          | _ => [] }) (record event) fun _ => P := by
  intro m hm
  refine ⟨filed_record m event hm.1, ?_⟩
  have hmoves := transitions_fullJournal_record (p := p) m event hm.1.capacity
  have hstanding : standing (record event (watch p) m).2 =
      { standing m with moves := (fullJournal (record event (watch p) m).2).transitions } := rfl
  rw [hstanding, hmoves]
  exact hm.2

theorem central_standing (P : Standing → Prop) :
    Central (watch p) fun m => Filed m ∧ P (standing m) := by
  constructor
  · constructor
    · intro c hc
      exact still_call (by rintro rfl; cases hc) P
    · exact fun _ _ hm => hm
    · intro event he m hm
      refine turns_record event m ⟨hm.1, ?_⟩
      cases event with
      | transition source target => cases he
      | _ => simpa using hm.2
  · intro m l hstate htarget _ hexit htasks hjournal ⟨hfiled, hm⟩
    have hstanding : standing { m with client := l } = standing m := by
      simp only [standing, hstate, htarget, hexit, htasks, fullJournal_client hjournal]
    exact ⟨filed_client hjournal hfiled, hstanding ▸ hm⟩

section
variable {P R : Standing → Prop} {Q : α → Standing → Prop} {S : β → Standing → Prop}
  {x : Act Loader (σ × List Sighting) α} {g : α → Act Loader (σ × List Sighting) β}

theorem Peripheral.still (hx : Peripheral (watch p) x) : Still p x :=
  fun P => hx _ (central_standing P).toCore

theorem Marginal.still (hx : Marginal (watch p) x) : Still p x :=
  fun P => hx _ (central_standing P)

theorem Still.pure (a : α) : Still p (Pure.pure a : Act Loader (σ × List Sighting) α) :=
  fun _ _ hm => hm

theorem Still.bind (hx : Still p x) (hg : ∀ a, Still p (g a)) : Still p (x >>= g) :=
  fun P => .bind (hx P) fun a => hg a P

theorem Still.then (hx : Still p x) (hg : ∀ a, Turns p P (g a) S) : Turns p P (x >>= g) S :=
  .bind (hx P) hg

/-- What the loader knows of its standing. -/
structure Standing.Fits (v : Standing) (l : Loader) : Prop where
  state : v.state = l.state
  target : v.target = l.target
  exitPending : v.exitPending = l.exitPending
  tasks : v.tasks = l.tasks

theorem Turns.client {g : Loader → Act Loader (σ × List Sighting) β}
    (hg : ∀ l, Turns p (fun v => P v ∧ v.Fits l) (g l) S) : Turns p P (Act.client >>= g) S :=
  fun m hm => hg m.client m ⟨hm.1, hm.2, rfl, rfl, rfl, rfl⟩

theorem Turns.status {v : Standing} {g : UInt32 → Act Loader (σ × List Sighting) β}
    (hg : Turns p (· = v) (g v.status) S) : Turns p (· = v) (Act.status >>= g) S := by
  intro m hm
  have hword : m.status = v.status := congrArg Standing.status hm.2
  rw [← hword] at hg
  exact hg m hm

theorem turns_modify {e : Loader → Loader} (he : ∀ l, (e l).journal = l.journal)
    (hR : ∀ m : Machine Loader (σ × List Sighting), P (standing m) →
      R (standing { m with client := e m.client })) :
    Turns p P (Act.modifyClient e) fun _ => R :=
  fun m hm => ⟨filed_client (he m.client) hm.1, hR m hm.2⟩

theorem turns_setStatus (value : UInt32) :
    Turns p (fun v => P { v with status := value }) (Act.setStatus value) fun _ => P :=
  fun m hm => still_call (c := .writeStatus value) nofun (fun v => P { v with status := value }) m hm

theorem turns_setStatus_eq {v : Standing} (value : UInt32) :
    Turns p (· = v) (Act.setStatus value) fun _ w => w = { v with status := value } :=
  (turns_setStatus (P := (· = { v with status := value })) value).weaken fun _ hw => hw ▸ rfl

theorem turns_transition (state : SlotState) :
    Turns p (fun v => P (v.move state)) (transition state) fun _ => P := by
  refine Turns.client fun l => ?_
  let recorded (v : Standing) : Prop := P { v with moves := v.moves ++ [(l.state, state)] }
  have hstate : Turns p (fun v => P (v.move state) ∧ v.Fits l)
      (Act.modifyClient ({ · with state := state }))
      fun _ v => recorded { v with status := state.statusBits } := by
    refine turns_modify (fun _ => rfl) fun m hm => ?_
    have hsource : m.client.state = l.state := hm.2.state
    show P { standing m with
      state := state, status := state.statusBits, moves := (standing m).moves ++ [(l.state, state)] }
    rw [← hsource]
    exact hm.1
  have hstatus : Turns p (fun v => recorded { v with status := state.statusBits })
      (Act.setStatus state.statusBits) fun _ => recorded := turns_setStatus _
  exact .bind hstate fun _ => .bind hstatus fun _ => turns_record (.transition l.state state)

theorem still_onBlock (op : Region.Block → α × Region.Block) :
    Still p (onBlock op : Act Loader (σ × List Sighting) α) :=
  fun _ _ hm => hm

/-- What a computation does besides the slot and the status word. -/
def Concern.besidesSlot : List Concern :=
  [.signal, .publish, .schedule, .inject, .map, .unmap, .writeSwap, .readSwap, .close, .teardown,
    .title, .flash, .parameters, .handles, .settings, .block]

theorem bears_standing (P : Standing → Prop) :
    Bears (watch p) Concern.besidesSlot fun m => Filed m ∧ P (standing m) where
  call c hc _ := still_call hc P
  words _ _ hm := hm
  record event hk := (central_standing P).record event (by cases event <;> first | rfl | cases hk)
  status hk := absurd hk (by decide)
  settings _ m l hstate htarget hplacement hexit htasks hjournal _ :=
    (central_standing (p := p) P).settings m l hstate htarget hplacement hexit htasks hjournal
  parameters _ _ _ _ hm := hm
  handles _ _ _ _ hm := hm
  block _ _ _ _ _ _ hm := hm
  slot hk := absurd hk (by decide)

theorem Within.still {cs : List Concern} (hx : Within cs x) (hcs : cs ⊆ Concern.besidesSlot) :
    Still p x := fun P => hx _ _ ((bears_standing P).mono hcs)

end

section block
variable (target : Kernel.Handle)

theorem still_unmount : Still p (onBlockAct (·.unmount target)) :=
  (within_unmount target).still (by decide)

theorem still_writeOut : Still p (onBlockAct (·.writeOut)) := within_writeOut.still (by decide)

end block

section teardown
variable {P : Standing → Prop}

/-- A teardown vacates the slot, unless it is stale. -/
theorem turns_teardown (target : Kernel.Handle) :
    Turns p (fun v => P (v.perform (.teardown target))) (teardown target) fun _ => P := by
  refine Turns.client fun l => ?_
  split
  case isTrue hne =>
    refine ((peripheral_debug _).still P).weaken fun v hv => ?_
    have hstale : v.target ≠ target := hv.2.target.symm ▸ hne
    rw [← show v.perform (.teardown target) = v from if_neg hstale]
    exact hv.1
  case isFalse heq =>
    have hempty : Turns p (fun v => P v.vacate) (do
        Act.modifyClient fun l =>
          { l with
            target := .null
            exitPending := false
            exeLoad := .unset
            block := l.block.resetSwap
            uiBlocked := false }
        Act.setWord .event Handshake.ok
        transition .empty
        record (.teardownDone target)) fun _ => P := by
      refine .bind (turns_modify (R := fun v => P (v.move .empty)) (fun _ => rfl) fun m hm => hm) ?_
      intro _
      refine (peripheral_setWord _ _).still.then fun _ => .bind (turns_transition .empty) fun _ => ?_
      exact (peripheral_record rfl).still P
    refine Act.Maintains.weaken (P := fun v => P v.vacate) ?_ fun v hv => ?_
    · dsimp only
      split
      case' isTrue =>
        refine (still_unmount target).then fun r => ?_
        refine (peripheral_debugRegion _ r).still.then fun _ => ?_
      all_goals
        refine (still_onBlock _).then fun r => (peripheral_debugRegion _ r).still.then fun _ => ?_
        refine (peripheral_call rfl).still.then fun closed => ?_
        exact (peripheral_debugPlatform _ closed).still.then fun _ => hempty
    · have hhost : v.target = target := hv.2.target.trans (Decidable.of_not_not heq)
      rw [← show v.perform (.teardown target) = v.vacate from if_pos hhost]
      exact hv.1

theorem turns_runTasks (tasks : List Task) :
    Turns p (fun v => P (tasks.foldl Standing.perform v)) (runTasks tasks) fun _ => P := by
  induction tasks with
  | nil => exact .pure fun v hv => hv
  | cons task tasks ih =>
    cases task with
    | teardown target =>
      exact .bind (turns_teardown (P := fun v => P (tasks.foldl Standing.perform v)) target) fun _ => ih

theorem turns_runPendingTasks : Turns p (fun v => P v.settle) runPendingTasks fun _ => P := by
  refine Turns.client fun l => ?_
  have hdrain : Turns p (fun v => P v.settle ∧ v.Fits l)
      (Act.modifyClient ({ · with tasks := l.tasks.drain.2 }))
      fun _ v => P (l.tasks.entries.foldl Standing.perform v) := by
    refine turns_modify (fun _ => rfl) fun m hm => ?_
    rw [← show (standing m).tasks = l.tasks from hm.2.tasks]
    exact hm.1
  exact .bind hdrain fun _ => .bind (turns_runTasks _) fun _ => .pure fun v hv => hv

/-- With nothing put off, nothing happens. -/
theorem turns_runPendingTasks_of_idle (hP : ∀ v, P v → v.Idle) :
    Turns p P runPendingTasks fun _ => P := by
  refine turns_runPendingTasks.weaken fun v hv => ?_
  rwa [(hP v hv).settle]

end teardown

section load
variable {target : Kernel.Handle} {v : Standing}

theorem still_inject : Still p (inject target) := (within_inject target).still (by decide)

theorem turns_finishLoad {P : Standing → Prop} (noFlash : Bool) :
    Turns p (fun v => P (v.move .running)) (finishLoad target noFlash) fun _ => P := by
  have hrun : Turns p (fun v => P (v.move .running)) (transition .running) fun _ => P :=
    turns_transition .running
  exact ensures_finishLoad (central_standing fun v => P (v.move .running)).toCore
    (central_standing P).toCore hrun noFlash

/-- A load that is given up takes the target back. -/
theorem turns_abandonLoad {P : Standing → Prop} (e : Error) :
    Turns p (fun v => P { v with target := .null }) (abandonLoad target e) fun _ => P := by
  refine (still_onBlock _).then fun _ => peripheral_client.still.then fun l => ?_
  refine .bind (turns_modify (R := P) (fun _ => rfl) fun m hm => hm) fun _ => ?_
  refine (peripheral_call rfl).still.then fun _ => (peripheral_debug _).still.then fun _ => ?_
  exact (peripheral_record rfl).still P

/-- A load makes its target run in an empty slot, or changes nothing. -/
theorem turns_load (hv : v.Idle) :
    Turns p (· = v) (load target) fun _ w => w = v ∨ v.state = .empty ∧ w = v.occupy target := by
  refine .bind (turns_runPendingTasks_of_idle fun w hw => hw ▸ hv) fun _ => Turns.client fun l => ?_
  have hrefuse {α : Type} {x : Act Loader (σ × List Sighting) α} (hx : Still p x) :
      Turns p (fun w => w = v ∧ w.Fits l) x fun _ w => w = v ∨ v.state = .empty ∧ w = v.occupy target :=
    (Act.Maintains.weaken (hx _)) fun _ hw => .inl hw.1
  split
  case isTrue =>
    exact hrefuse (.bind (peripheral_debug _).still fun _ => .bind (peripheral_call rfl).still fun _ =>
      .pure _)
  case isFalse hstate =>
    split
    · exact hrefuse (.bind (peripheral_call rfl).still fun closed => by cases closed <;> exact .pure _)
    · refine .of_fact (fun w hw => ?_) fun hempty : v.state = .empty => ?_
      · rw [← hw.1, hw.2.state]
        exact Decidable.of_not_not hstate
      have haim : Turns p (fun w => w = v ∧ w.Fits l) (Act.modifyClient ({ · with target := target }))
          fun _ w => w = { v with target := target } := by
        refine turns_modify (fun _ => rfl) fun m hm => ?_
        rw [← hm.1]
        rfl
      refine (peripheral_setWord _ _).still.then fun _ => .bind haim fun _ => still_inject.then fun answer => ?_
      cases answer with
      | ok noFlash =>
        refine .bind (Q := fun _ w => w = v.occupy target) ((turns_finishLoad noFlash).weaken ?_) ?_
        · rintro w rfl
          rfl
        · exact fun _ => .pure fun w hw => .inr ⟨hempty, hw⟩
      | error e =>
        refine .bind (Q := fun _ w => w = v) ((turns_abandonLoad e).weaken ?_) ?_
        · rintro w rfl
          rw [← hv.target hempty]
        · exact fun _ => .pure fun w hw => .inl hw

end load

section notification
variable {P : Standing → Prop} {v : Standing}

/-- Swap-out ends with the next state, whatever fails. -/
theorem turns_swapOut : Turns p (fun v => P (v.move .swapped)) swapOut fun _ => P := by
  refine peripheral_client.still.then fun l => (still_call (by nofun)).then fun answer => ?_
  cases answer
  all_goals
    refine (peripheral_debug _).still.then fun _ => (still_unmount l.target).then fun r => ?_
    refine (peripheral_debugRegion _ r).still.then fun _ => still_writeOut.then fun written => ?_
    cases written with
    | ok _ =>
      refine (still_onBlock _).then fun r => (peripheral_debugRegion _ r).still.then fun _ => ?_
      exact turns_transition .swapped
    | error e =>
      refine (peripheral_debug _).still.then fun _ => ?_
      exact .bind (turns_transition .swapped) fun _ => (peripheral_record rfl).still P

theorem still_restore (target : Kernel.Handle) : Still p (restore target) :=
  (within_restore target).still (by decide)

theorem turns_swapIn : Turns p (· = v) swapIn fun _ w => w = v ∨ w = v.move .running := by
  refine peripheral_client.still.then fun l => (still_restore l.target).then fun answer => ?_
  cases answer with
  | error e =>
    refine (peripheral_debug _).still.then fun _ => (peripheral_record rfl).still.then fun _ => ?_
    exact .pure fun w hw => .inl hw
  | ok _ =>
    have hrun : Turns p (· = v) (do transition .running; pure true) fun _ w => w = v ∨ w = v.move .running :=
      .bind ((turns_transition (P := (· = v.move .running)) .running).weaken fun w hw => hw ▸ rfl)
        fun _ => .pure fun w hw => .inr hw
    refine (still_call (by nofun)).then fun unlocked => ?_
    cases unlocked <;> exact (peripheral_debug _).still.then fun _ => hrun

theorem turns_unexpected {Q : Except Error Unit → Standing → Prop} (word : UInt32)
    (hQ : ∀ v, P v → Q (.error .unexpectedNotification) v) : Turns p P (unexpected word) Q :=
  (peripheral_debug _).still.then fun _ => (peripheral_record rfl).still.then fun _ => .pure hQ

/-- No host can exit that there is not. -/
theorem turns_onExit_of_empty (hs : v.state = .empty) (word : UInt32) :
    Turns p (· = v) (onExit word) fun r w => r = .error .unexpectedNotification ∧ w = v := by
  refine Turns.client fun l => .of_fact (fun w hw => ?_) fun hl : l.state = .empty => ?_
  · rw [← hw.2.state, hw.1, hs]
  · rw [if_pos hl]
    exact turns_unexpected word fun w hw => ⟨rfl, hw.1⟩

/-- The teardown is put off. -/
theorem turns_onExit (hv : v.Idle) (hs : v.state ≠ .empty) (word : UInt32) :
    Turns p (· = v) (onExit word) fun r w =>
      r = .ok () ∧ w = { v with exitPending := true, tasks := ⟨[.teardown v.target]⟩ } := by
  refine Turns.client fun l => ?_
  refine .of_fact (fun w hw => ?_)
    fun hl : l.state ≠ .empty ∧ l.exitPending = false ∧ l.target = v.target => ?_
  · obtain ⟨rfl, hfits⟩ := hw
    exact ⟨hfits.state ▸ hs, hfits.exitPending.symm.trans hv.exitPending, hfits.target.symm⟩
  have hqueue : Turns p (· = v) (do
      Act.modifyClient fun now =>
        { now with exitPending := true, tasks := (now.tasks.push (.teardown l.target)).2 }
      record (.teardownQueued l.target)
      pure (.ok ())) fun (r : Except Error Unit) w =>
        r = .ok () ∧ w = { v with exitPending := true, tasks := ⟨[.teardown v.target]⟩ } := by
    refine .bind (turns_modify (fun _ => rfl) fun m hm => ?_) fun _ =>
      (peripheral_record rfl).still.then fun _ => .pure fun w hw => ⟨rfl, hw⟩
    have htasks : m.client.tasks = .empty := (congrArg Standing.tasks hm).trans hv.tasks
    rw [← hm]
    show { standing m with
      exitPending := true, tasks := (m.client.tasks.push (.teardown l.target)).2 } = _
    rw [htasks, hl.2.2, ← hm]
    rfl
  rw [if_neg hl.1, if_neg (Bool.eq_false_iff.mp hl.2.1)]
  refine .weaken (P := (· = v)) ?_ fun w hw => hw.1
  dsimp only
  split
  · exact (peripheral_shakeHands _ _ _).still.then fun _ => hqueue
  · exact hqueue

theorem turns_onSwap (hv : v.Idle) (word : UInt32) :
    Turns p (· = v) (onSwap word) fun r w =>
      v.state = .empty ∧ r = .error .unexpectedNotification ∧ w = v ∨
      v.state = .running ∧ r = .ok () ∧ w = v.move .swapped ∨
      v.state = .swapped ∧ r = .ok () ∧ (w = v ∨ w = v.move .running) := by
  refine Turns.client fun l => ?_
  refine .of_fact (fun w hw => ?_) fun hl : l.exitPending = false ∧ l.state = v.state => ?_
  · obtain ⟨rfl, hfits⟩ := hw
    exact ⟨hfits.exitPending.symm.trans hv.exitPending, hfits.state.symm⟩
  refine .weaken (P := (· = v)) ?_ fun w hw => hw.1
  rw [if_neg (Bool.eq_false_iff.mp hl.1), hl.2]
  split
  case h_1 hempty =>
    exact turns_unexpected word fun w hw => .inl ⟨hempty, rfl, hw⟩
  case h_2 hrunning =>
    refine (peripheral_shakeHands _ _ _).still.then fun _ => ?_
    refine .bind ((turns_swapOut (P := (· = v.move .swapped))).weaken fun w hw => hw ▸ rfl) fun _ => ?_
    exact .pure fun w hw => .inr (.inl ⟨hrunning, rfl, hw⟩)
  case h_3 hswapped =>
    refine .bind turns_swapIn fun back => ?_
    split
    · refine (peripheral_notify _ _).still.then fun told => ?_
      refine (peripheral_debugPlatform _ told).still.then fun _ => ?_
      exact .pure fun w hw => .inr (.inr ⟨hswapped, rfl, hw⟩)
    · exact .pure fun w hw => .inr (.inr ⟨hswapped, rfl, hw⟩)

theorem turns_handleNotification (hv : v.Idle) :
    Turns p (· = v) handleNotification (Standing.Notified v) := by
  have hrest (result : Except Error Unit) :
      Turns p (fun w => Standing.Notified v result w.settle) (do
        Act.call (.publish lifecycleHandled)
        let _ ← runPendingTasks
        pure result) (Standing.Notified v) :=
    (peripheral_call rfl).still.then fun _ =>
      .bind (turns_runPendingTasks (P := Standing.Notified v result)) fun _ => .pure fun w hw => hw
  have hsettled := hv.consume.settle
  have hconsume : Turns p (· = v) (Act.setStatus (Status.stateOf v.status)) fun _ => (· = v.consume) :=
    turns_setStatus_eq _
  refine Turns.status (.bind hconsume fun _ => ?_)
  dsimp only
  split
  case isTrue hnone =>
    refine .bind (.pure fun w hw => ?_) hrest
    rw [hw, hsettled]
    exact .nothing hnone
  case isFalse hsome =>
    split
    case isTrue hexit =>
      by_cases hs : v.state = .empty
      · refine .bind (turns_onExit_of_empty (v := v.consume) hs v.status) fun r => ?_
        refine (hrest r).weaken fun w hw => ?_
        rw [hw.1, hw.2, hsettled]
        exact .unexpected hsome (.inl hs)
      · refine .bind (turns_onExit hv.consume hs v.status) fun r => (hrest r).weaken fun w hw => ?_
        rw [hw.1, hw.2, hv.consume.settle_leaving]
        exact .exited hexit hs
    case isFalse hexit =>
      split
      case isTrue hswap =>
        refine .bind (turns_onSwap hv.consume v.status) fun r => (hrest r).weaken fun w hw => ?_
        obtain ⟨hempty, rfl, rfl⟩ | ⟨hrunning, rfl, rfl⟩ | ⟨hswapped, rfl, rfl | rfl⟩ := hw
        · rw [hsettled]
          exact .unexpected hsome (.inl hempty)
        · rw [(hv.consume.move .swapped nofun).settle]
          exact .swappedOut hswap hrunning
        · rw [hsettled]
          exact .stillOut hswap hswapped
        · rw [(hv.consume.move .running nofun).settle]
          exact .swappedIn hswap hswapped
      case isFalse hswap =>
        refine .bind (turns_unexpected _ fun w hw => ?_) hrest
        rw [hw, hsettled]
        exact .unexpected hsome (.inr ⟨hexit, hswap⟩)

end notification

end Loader
end PluginSlot
