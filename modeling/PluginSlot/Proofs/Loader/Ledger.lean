import PluginSlot.Proofs.Loader.Sighting

/-!
A ledger of the calls about the plugin's memory and threads, kept from outside by somebody who knows
nothing but the calls and their answers, and the order in which such calls are safe: memory is not
mapped twice, nor written out while it is mapped, nor taken away from threads that run.
-/
namespace PluginSlot
open Platform Loader Kernel

structure Ledger where
  /-- The mapping that is in place: its process and its length. -/
  mapped : Option (Handle × Nat)
  /-- The image that was written out and not brought back: its file and its length. -/
  written : Option (String × Nat)
  /-- The latest call about threads. -/
  schedule : Option (Handle × ScheduleMode)
  /-- The current operation is a shutdown. -/
  shuttingDown : Bool
  /-- The current operation has begun to tear a plugin down. -/
  tearing : Bool
  /-- Some unmapping was refused. -/
  refused : Bool

namespace Ledger

def initial : Ledger := ⟨none, none, none, false, false, false⟩

/-- Enter a call, made in a state of the slot and perhaps with the host about to exit. An unmapping
is part of a teardown if the host exits or the loader shuts down; when the empty slot is published,
what was written out is given up. -/
def enter (e : Ledger) (state : SlotState) (exitPending : Bool) (c : Call) (a : c.Answer) : Ledger :=
  match c, a with
  | .map target length, .ok _ => { e with mapped := some (target, length) }
  | .unmap _ _, .ok _ =>
    { e with mapped := none, tearing := e.tearing || exitPending || e.shuttingDown }
  | .unmap _ _, .error _ =>
    { e with tearing := e.tearing || exitPending || e.shuttingDown, refused := true }
  | .writeSwap filename _ data, .ok _ => { e with written := some (filename, data.length) }
  | .writeSwap _ _ _, .error _ => { e with written := none }
  | .readSwap _ _ length, .ok data => if data.length = length then { e with written := none } else e
  | .schedule target mode, _ => { e with schedule := some (target, mode) }
  | .writeStatus _, _ => if state = .empty then { e with written := none } else e
  | _, _ => e

/-- When a call may be made. -/
def Permits (e : Ledger) : Call → Prop
  | .map _ _ => e.mapped = none
  | .unmap target length => e.mapped = some (target, length)
  | .writeSwap _ _ _ => e.mapped = none
  | .readSwap filename _ length => e.mapped = none ∧ e.written = some (filename, length)
  | .schedule target .unlock => ∃ length, e.mapped = some (target, length)
  | _ => True

/-- The threads of a plugin that is loaded, but not mapped, were held last. -/
def Restrained (e : Ledger) (state : SlotState) (target : Handle) : Prop :=
  state ≠ .empty → e.mapped = none → e.schedule = some (target, .lock)

end Ledger

def ledger : List Sighting → Ledger
  | [] => .initial
  | .begun op :: earlier =>
    { ledger earlier with shuttingDown := op = .shutdown, tearing := false }
  | .called l c a :: earlier => (ledger earlier).enter l.state l.exitPending c a

/-- Every call was permitted at its time, and made with the threads of a plugin that is not mapped
held, unless it was being torn down. -/
def Orderly (trace : List Sighting) : Prop :=
  ∀ l c a earlier, .called l c a :: earlier <:+ trace →
    (ledger earlier).Permits c ∧
      ((ledger earlier).tearing = false → (ledger earlier).Restrained l.state l.target)

theorem orderly_nil : Orderly [] := fun _ _ _ _ h => nomatch List.suffix_nil.mp h

theorem orderly_begun {op : Service.Operation} {earlier : List Sighting} (h : Orderly earlier) :
    Orderly (.begun op :: earlier) := by
  intro l c a before hbefore
  obtain heq | hbefore := List.suffix_cons_iff.mp hbefore
  · cases heq
  · exact h l c a before hbefore

theorem orderly_called {l : Loader} {c : Call} {a : c.Answer} {earlier : List Sighting}
    (h : Orderly earlier) (hc : (ledger earlier).Permits c)
    (hl : (ledger earlier).tearing = false → (ledger earlier).Restrained l.state l.target) :
    Orderly (.called l c a :: earlier) := by
  intro l' c' a' before hbefore
  obtain heq | hbefore := List.suffix_cons_iff.mp hbefore
  · cases heq
    exact ⟨hc, hl⟩
  · exact h l' c' a' before hbefore

/-- A call that does not concern the ledger. -/
def Platform.Call.isUnlisted : Call → Bool
  | .map _ _ | .unmap _ _ | .writeSwap _ _ _ | .readSwap _ _ _ => false
  | .schedule _ _ | .writeStatus _ => false
  | _ => true

theorem Ledger.enter_of_unlisted {c : Call} (hc : c.isUnlisted = true) (e : Ledger)
    (state : SlotState) (exitPending : Bool) (a : c.Answer) : e.enter state exitPending c a = e := by
  cases c with
  | map _ _ | unmap _ _ | writeSwap _ _ _ | readSwap _ _ _ => cases hc
  | schedule _ _ | writeStatus _ => cases hc
  | _ => rfl

theorem Ledger.permits_of_unlisted {c : Call} (hc : c.isUnlisted = true) (e : Ledger) :
    e.Permits c := by
  cases c with
  | map _ _ | unmap _ _ | writeSwap _ _ _ | readSwap _ _ _ => cases hc
  | schedule _ _ => cases hc
  | _ => trivial

namespace Loader

/-- How the loader conducts itself: its slot and the ledger. -/
structure Conduct where
  state : SlotState
  target : Handle
  placement : Region.Placement
  exitPending : Bool
  tasks : TaskQueue
  ledger : Ledger

namespace Conduct

/-- After a call. -/
def enter (v : Conduct) (c : Call) (a : c.Answer) : Conduct :=
  { v with ledger := v.ledger.enter v.state v.exitPending c a }

/-- A plugin that is not mapped is held, or being torn down. -/
def Careful (v : Conduct) : Prop :=
  v.ledger.tearing = false → v.ledger.Restrained v.state v.target

end Conduct

variable {σ α β : Type} {p : Platform σ}

def conduct (m : Machine Loader (σ × List Sighting)) : Conduct where
  state := m.client.state
  target := m.client.target
  placement := m.client.block.placement
  exitPending := m.client.exitPending
  tasks := m.client.tasks
  ledger := ledger m.platform.2

/-- Nothing has been out of order, nor is it now. -/
structure Proper (m : Machine Loader (σ × List Sighting)) : Prop where
  orderly : Orderly m.platform.2
  careful : (conduct m).Careful

/-- What a computation brings about, all its calls being in order. -/
abbrev Heeds (p : Platform σ) (P : Conduct → Prop) (x : Act Loader (σ × List Sighting) α)
    (Q : α → Conduct → Prop) : Prop :=
  x.Maintains (watch p) Proper conduct P Q

/-- A call has to be permitted, and the plugin held after it. -/
theorem heeds_call {P : Conduct → Prop} {c : Call} {Q : c.Answer → Conduct → Prop}
    (hc : ∀ v, v.Careful → P v → v.ledger.Permits c)
    (hQ : ∀ v a, v.Careful → P v → (v.enter c a).Careful ∧ Q a (v.enter c a)) :
    Heeds p P (Act.call c) Q := by
  intro m ⟨hm, hP⟩
  obtain ⟨hcareful, hafter⟩ := hQ _ (p.answer c m.platform.1).1 hm.careful hP
  exact ⟨⟨orderly_called hm.orderly (hc _ hm.careful hP) hm.careful, hcareful⟩, hafter⟩

theorem heeds_unlisted {P : Conduct → Prop} {c : Call} (hc : c.isUnlisted = true) :
    Heeds p P (Act.call c) fun _ => P := by
  refine heeds_call (fun v _ _ => v.ledger.permits_of_unlisted hc) fun v a hv hP => ?_
  rw [Conduct.enter, v.ledger.enter_of_unlisted hc]
  exact ⟨hv, hP⟩

theorem heeds_record {P : Conduct → Prop} (event : Event) :
    Heeds p P (record event) fun _ => P := by
  intro m hm
  have hclock : Heeds p P (Act.call .now) fun _ => P := heeds_unlisted rfl
  exact (hclock m hm).imp (fun h => ⟨h.orderly, h.careful⟩) id

theorem central_conduct (P : Conduct → Prop) :
    Central (watch p) fun m => Proper m ∧ P (conduct m) := by
  constructor
  · constructor
    · intro c hc
      apply heeds_unlisted
      cases c <;> first | rfl | cases hc
    · exact fun _ _ hm => ⟨⟨hm.1.orderly, hm.1.careful⟩, hm.2⟩
    · exact fun event _ => heeds_record event
  · intro m l hstate htarget hplacement hexit htasks _ ⟨⟨horderly, hcareful⟩, hm⟩
    have hsame : conduct { m with client := l } = conduct m := by
      simp only [conduct, hstate, htarget, hplacement, hexit, htasks]
    exact ⟨⟨horderly, hsame ▸ hcareful⟩, hsame ▸ hm⟩

section
variable {P R : Conduct → Prop} {Q : α → Conduct → Prop} {S : β → Conduct → Prop}
  {x : Act Loader (σ × List Sighting) α} {g : α → Act Loader (σ × List Sighting) β}

theorem Peripheral.heeds (hx : Peripheral (watch p) x) : Heeds p P x fun _ => P :=
  hx _ (central_conduct P).toCore

theorem Marginal.heeds (hx : Marginal (watch p) x) : Heeds p P x fun _ => P :=
  hx _ (central_conduct P)

/-- Something comes first that does not concern the conduct. -/
theorem Peripheral.first (hx : Peripheral (watch p) x) (hg : ∀ a, Heeds p P (g a) S) :
    Heeds p P (x >>= g) S := .bind hx.heeds hg

/-- What the loader knows of its conduct. -/
structure Conduct.Fits (v : Conduct) (l : Loader) : Prop where
  state : v.state = l.state
  target : v.target = l.target
  placement : v.placement = l.block.placement
  exitPending : v.exitPending = l.exitPending
  tasks : v.tasks = l.tasks

theorem Heeds.client {g : Loader → Act Loader (σ × List Sighting) β}
    (hg : ∀ l, Heeds p (fun v => P v ∧ v.Fits l) (g l) S) : Heeds p P (Act.client >>= g) S :=
  fun m hm => hg m.client m ⟨hm.1, hm.2, rfl, rfl, rfl, rfl, rfl⟩

theorem heeds_modify {e : Loader → Loader}
    (hR : ∀ m : Machine Loader (σ × List Sighting), (conduct m).Careful → P (conduct m) →
      (conduct { m with client := e m.client }).Careful ∧ R (conduct { m with client := e m.client })) :
    Heeds p P (Act.modifyClient e) fun _ => R := by
  intro m hm
  obtain ⟨hcareful, hafter⟩ := hR m hm.1.careful hm.2
  exact ⟨⟨hm.1.orderly, hcareful⟩, hafter⟩

theorem heeds_setStatus {value : UInt32} (hR : ∀ v, P v → R (v.enter (.writeStatus value) ())) :
    Heeds p P (Act.setStatus value) fun _ => R := by
  have hcall : Heeds p P (Act.call (.writeStatus value)) fun _ => R := by
    refine heeds_call (fun _ _ _ => trivial) fun v _ hv hP => ⟨?_, hR v hP⟩
    simp only [Conduct.Careful, Conduct.enter, Ledger.enter]
    split <;> exact hv
  intro m hm
  obtain ⟨⟨horderly, hcareful⟩, hafter⟩ := hcall m hm
  exact ⟨⟨horderly, hcareful⟩, hafter⟩

theorem heeds_onBlock {op : Region.Block → α × Region.Block}
    (hop : ∀ b v, P v → v.placement = b.placement →
      Q (op b).1 { v with placement := (op b).2.placement }) : Heeds p P (onBlock op) Q :=
  fun m hm => ⟨⟨hm.1.orderly, hm.1.careful⟩, hop m.client.block (conduct m) hm.2 rfl⟩

theorem heeds_onBlockAct
    {op : Region.Block → Act Loader (σ × List Sighting) (α × Region.Block)}
    (hop : ∀ b, Heeds p (fun v => P v ∧ v.placement = b.placement) (op b)
      fun r v => Q r.1 { v with placement := r.2.placement }) : Heeds p P (onBlockAct op) Q := by
  intro m hm
  obtain ⟨⟨horderly, hcareful⟩, hafter⟩ := hop m.client.block m ⟨hm.1, hm.2, rfl⟩
  exact ⟨⟨horderly, hcareful⟩, hafter⟩

end

section block
variable {P : Conduct → Prop} {Q : Except Region.Error Unit → Conduct → Prop}

theorem heeds_unchanged {b : Region.Block} {r : Except Region.Error Unit}
    (h : ∀ v, P v → v.placement = b.placement → Q r v) :
    Heeds p (fun v => P v ∧ v.placement = b.placement) (pure (r, b))
      fun r v => Q r.1 { v with placement := r.2.placement } := by
  refine .pure fun v hv => ?_
  rw [← hv.2]
  exact h v hv.1 hv.2

/-- An operation of the memory block makes one call, and its answer decides. -/
theorem heeds_blockCall {b : Region.Block} {c : Call}
    {g : c.Answer → Act Loader (σ × List Sighting) (Except Region.Error Unit × Region.Block)}
    (hc : ∀ v, P v → v.placement = b.placement → v.ledger.Permits c)
    (hQ : ∀ v a, v.Careful → P v → v.placement = b.placement → (v.enter c a).Careful ∧
      ∃ r, g a = pure r ∧ Q r.1 { v.enter c a with placement := r.2.placement }) :
    Heeds p (fun v => P v ∧ v.placement = b.placement) (Act.call c >>= g)
      fun r v => Q r.1 { v with placement := r.2.placement } := by
  let answered (a : c.Answer) (v : Conduct) : Prop :=
    ∃ r, g a = pure r ∧ Q r.1 { v with placement := r.2.placement }
  have hcall : Heeds p (fun v => P v ∧ v.placement = b.placement) (Act.call c) answered :=
    heeds_call (fun v _ hv => hc v hv.1 hv.2) fun v a hcareful hv => hQ v a hcareful hv.1 hv.2
  refine .bind hcall fun a m hm => ?_
  obtain ⟨r, hr, hafter⟩ := hm.2
  rw [hr]
  exact ⟨hm.1, hafter⟩

/-- A region is mapped only while nothing is. -/
theorem heeds_mount {target : Handle}
    (hP : ∀ v data saved, P v → v.placement = .resident data false saved → v.ledger.mapped = none)
    (hok : ∀ v data saved, P v → v.placement = .resident data false saved → Q (.ok ())
      { v.enter (.map target data.length) (.ok ()) with placement := .resident data true saved })
    (hfail : ∀ v e, P v → Q (.error e) v) : Heeds p P (onBlockAct (·.mount target)) Q := by
  refine heeds_onBlockAct fun b => ?_
  rw [Region.Block.mount]
  split
  case h_1 data saved hb =>
    refine heeds_blockCall (fun v hv hplace => hP v data saved hv (hplace.trans hb)) ?_
    intro v a hcareful hv hplace
    cases a with
    | ok _ =>
      refine ⟨fun _ _ hnone => ?_, _, rfl, hok v data saved hv (hplace.trans hb)⟩
      cases hnone
    | error e =>
      refine ⟨hcareful, _, rfl, ?_⟩
      rw [← hplace]
      exact hfail v _ hv
  case h_2 => exact heeds_unchanged fun v hv _ => hfail v _ hv

/-- What is mapped is unmapped; if the plugin goes on, its threads have to be held. -/
theorem heeds_unmount {target : Handle} (hP : ∀ v, P v → ∃ data saved,
      v.placement = .resident data true saved ∧ v.ledger.mapped = some (target, data.length))
    (hheld : ∀ v, P v → v.exitPending = true ∨ v.ledger.shuttingDown = true ∨
      v.ledger.schedule = some (v.target, .lock))
    (hok : ∀ v data saved, P v → v.placement = .resident data true saved → Q (.ok ())
      { v.enter (.unmap target data.length) (.ok ()) with placement := .resident data false saved })
    (hfail : ∀ v length e, P v → Q (.error (.platform e)) (v.enter (.unmap target length) (.error e))) :
    Heeds p P (onBlockAct (·.unmount target)) Q := by
  refine heeds_onBlockAct fun b => ?_
  rw [Region.Block.unmount]
  split
  case h_1 data saved hb =>
    refine heeds_blockCall (fun v hv hplace => ?_) fun v a hcareful hv hplace => ?_
    · obtain ⟨data', saved', hplacement, hmapped⟩ := hP v hv
      cases hplacement.symm.trans (hplace.trans hb)
      exact hmapped
    · cases a with
      | ok _ =>
        refine ⟨fun htearing _ _ => ?_, _, rfl, hok v data saved hv (hplace.trans hb)⟩
        obtain hexit | hshutdown | hlock := hheld v hv
        · simp [Conduct.enter, Ledger.enter, hexit] at htearing
        · simp [Conduct.enter, Ledger.enter, hshutdown] at htearing
        · exact hlock
      | error e =>
        refine ⟨fun htearing => hcareful ?_, _, rfl, ?_⟩
        · simp only [Conduct.enter, Ledger.enter, Bool.or_eq_false_iff] at htearing
          exact htearing.1.1
        · rw [← hplace]
          exact hfail v data.length e hv
  case h_2 hb =>
    refine heeds_unchanged fun v hv hplace => ?_
    obtain ⟨data, saved, hplacement, -⟩ := hP v hv
    exact absurd (hplace.symm.trans hplacement) (hb data saved)

/-- A region is written out only while nothing is mapped. -/
theorem heeds_writeOut
    (hP : ∀ v data saved, P v → v.placement = .resident data false saved → v.ledger.mapped = none)
    (hok : ∀ v data saved settings, P v → v.placement = .resident data false saved → Q (.ok ())
      { v with
        placement := .resident data false (some settings)
        ledger := { v.ledger with written := some (settings.filename, data.length) } })
    (hfail : ∀ v e, P v → Q (.error e) v)
    (hlost : ∀ v e, P v → Q (.error (.platform e)) { v with ledger := { v.ledger with written := none } }) :
    Heeds p P (onBlockAct (·.writeOut)) Q := by
  refine heeds_onBlockAct fun b => ?_
  rw [Region.Block.writeOut]
  split
  case h_1 data saved hb =>
    split
    · exact heeds_unchanged fun v hv _ => hfail v _ hv
    · split
      · exact heeds_unchanged fun v hv _ => hfail v _ hv
      · refine heeds_blockCall (fun v hv hplace => hP v data saved hv (hplace.trans hb)) ?_
        intro v a hcareful hv hplace
        cases a with
        | ok _ => exact ⟨hcareful, _, rfl, hok v data saved b.swap hv (hplace.trans hb)⟩
        | error e =>
          refine ⟨hcareful, _, rfl, ?_⟩
          rw [← hplace]
          exact hlost v e hv
  case h_2 => exact heeds_unchanged fun v hv _ => hfail v _ hv

/-- An image is read back only while nothing is mapped, and only if it is there. -/
theorem heeds_readBack
    (hP : ∀ v length saved, P v → v.placement = .swappedOut length saved →
      v.ledger.mapped = none ∧ v.ledger.written = some (saved.filename, length))
    (hok : ∀ v (data : List UInt8) saved, P v → v.placement = .swappedOut data.length saved → Q (.ok ())
      { v with
        placement := .resident data false (some saved)
        ledger := { v.ledger with written := none } })
    (hfail : ∀ v e, P v → Q (.error e) v) : Heeds p P (onBlockAct (·.readBack)) Q := by
  refine heeds_onBlockAct fun b => ?_
  rw [Region.Block.readBack]
  split
  case h_1 length saved hb =>
    refine heeds_blockCall (fun v hv hplace => hP v length saved hv (hplace.trans hb)) ?_
    intro v a hcareful hv hplace
    cases a with
    | error e =>
      refine ⟨hcareful, _, rfl, ?_⟩
      rw [← hplace]
      exact hfail v _ hv
    | ok data =>
      by_cases hlength : data.length = length
      · subst hlength
        have hread := hok v data saved hv (hplace.trans hb)
        simp only [Conduct.enter, Ledger.enter, if_true]
        exact ⟨hcareful, _, rfl, hread⟩
      · simp only [Conduct.enter, Ledger.enter, hlength, if_false]
        refine ⟨hcareful, _, rfl, ?_⟩
        rw [← hplace]
        exact hfail v _ hv
  case h_2 => exact heeds_unchanged fun v hv _ => hfail v _ hv

end block

end Loader
end PluginSlot
