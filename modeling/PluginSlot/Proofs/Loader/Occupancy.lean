import PluginSlot.Proofs.Loader.Custody
import PluginSlot.Proofs.Loader.Periphery

/-!
Who occupies the slot, and where the plugin's memory is. What an operation of the memory block does
to the place of its region is said once for each; a teardown is made of them.
-/
namespace PluginSlot
open Platform

/-- Where a region is, whatever its contents. -/
inductive Region.Place where
  | nowhere
  | unmounted
  | mounted
  | swappedOut
deriving DecidableEq, Repr

def Region.Placement.place : Region.Placement → Region.Place
  | .free => .nowhere
  | .resident _ false _ => .unmounted
  | .resident _ true _ => .mounted
  | .swappedOut _ _ => .swappedOut

namespace Region

theorem Placement.place_eq_mounted {placement : Placement} :
    placement.place = .mounted ↔ ∃ data saved, placement = .resident data true saved := by
  cases placement with
  | resident data mounted saved => cases mounted <;> simp [place]
  | _ => simp [place]

theorem Placement.place_eq_nowhere {placement : Placement} :
    placement.place = .nowhere ↔ placement = .free := by
  cases placement with
  | resident data mounted saved => cases mounted <;> simp [place]
  | _ => simp [place]

theorem Block.isMounted_iff (b : Block) : b.isMounted = true ↔ b.placement.place = .mounted := by
  unfold isMounted
  cases b.placement with
  | resident data mounted saved => cases mounted <;> simp [Placement.place]
  | _ => simp [Placement.place]

theorem Block.isFree_iff (b : Block) : b.isFree = true ↔ b.placement.place = .nowhere := by
  unfold isFree
  cases b.placement with
  | resident data mounted saved => cases mounted <;> simp [Placement.place]
  | _ => simp [Placement.place]

/-- An edit changes contents only. -/
theorem Block.place_edit (b : Block) (change : Option (Nat × UInt8)) :
    (b.edit change).2.placement.place = b.placement.place := by
  unfold edit
  cases hb : b.placement with
  | resident data mounted saved => cases mounted <;> rfl
  | _ => simp [hb]

end Region

/-- An unmapping that the platform refused. -/
def Observation.isFailedUnmap : Observation → Bool
  | .answered (.unmap _ _) (.error _) => true
  | _ => false

namespace Loader

structure Occupancy where
  state : SlotState
  target : Kernel.Handle
  place : Region.Place
  exitPending : Bool
  tasks : TaskQueue
  /-- Some unmapping was refused. -/
  unmapFailed : Bool

variable {σ α β : Type} {p : Platform σ}

/-- The loader on a platform that writes down its answers. -/
abbrev recorder (p : Platform σ) : Handler Loader (σ × List Observation) := handler (recorded p)

def occupancy (m : Machine Loader (σ × List Observation)) : Occupancy where
  state := m.client.state
  target := m.client.target
  place := m.client.block.placement.place
  exitPending := m.client.exitPending
  tasks := m.client.tasks
  unmapFailed := m.platform.2.any (·.isFailedUnmap)

/-- What a computation brings about, in terms of the occupancy of the slot. -/
abbrev Leads (p : Platform σ) (P : Occupancy → Prop)
    (x : Act Loader (σ × List Observation) α) (Q : α → Occupancy → Prop) : Prop :=
  x.Assures (recorder p) occupancy P Q

/-- A computation that does not change the occupancy. -/
abbrev Steady (p : Platform σ) (x : Act Loader (σ × List Observation) α) : Prop :=
  x.Keeps (recorder p) occupancy

theorem steady_call {c : Call} (hc : ∀ target length, c ≠ .unmap target length) :
    Steady p (Act.call c : Act Loader (σ × List Observation) c.Answer) := by
  intro m
  cases c with
  | unmap target length => exact absurd rfl (hc target length)
  | _ => rfl

theorem internal_occupancy (P : Occupancy → Prop) :
    Internal (recorder p) fun m => P (occupancy m) := by
  apply Internal.of
  · exact fun c hc => .of_keeps (steady_call (by rintro target length rfl; cases hc)) P
  · exact fun _ _ hm => hm
  · exact fun _ _ hm => hm
  · exact fun _ _ hm => hm

theorem central_occupancy (P : Occupancy → Prop) :
    Central (recorder p) fun m => P (occupancy m) := by
  constructor
  · exact (internal_occupancy P).toCore
  · intro m l hstate htarget hplacement hexit htasks _ hm
    have hsame : occupancy { m with client := l } = occupancy m := by
      simp only [occupancy, hstate, htarget, hplacement, hexit, htasks]
    rwa [hsame]

theorem Peripheral.steady {x : Act Loader (σ × List Observation) α}
    (hx : Peripheral (recorder p) x) : Steady p x :=
  hx.keeps fun v => (internal_occupancy (· = v)).toCore

theorem Marginal.steady {x : Act Loader (σ × List Observation) α}
    (hx : Marginal (recorder p) x) : Steady p x := hx.keeps fun v => central_occupancy (· = v)

theorem steady_setStatus (value : UInt32) :
    Steady p (Act.setStatus value : Act Loader (σ × List Observation) _) :=
  fun m => (internal_occupancy (· = occupancy m)).status value m rfl

theorem steady_record (event : Event) :
    Steady p (record event : Act Loader (σ × List Observation) _) :=
  fun m => (internal_occupancy (· = occupancy m)).journal event m rfl

section
variable {P R : Occupancy → Prop} {Q : α → Occupancy → Prop} {S : β → Occupancy → Prop}

/-- What the loader knows of its occupancy. -/
structure Occupancy.Fits (v : Occupancy) (l : Loader) : Prop where
  state : v.state = l.state
  target : v.target = l.target
  place : v.place = l.block.placement.place
  exitPending : v.exitPending = l.exitPending
  tasks : v.tasks = l.tasks

/-- One thing if it succeeds, and another if it fails. -/
def Ends {ε : Type} (succeeded failed : Occupancy → Prop) : Except ε α → Occupancy → Prop
  | .ok _ => succeeded
  | .error _ => failed

theorem Leads.client {g : Loader → Act Loader (σ × List Observation) β}
    (hg : ∀ l, Leads p (fun v => P v ∧ v.Fits l) (g l) S) : Leads p P (Act.client >>= g) S :=
  fun m hm => hg m.client m ⟨hm, rfl, rfl, rfl, rfl, rfl⟩

theorem leads_modify {e : Loader → Loader}
    (he : ∀ m : Machine Loader (σ × List Observation), P (occupancy m) →
      R (occupancy { m with client := e m.client })) :
    Leads p P (Act.modifyClient e) fun _ => R := he

theorem leads_onBlock {op : Region.Block → α × Region.Block}
    (hop : ∀ b v, P v → v.place = b.placement.place →
      Q (op b).1 { v with place := (op b).2.placement.place }) :
    Leads p P (onBlock op) Q := fun m hm => hop m.client.block (occupancy m) hm rfl

theorem leads_onBlockAct
    {op : Region.Block → Act Loader (σ × List Observation) (α × Region.Block)}
    (hop : ∀ b, Leads p (fun v => P v ∧ v.place = b.placement.place) (op b)
      fun r v => Q r.1 { v with place := r.2.placement.place }) :
    Leads p P (onBlockAct op) Q := fun m hm => hop m.client.block m ⟨hm, rfl⟩

theorem leads_transition (state : SlotState) :
    Leads p (fun v => P { v with state := state }) (transition state) fun _ => P := by
  apply Leads.client
  intro l
  apply Act.Assures.bind (leads_modify (R := P) fun m hm => hm.1)
  intro _
  apply (steady_setStatus _).then
  intro _
  exact (steady_record _).assures

end

section block
variable {P : Occupancy → Prop} {Q : Except Region.Error Unit → Occupancy → Prop}

theorem leads_unmountCall {target : Kernel.Handle} {length : Nat}
    {Q : Except Platform.Error Unit → Occupancy → Prop} (hok : ∀ v, P v → Q (.ok ()) v)
    (hfail : ∀ v e, P v → Q (.error e) { v with unmapFailed := true }) :
    Leads p P (Act.call (.unmap target length)) Q := by
  intro m hm
  have hanswer : Act.call (.unmap target length) (recorder p) m =
      ((p.answer (.unmap target length) m.platform.1).1, { m with
        platform := ((p.answer (.unmap target length) m.platform.1).2,
          .answered (.unmap target length) (p.answer (.unmap target length) m.platform.1).1 ::
            m.platform.2) }) := rfl
  rw [hanswer]
  cases (p.answer (.unmap target length) m.platform.1).1 with
  | ok _ => exact hok _ hm
  | error e => exact hfail _ e hm

theorem leads_unchanged {b : Region.Block} {r : Except Region.Error Unit}
    (h : ∀ v, P v → v.place = b.placement.place → Q r v) :
    Leads p (fun v => P v ∧ v.place = b.placement.place) (pure (r, b))
      fun r v => Q r.1 { v with place := r.2.placement.place } := by
  apply Act.Assures.pure
  intro v hv
  rw [← hv.2]
  exact h v hv.1 hv.2

/-- Only a mounted region is unmounted, and it stays mounted if the platform refuses. -/
theorem leads_unmount (target : Kernel.Handle)
    (hok : ∀ v, P v → v.place = .mounted → Q (.ok ()) { v with place := .unmounted })
    (hfail : ∀ v e, P v → v.place = .mounted → Q (.error e) { v with unmapFailed := true })
    (hnot : ∀ v e, P v → v.place ≠ .mounted → Q (.error e) v) :
    Leads p P (onBlockAct (·.unmount target)) Q := by
  apply leads_onBlockAct
  intro b
  rw [Region.Block.unmount]
  split
  case h_1 data saved hb =>
    have hplace : b.placement.place = .mounted := by rw [hb]; rfl
    let called (r : Except Platform.Error Unit) (v : Occupancy) : Prop :=
      v.place = .mounted ∧ (r = .ok () → Q (.ok ()) { v with place := .unmounted }) ∧
        ∀ e, r = .error e → Q (.error (.platform e)) v
    have hcall : Leads p (fun v => P v ∧ v.place = b.placement.place)
        (Act.call (.unmap target data.length)) called := by
      apply leads_unmountCall
      · intro v hv
        have hmounted := hv.2.trans hplace
        exact ⟨hmounted, fun _ => hok v hv.1 hmounted, by simp⟩
      · intro v e hv
        have hmounted := hv.2.trans hplace
        refine ⟨hmounted, by simp, fun e' he => ?_⟩
        cases he
        exact hfail v _ hv.1 hmounted
    apply Act.Assures.bind hcall
    intro answer
    cases answer with
    | error e =>
      apply Act.Assures.pure
      intro v hv
      rw [hplace, ← hv.1]
      exact hv.2.2 e rfl
    | ok _ => exact .pure fun v hv => hv.2.1 rfl
  case h_2 hb =>
    apply leads_unchanged
    intro v hv hplace
    apply hnot v _ hv
    rw [hplace]
    intro hmounted
    obtain ⟨data, saved, hresident⟩ := Region.Placement.place_eq_mounted.mp hmounted
    exact hb data saved hresident

/-- Only an unmounted region is mounted. -/
theorem leads_mount (target : Kernel.Handle)
    (hok : ∀ v, P v → v.place = .unmounted → Q (.ok ()) { v with place := .mounted })
    (hfail : ∀ v e, P v → Q (.error e) v) :
    Leads p P (onBlockAct (·.mount target)) Q := by
  apply leads_onBlockAct
  intro b
  rw [Region.Block.mount]
  split
  case h_1 data saved hb =>
    apply (steady_call (by intro _ _ hc; cases hc)).then
    intro answer
    cases answer with
    | error e => exact leads_unchanged fun v hv _ => hfail v _ hv
    | ok _ => exact .pure fun v hv => hok v hv.1 (hv.2.trans (by rw [hb]; rfl))
  case h_2 => exact leads_unchanged fun v hv _ => hfail v _ hv

/-- A region that is written out stays where it is, and it was unmounted. -/
theorem leads_writeOut (hok : ∀ v, P v → v.place = .unmounted → Q (.ok ()) v)
    (hfail : ∀ v e, P v → Q (.error e) v) : Leads p P (onBlockAct (·.writeOut)) Q := by
  apply leads_onBlockAct
  intro b
  rw [Region.Block.writeOut]
  split
  case h_1 data saved hb =>
    have hplace : b.placement.place = .unmounted := by rw [hb]; rfl
    split
    · exact leads_unchanged fun v hv _ => hfail v _ hv
    · split
      · exact leads_unchanged fun v hv _ => hfail v _ hv
      · apply (steady_call (by intro _ _ hc; cases hc)).then
        intro answer
        cases answer with
        | error e => exact leads_unchanged fun v hv _ => hfail v _ hv
        | ok _ =>
          apply Act.Assures.pure
          intro v hv
          have hunmounted := hv.2.trans hplace
          show Q (.ok ()) { v with place := .unmounted }
          rw [← hunmounted]
          exact hok v hv.1 hunmounted
  case h_2 => exact leads_unchanged fun v hv _ => hfail v _ hv

/-- Only a region that is swapped out is read back. -/
theorem leads_readBack
    (hok : ∀ v, P v → v.place = .swappedOut → Q (.ok ()) { v with place := .unmounted })
    (hfail : ∀ v e, P v → Q (.error e) v) : Leads p P (onBlockAct (·.readBack)) Q := by
  apply leads_onBlockAct
  intro b
  rw [Region.Block.readBack]
  split
  case h_1 length saved hb =>
    apply (steady_call (by intro _ _ hc; cases hc)).then
    intro answer
    cases answer with
    | error e => exact leads_unchanged fun v hv _ => hfail v _ hv
    | ok data =>
      dsimp only
      split
      · exact .pure fun v hv => hok v hv.1 (hv.2.trans (by rw [hb]; rfl))
      · exact leads_unchanged fun v hv _ => hfail v _ hv
  case h_2 => exact leads_unchanged fun v hv _ => hfail v _ hv

/-- Memory that is mounted is not given up; otherwise it is not mounted afterwards either. -/
theorem leads_free (hok : ∀ v place, P v → v.place ≠ .mounted → place ≠ .mounted →
      Q (.ok ()) { v with place := place })
    (hmounted : ∀ v e, P v → v.place = .mounted → Q (.error e) v) :
    Leads p P (onBlock (·.free)) Q := by
  apply leads_onBlock
  intro b v hv hplace
  rw [Region.Block.free]
  split
  case h_1 hb =>
    rw [← hplace]
    exact hmounted v _ hv (hplace.trans (by rw [hb]; rfl))
  case h_2 hb =>
    exact hok v _ hv (by simp [hplace, hb, Region.Placement.place]) (by simp [Region.Placement.place])
  case h_3 hb =>
    exact hok v _ hv (by simp [hplace, hb, Region.Placement.place]) (by simp [Region.Placement.place])
  case h_4 hb =>
    have hfree : b.placement.place ≠ .mounted := by simp [hb, Region.Placement.place]
    exact hok v _ hv (hplace ▸ hfree) hfree
  case h_5 hb =>
    have hswapped : b.placement.place ≠ .mounted := by simp [hb, Region.Placement.place]
    exact hok v _ hv (hplace ▸ hswapped) hswapped

/-- Memory is forgotten unless it is mounted. -/
theorem leads_discard (hok : ∀ v, P v → v.place ≠ .mounted → Q (.ok ()) { v with place := .nowhere })
    (hmounted : ∀ v e, P v → v.place = .mounted → Q (.error e) v) :
    Leads p P (onBlock (·.discard)) Q := by
  apply leads_onBlock
  intro b v hv hplace
  rw [Region.Block.discard]
  split
  case isTrue hb =>
    rw [← hplace]
    exact hmounted v _ hv (hplace.trans (b.isMounted_iff.mp hb))
  case isFalse hb =>
    apply hok v hv
    rw [hplace]
    exact fun h => hb (b.isMounted_iff.mpr h)

/-- There is room for a region only where there is none. -/
theorem leads_allocate (data : List UInt8)
    (hok : ∀ v, P v → v.place = .nowhere → Q (.ok ()) { v with place := .unmounted })
    (hfail : ∀ v e, P v → v.place ≠ .nowhere → Q (.error e) v) :
    Leads p P (onBlock (·.allocate data)) Q := by
  apply leads_onBlock
  intro b v hv hplace
  rw [Region.Block.allocate]
  split
  case h_1 hb => exact hok v hv (hplace.trans (by rw [hb]; rfl))
  case h_2 hb =>
    rw [← hplace]
    apply hfail v _ hv
    rw [hplace]
    intro hnowhere
    exact hb (Region.Placement.place_eq_nowhere.mp hnowhere)

end block
end Loader
end PluginSlot
