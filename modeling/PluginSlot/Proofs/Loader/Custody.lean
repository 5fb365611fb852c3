import PluginSlot.Platform.SwapStore
import PluginSlot.Proofs.Loader.Periphery

/-!
What the contents of the plugin's memory depend on: where the region is, what the swap store holds
and what was last injected. All that the loader does besides leaves this alone.
-/
namespace PluginSlot
open Platform Loader

/-- Something that happened to the memory, or a call that the platform answered. -/
inductive Observation where
  | answered (c : Call) (a : c.Answer)
  /-- One byte of the region was set through the access that the loader gives. -/
  | edited (index : Nat) (byte : UInt8)

/-- A platform that writes down every call with its answer, latest first. -/
def recorded {σ : Type} (p : Platform σ) : Platform (σ × List Observation) where
  answer c := fun (s, log) =>
    let (a, s) := p.answer c s
    (a, s, .answered c a :: log)

/-- The target of the latest injection that succeeded, and the image it gave, with the edits made
since. -/
def latestImage : List Observation → Option (Kernel.Handle × List UInt8)
  | [] => none
  | .answered (.inject target _ _) (.ok image) :: _ => some (target, image)
  | .answered _ _ :: log => latestImage log
  | .edited index byte :: log => (latestImage log).map fun e => (e.1, e.2.set index byte)

/-- A platform with a swap store, and a record of its answers. -/
abbrev Observed (σ : Type) := (σ × SwapStore) × List Observation

/-- A call that neither injects nor writes to the swap store. -/
def Platform.Call.isAloof : Call → Bool
  | .inject _ _ _ | .writeSwap _ _ _ => false
  | _ => true

theorem Platform.Call.isAloof_of_not_concernsMemory {c : Call} (hc : c.concernsMemory = false) :
    c.isAloof = true := by
  cases c <;> first | rfl | cases hc

structure Custody where
  state : SlotState
  target : Kernel.Handle
  placement : Region.Placement
  file? : String → Option SwapImage
  latest : Option (Kernel.Handle × List UInt8)

namespace Loader
variable {σ α β : Type} {p : Platform σ}

def custody (m : Machine Loader (Observed σ)) : Custody where
  state := m.client.state
  target := m.client.target
  placement := m.client.block.placement
  file? := m.platform.1.2.file?
  latest := latestImage m.platform.2

/-- The loader on a platform with a swap store, as seen from outside. -/
abbrev observer (p : Platform σ) : Handler Loader (Observed σ) := handler (recorded (withStore p))

/-- A computation that has nothing to do with the contents of the region. -/
abbrev Aloof (p : Platform σ) (x : Act Loader (Observed σ) α) : Prop :=
  x.Keeps (observer p) custody

theorem aloof_call {c : Call} (hc : c.isAloof = true) :
    Aloof p (Act.call c : Act Loader (Observed σ) c.Answer) := by
  intro m
  cases c with
  | inject target path config => cases hc
  | writeSwap name address data => cases hc
  | readSwap name address length =>
    have hfile : (m.platform.1.2.read name length).2.file? = m.platform.1.2.file? := by
      funext other
      exact SwapStore.file?_read m.platform.1.2 name length other
    simp only [Act.call, handler, recorded, withStore, custody, latestImage, hfile]
  | _ => rfl

theorem aloof_modify {e : Loader → Loader}
    (he : ∀ l, (e l).state = l.state ∧ (e l).target = l.target ∧
      (e l).block.placement = l.block.placement) :
    Aloof p (Act.modifyClient e : Act Loader (Observed σ) Unit) := by
  refine .modifyClient fun m => ?_
  obtain ⟨hstate, htarget, hplacement⟩ := he m.client
  simp only [custody, hstate, htarget, hplacement]

theorem internal_custody (P : Custody → Prop) : Internal (observer p) fun m => P (custody m) := by
  apply Internal.of
  · exact fun c hc => .of_keeps (aloof_call (c.isAloof_of_not_concernsMemory hc)) P
  · exact fun _ _ hm => hm
  · exact fun _ _ hm => hm
  · exact fun _ _ hm => hm

theorem central_custody (P : Custody → Prop) : Central (observer p) fun m => P (custody m) := by
  constructor
  · exact (internal_custody P).toCore
  · intro m l hstate htarget hplacement _ _ _ hm
    have hsame : custody { m with client := l } = custody m := by
      simp only [custody, hstate, htarget, hplacement]
    rwa [hsame]

theorem Peripheral.aloof {x : Act Loader (Observed σ) α} (hx : Peripheral (observer p) x) :
    Aloof p x := hx.keeps fun v => (internal_custody (· = v)).toCore

theorem Marginal.aloof {x : Act Loader (Observed σ) α} (hx : Marginal (observer p) x) :
    Aloof p x := hx.keeps fun v => central_custody (· = v)

theorem aloof_setStatus (value : UInt32) :
    Aloof p (Act.setStatus value : Act Loader (Observed σ) _) :=
  fun m => (internal_custody (· = custody m)).status value m rfl

theorem aloof_record (event : Event) : Aloof p (record event : Act Loader (Observed σ) _) :=
  fun m => (internal_custody (· = custody m)).journal event m rfl

theorem aloof_onExit (word : UInt32) : Aloof p (onExit word : Act Loader (Observed σ) _) := by
  have hqueue (target : Kernel.Handle) : Aloof p (do
      Act.modifyClient fun now =>
        { now with exitPending := true, tasks := (now.tasks.push (.teardown target)).2 }
      record (.teardownQueued target)
      pure (.ok ()) : Act Loader (Observed σ) (Except Error Unit)) :=
    .bind (aloof_modify fun _ => ⟨rfl, rfl, rfl⟩) fun _ => .bind (aloof_record _) fun _ => .pure _
  refine .bind .client fun l => ?_
  split
  · exact (peripheral_unexpected word).aloof
  · split
    · exact .pure _
    · dsimp only
      split
      · exact .bind (peripheral_shakeHands _ _ _).aloof fun _ => hqueue _
      · exact hqueue _

end Loader
end PluginSlot
