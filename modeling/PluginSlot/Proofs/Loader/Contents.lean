import PluginSlot.Proofs.Loader.Custody
import PluginSlot.Proofs.Region.Lifetime

/-!
The contents of the region through swap-outs and swap-ins. Wherever the region is, it has the image
of the latest injection: in memory, in the file that its own settings name, or in both.
-/
namespace PluginSlot
open Platform Loader

namespace Custody

/-- In some state of the slot, the region has the image that was injected into the target. -/
structure Guards (state : SlotState) (image : List UInt8) (v : Custody) : Prop where
  state : v.state = state
  latest : v.latest = some (v.target, image)
  holds : v.placement.Holds v.file? image

def Mounted (v : Custody) : Prop := ∃ data saved, v.placement = .resident data true saved

/-- A plugin that is loaded has the contents it should have, mounted if it runs. -/
def Sound (v : Custody) : Prop :=
  v.state ≠ .empty → ∃ image, v.Guards v.state image ∧ (v.state = .running → v.Mounted)

/-- What the loader knows of all this. -/
structure Fits (l : Loader) (v : Custody) : Prop where
  state : v.state = l.state
  target : v.target = l.target
  placement : v.placement = l.block.placement

/-- A file was written to the swap store. -/
def written (v : Custody) (name : String) (image : SwapImage) : Custody :=
  { v with file? := fun other => if other = name then some image else v.file? other }

section
variable {v : Custody} {state : SlotState} {image : List UInt8} {placement : Region.Placement}

theorem Guards.holds_at (h : v.Guards state image) (hplace : v.placement = placement) :
    placement.Holds v.file? image := hplace ▸ h.holds

theorem Guards.place (h : v.Guards state image) (hholds : placement.Holds v.file? image) :
    Guards state image { v with placement := placement } := ⟨h.state, h.latest, hholds⟩

theorem Guards.keep (h : v.Guards state image) (hplace : v.placement = placement) :
    Guards state image { v with placement := placement } := h.place (h.holds_at hplace)

end

theorem sound_of_empty {v : Custody} (h : v.state = .empty) : v.Sound := fun hne => absurd h hne

theorem Guards.sound_of_swapped {v : Custody} {image : List UInt8} (h : v.Guards .swapped image) :
    v.Sound := fun _ => ⟨image, by rw [h.state]; exact h, fun hr => by cases h.state.symm.trans hr⟩

theorem Guards.sound_of_running {v : Custody} {image : List UInt8} (h : v.Guards .running image)
    (hm : v.Mounted) : v.Sound := fun _ => ⟨image, by rw [h.state]; exact h, fun _ => hm⟩

theorem file?_written {v : Custody} {image : List UInt8} {other : String}
    (h : (v.file? other).map (·.data) = some image) (name : String) (address : UInt32) :
    ((v.written name ⟨address, image⟩).file? other).map (·.data) = some image := by
  by_cases hname : other = name
  · simp [written, hname]
  · simpa [written, hname] using h

/-- To write the image once more harms no file. -/
theorem Guards.written {v : Custody} {state : SlotState} {image : List UInt8}
    (h : v.Guards state image) (name : String) (address : UInt32) :
    (v.written name ⟨address, image⟩).Guards state image := by
  refine ⟨h.state, h.latest, ?_⟩
  have hholds := h.holds
  show v.placement.Holds (v.written name ⟨address, image⟩).file? image
  cases hp : v.placement with
  | free => rwa [hp] at hholds
  | resident data mounted saved =>
    rw [hp] at hholds
    exact ⟨hholds.1, fun s hs => file?_written (hholds.2 s hs) name address⟩
  | swappedOut length saved =>
    rw [hp] at hholds
    exact ⟨hholds.1, file?_written hholds.2 name address⟩

end Custody

namespace Loader
open Custody
variable {σ α β : Type} {p : Platform σ} {P P' R : Custody → Prop}
variable {state : SlotState} {image : List UInt8} {target : Kernel.Handle}

/-- What a computation brings about, in terms of the custody of the region. -/
def Assures (p : Platform σ) (P : Custody → Prop) (x : Act Loader (Observed σ) α)
    (Q : α → Custody → Prop) : Prop :=
  x.Ensures (observer p) (fun m => P (custody m)) fun a m => Q a (custody m)

section rules
variable {x : Act Loader (Observed σ) α} {Q : α → Custody → Prop} {S : β → Custody → Prop}

theorem Assures.bind {g : α → Act Loader (Observed σ) β} (hx : Assures p P x Q)
    (hg : ∀ a, Assures p (Q a) (g a) S) : Assures p P (x >>= g) S := Act.Ensures.bind hx hg

theorem Assures.pure {a : α} (hQ : ∀ v, P v → Q a v) :
    Assures p P (Pure.pure a : Act Loader (Observed σ) α) Q :=
  Act.Ensures.pure fun m => hQ (custody m)

theorem Assures.weaken (hx : Assures p P x Q) (hP : ∀ v, P' v → P v) : Assures p P' x Q :=
  Act.Ensures.mono hx (fun _ => hP _) fun _ _ hq => hq

theorem Assures.exists {ι : Type} {P : ι → Custody → Prop} (hx : ∀ i, Assures p (P i) x Q) :
    Assures p (fun v => ∃ i, P i v) x Q := fun m ⟨i, hi⟩ => hx i m hi

theorem Aloof.assures (hx : Aloof p x) : Assures p P x fun _ => P := Act.Ensures.of_keeps hx P

/-- Something aloof comes first. -/
theorem Aloof.then {g : α → Act Loader (Observed σ) β} (hx : Aloof p x)
    (hg : ∀ a, Assures p P (g a) S) : Assures p P (x >>= g) S := .bind (Aloof.assures hx) hg

theorem Assures.client {g : Loader → Act Loader (Observed σ) β}
    (hg : ∀ l, Assures p (fun v => P v ∧ v.Fits l) (g l) S) : Assures p P (Act.client >>= g) S :=
  fun m hm => hg m.client m ⟨hm, rfl, rfl, rfl⟩

/-- The block is replaced by what the operation makes of it. -/
theorem assures_onBlock {op : Region.Block → α × Region.Block}
    (hop : ∀ b v, P v → v.placement = b.placement →
      Q (op b).1 { v with placement := (op b).2.placement }) :
    Assures p P (onBlock op) Q := fun m hm => hop m.client.block (custody m) hm rfl

theorem assures_onBlockAct {op : Region.Block → Act Loader (Observed σ) (α × Region.Block)}
    (hop : ∀ b, Assures p (fun v => P v ∧ v.placement = b.placement) (op b)
      fun r v => Q r.1 { v with placement := r.2.placement }) :
    Assures p P (onBlockAct op) Q := fun m hm => hop m.client.block m ⟨hm, rfl⟩

theorem assures_modify {e : Loader → Loader}
    (he : ∀ m : Machine Loader (Observed σ), P (custody m) →
      R (custody { m with client := e m.client })) :
    Assures p P (Act.modifyClient e) fun _ => R := he

theorem assures_transition (state : SlotState) :
    Assures p (fun v => P { v with state := state }) (transition state) fun _ => P := by
  refine .client fun l => .bind (assures_modify fun m hm => ?_) fun _ =>
    (aloof_setStatus _).then fun _ => (aloof_record _).assures
  exact hm.1

end rules

section calls

theorem assures_writeSwap {name : String} {address : UInt32} {data : List UInt8}
    {Q : Except Platform.Error Unit → Custody → Prop}
    (hok : ∀ v, P v → Q (.ok ()) (v.written name ⟨address, data⟩))
    (hfail : ∀ v e, P v → Q (.error e) v) :
    Assures p P (Act.call (.writeSwap name address data)) Q := by
  intro m hm
  have hcustody : custody (Act.call (.writeSwap name address data) (observer p) m).2 =
      { custody m with file? := (m.platform.1.2.write name address data).2.file? } := rfl
  have hanswer : (Act.call (.writeSwap name address data) (observer p) m).1 =
      (m.platform.1.2.write name address data).1 := rfl
  rw [hcustody, hanswer]
  obtain hfailed | ⟨hf, hdone⟩ := m.platform.1.2.write_cases name address data
  · rw [hfailed]
    exact hfail _ _ hm
  · have hfile : (m.platform.1.2.write name address data).2.file? =
        ((custody m).written name ⟨address, data⟩).file? := by
      funext other
      by_cases h : other = name
      · simp [h, SwapStore.file?_write _ _ _ _ hf, written]
      · simp [h, SwapStore.file?_write_ne _ (Ne.symm h), written, custody]
    rw [hdone, hfile]
    exact hok _ hm

theorem assures_readSwap {name : String} {address : UInt32} {length : Nat}
    {Q : Except Platform.Error (List UInt8) → Custody → Prop}
    (hok : ∀ v image, P v → v.file? name = some image → Q (.ok image.data) v)
    (hfail : ∀ v e, P v → Q (.error e) v) :
    Assures p P (Act.call (.readSwap name address length)) Q := by
  intro m hm
  have haloof := aloof_call (p := p) (c := .readSwap name address length) rfl m
  rw [haloof]
  have hanswer : (Act.call (.readSwap name address length) (observer p) m).1 =
      (m.platform.1.2.read name length).1 := rfl
  rw [hanswer]
  obtain ⟨e, he⟩ | ⟨image, hfile, -, hread⟩ := m.platform.1.2.read_cases name length
  · rw [he]
    exact hfail _ _ hm
  · rw [hread]
    exact hok _ _ hm hfile

theorem assures_inject {path : String} {config : List UInt32}
    {Q : Except Platform.Error (List UInt8) → Custody → Prop}
    (hok : ∀ v image, P v → Q (.ok image) { v with latest := some (target, image) })
    (hfail : ∀ v e, P v → Q (.error e) v) :
    Assures p P (Act.call (.inject target path config)) Q := by
  intro m hm
  have hanswer : Act.call (.inject target path config) (observer p) m =
      ((p.answer (.inject target path config) m.platform.1.1).1, { m with
        platform := (((p.answer (.inject target path config) m.platform.1.1).2, m.platform.1.2),
          .answered (.inject target path config)
            (p.answer (.inject target path config) m.platform.1.1).1 :: m.platform.2) }) := rfl
  rw [hanswer]
  cases (p.answer (.inject target path config) m.platform.1.1).1 with
  | error e => exact hfail _ _ hm
  | ok image => exact hok _ _ hm

end calls

section block

theorem assures_unmount (target : Kernel.Handle) :
    Assures p (Guards state image) (onBlockAct (·.unmount target)) fun _ => Guards state image := by
  refine assures_onBlockAct fun b => ?_
  rw [Region.Block.unmount]
  split
  case h_1 data saved hb =>
    refine (aloof_call rfl).then fun answer => ?_
    cases answer with
    | error e => exact .pure fun v hv => hv.1.keep hv.2
    | ok _ =>
      refine .pure fun v hv => ?_
      have hholds := hv.1.holds_at (hv.2.trans hb)
      exact hv.1.place hholds
  case h_2 => exact .pure fun v hv => hv.1.keep hv.2

theorem assures_mount (target : Kernel.Handle) :
    Assures p (Guards state image) (onBlockAct (·.mount target)) fun r v =>
      v.Guards state image ∧ (r = .ok () → v.Mounted) := by
  refine assures_onBlockAct fun b => ?_
  rw [Region.Block.mount]
  split
  case h_1 data saved hb =>
    refine (aloof_call rfl).then fun answer => ?_
    cases answer with
    | error e => exact .pure fun v hv => ⟨hv.1.keep hv.2, by simp⟩
    | ok _ =>
      refine .pure fun v hv => ⟨?_, fun _ => ⟨data, saved, rfl⟩⟩
      have hholds := hv.1.holds_at (hv.2.trans hb)
      exact hv.1.place hholds
  case h_2 => exact .pure fun v hv => ⟨hv.1.keep hv.2, by simp⟩

/-- A region that was written out has all of its contents in the file that its settings name. -/
theorem assures_writeOut :
    Assures p (Guards state image) (onBlockAct (·.writeOut)) fun r v =>
      v.Guards state image ∧
        (r = .ok () → ∃ saved, v.placement = .resident image false (some saved)) := by
  refine assures_onBlockAct fun b => ?_
  rw [Region.Block.writeOut]
  split
  case h_1 data old hb =>
    split
    · exact .pure fun v hv => ⟨hv.1.keep hv.2, by simp⟩
    · split
      · exact .pure fun v hv => ⟨hv.1.keep hv.2, by simp⟩
      · let written : Except Platform.Error Unit → Custody → Prop := fun r v =>
          v.Guards state image ∧ v.placement = b.placement ∧
            (r = .ok () → data = image ∧ (v.file? b.swap.filename).map (·.data) = some image)
        have hwrite : Assures p (fun v => v.Guards state image ∧ v.placement = b.placement)
            (Act.call (.writeSwap b.swap.filename b.swap.saveAddress data)) written := by
          refine assures_writeSwap (fun v hv => ?_) fun v e hv => ⟨hv.1, hv.2, by simp⟩
          obtain ⟨hdata, -⟩ := hv.1.holds_at (hv.2.trans hb)
          subst hdata
          refine ⟨hv.1.written _ _, hv.2, fun _ => ⟨rfl, ?_⟩⟩
          simp [Custody.written]
        refine .bind hwrite fun answer => ?_
        cases answer with
        | error e => exact .pure fun v hv => ⟨hv.1.keep hv.2.1, by simp⟩
        | ok _ =>
          refine .pure fun v hv => ?_
          obtain ⟨hdata, hfile⟩ := hv.2.2 rfl
          subst hdata
          refine ⟨hv.1.place ⟨rfl, fun s hs => ?_⟩, fun _ => ⟨b.swap, rfl⟩⟩
          cases hs
          exact hfile
  case h_2 => exact .pure fun v hv => ⟨hv.1.keep hv.2, by simp⟩

/-- What was given up after it was written out is in its swap file only. -/
theorem assures_free :
    Assures p (fun v => v.Guards state image ∧ ∃ saved, v.placement = .resident image false (some saved))
      (onBlock (·.free)) fun _ => Guards state image := by
  refine assures_onBlock fun b v ⟨hv, saved, hsaved⟩ hb => ?_
  obtain ⟨-, hfile⟩ := hv.holds_at hsaved
  rw [hsaved] at hb
  simp only [Region.Block.free, ← hb]
  exact hv.place ⟨rfl, hfile saved rfl⟩

/-- What comes back from a swap file is what the region had. -/
theorem assures_readBack :
    Assures p (Guards state image) (onBlockAct (·.readBack)) fun _ => Guards state image := by
  refine assures_onBlockAct fun b => ?_
  rw [Region.Block.readBack]
  split
  case h_1 length saved hb =>
    let found : Except Platform.Error (List UInt8) → Custody → Prop := fun r v =>
      (v.Guards state image ∧ v.placement = b.placement) ∧
        ∀ data, r = .ok data → data = image ∧ (v.file? saved.filename).map (·.data) = some image
    have hread : Assures p (fun v => v.Guards state image ∧ v.placement = b.placement)
        (Act.call (.readSwap saved.filename saved.loadAddress length)) found := by
      refine assures_readSwap (fun v file hv hfile => ⟨hv, fun data hdata => ?_⟩)
        fun v e hv => ⟨hv, by simp⟩
      obtain ⟨-, himage⟩ := hv.1.holds_at (hv.2.trans hb)
      have hsame := himage
      rw [hfile] at hsame
      cases hdata
      exact ⟨Option.some.inj hsame, himage⟩
    refine .bind hread fun answer => ?_
    cases answer with
    | error e => exact .pure fun v hv => hv.1.1.keep hv.1.2
    | ok data =>
      dsimp only
      split
      · refine .pure fun v hv => hv.1.1.place ⟨(hv.2 data rfl).1, fun s hs => ?_⟩
        cases hs
        exact (hv.2 data rfl).2
      · exact .pure fun v hv => hv.1.1.keep hv.1.2
  case h_2 => exact .pure fun v hv => hv.1.keep hv.2

end block
end Loader
end PluginSlot
