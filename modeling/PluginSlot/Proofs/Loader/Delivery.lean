import PluginSlot.Proofs.Loader.Occupancy

/-!
A load in which every call of the platform succeeds, and what it delivers.
-/
namespace PluginSlot
open Platform

/-- A call that the platform answered with an error. -/
def Observation.isFailure : Observation → Bool
  | .answered (.schedule _ _) (.error _) => true
  | .answered (.close _) (.error _) => true
  | .answered (.titleId _) (.error _) => true
  | .answered .createArbiter (.error _) => true
  | .answered .createLifecycleEvent (.error _) => true
  | .answered (.signal _ _ _) (.error _) => true
  | .answered (.wait _ _ _ _ _) ⟨_, .failed _⟩ => true
  | .answered (.inject _ _ _) (.error _) => true
  | .answered (.map _ _) (.error _) => true
  | .answered (.unmap _ _) (.error _) => true
  | .answered (.menu _) (.error _) => true
  | .answered (.writeSwap _ _ _) (.error _) => true
  | .answered (.readSwap _ _ _) (.error _) => true
  | _ => false

/-- Only an injection changes what was injected last. -/
theorem latestImage_answered {c : Call} (hc : ∀ target path config, c ≠ .inject target path config)
    (a : c.Answer) (log : List Observation) :
    latestImage (.answered c a :: log) = latestImage log := by
  cases c with
  | inject target path config => exact absurd rfl (hc target path config)
  | _ => rfl

namespace Loader

/-- What a load needs, and what it brings about. -/
structure Delivery where
  state : SlotState
  target : Kernel.Handle
  placement : Region.Placement
  enabled : Bool
  tasks : TaskQueue
  latest : Option (Kernel.Handle × List UInt8)

namespace Delivery

/-- A plugin can be loaded. -/
structure Ready (v : Delivery) : Prop where
  state : v.state = .empty
  placement : v.placement = .free
  enabled : v.enabled = true
  tasks : v.tasks = .empty

/-- The target of the load is chosen. -/
structure Aimed (target : Kernel.Handle) (v : Delivery) : Prop where
  target : v.target = target
  placement : v.placement = .free

/-- The memory of the target is mounted, with the image injected into it last. -/
structure Filled (target : Kernel.Handle) (v : Delivery) : Prop where
  image : ∃ image, v.placement = .resident image true none ∧ v.latest = some (target, image)
  target : v.target = target

end Delivery

variable {σ α β : Type} {p : Platform σ}

def delivery (m : Machine Loader (σ × List Observation)) : Delivery where
  state := m.client.state
  target := m.client.target
  placement := m.client.block.placement
  enabled := m.client.enabled
  tasks := m.client.tasks
  latest := latestImage m.platform.2

/-- Some call failed. -/
def Spoiled (m : Machine Loader (σ × List Observation)) : Prop :=
  m.platform.2.any (·.isFailure) = true

/-- What has failed cannot be undone. -/
abbrev Lasting (p : Platform σ) (x : Act Loader (σ × List Observation) α) : Prop :=
  x.Ensures (recorder p) Spoiled fun _ => Spoiled

/-- What a computation brings about unless some call fails. -/
abbrev Delivers (p : Platform σ) (P : Delivery → Prop)
    (x : Act Loader (σ × List Observation) α) (Q : α → Delivery → Prop) : Prop :=
  x.Ensures (recorder p) (fun m => Spoiled m ∨ P (delivery m))
    fun a m => Spoiled m ∨ Q a (delivery m)

theorem lasting_call (c : Call) :
    Lasting p (Act.call c : Act Loader (σ × List Observation) c.Answer) := by
  intro m hm
  have hlog : ((Act.call c : Act Loader (σ × List Observation) c.Answer) (recorder p) m).2.platform.2 =
      .answered c (p.answer c m.platform.1).1 :: m.platform.2 := rfl
  rw [Spoiled, hlog, List.any_cons, Bool.or_eq_true]
  exact .inr hm

theorem internal_delivers (P : Delivery → Prop) :
    Internal (recorder p) fun m => Spoiled m ∨ P (delivery m) := by
  apply Internal.of
  · intro c hc m hm
    obtain hm | hm := hm
    · exact .inl (lasting_call c m hm)
    · have hlatest := latestImage_answered (c := c) (by rintro _ _ _ rfl; cases hc)
        (p.answer c m.platform.1).1 m.platform.2
      have hsame : delivery (Act.call c (recorder p) m).2 = delivery m :=
        congrArg (fun latest => { delivery m with latest := latest }) hlatest
      rw [← hsame] at hm
      exact .inr hm
  · exact fun _ _ hm => hm
  · exact fun _ _ hm => hm
  · exact fun _ _ hm => hm

section
variable {P P' : Delivery → Prop} {Q : α → Delivery → Prop} {S : β → Delivery → Prop}
  {x : Act Loader (σ × List Observation) α} {g : α → Act Loader (σ × List Observation) β}

theorem Lasting.pure (a : α) : Lasting p (Pure.pure a : Act Loader (σ × List Observation) α) :=
  fun _ hm => hm

theorem Lasting.bind (hx : Lasting p x) (hg : ∀ a, Lasting p (g a)) : Lasting p (x >>= g) :=
  Act.Ensures.bind hx hg

theorem Peripheral.delivers (hx : Peripheral (recorder p) x) : Delivers p P x fun _ => P :=
  hx _ (internal_delivers P).toCore

theorem Peripheral.lasting (hx : Peripheral (recorder p) x) : Lasting p x := by
  intro m hm
  exact (hx.delivers (P := fun _ => False) m (.inl hm)).resolve_right id

/-- After a failure nothing is expected any more. -/
theorem Lasting.delivers (hx : Lasting p x) (hP : ∀ v, ¬P v) : Delivers p P x Q :=
  fun m hm => .inl (hx m (hm.resolve_right (hP _)))

theorem Delivers.pure {a : α} (hQ : ∀ v, P v → Q a v) :
    Delivers p P (Pure.pure a : Act Loader (σ × List Observation) α) Q :=
  fun _ hm => hm.imp id (hQ _)

theorem Delivers.bind (hx : Delivers p P x Q) (hg : ∀ a, Delivers p (Q a) (g a) S) :
    Delivers p P (x >>= g) S := Act.Ensures.bind hx hg

theorem Delivers.weaken (hx : Delivers p P x Q) (hP : ∀ v, P' v → P v) : Delivers p P' x Q :=
  fun m hm => hx m (hm.imp id (hP _))

/-- What the loader knows of it. -/
structure Delivery.Fits (v : Delivery) (l : Loader) : Prop where
  state : v.state = l.state
  enabled : v.enabled = l.enabled

theorem Delivers.client {g : Loader → Act Loader (σ × List Observation) β}
    (hg : ∀ l, Delivers p (fun v => P v ∧ v.Fits l) (g l) S) :
    Delivers p P (Act.client >>= g) S :=
  fun m hm => hg m.client m (hm.imp id fun hv => ⟨hv, rfl, rfl⟩)

theorem lasting_modify (e : Loader → Loader) :
    Lasting p (Act.modifyClient e : Act Loader (σ × List Observation) Unit) := fun _ hm => hm

theorem delivers_modify {e : Loader → Loader} {R : Delivery → Prop}
    (he : ∀ m : Machine Loader (σ × List Observation), P (delivery m) →
      R (delivery { m with client := e m.client })) :
    Delivers p P (Act.modifyClient e) fun _ => R := fun m hm => hm.imp id (he m)

theorem delivers_onBlock {op : Region.Block → α × Region.Block}
    (hop : ∀ b v, P v → v.placement = b.placement →
      Q (op b).1 { v with placement := (op b).2.placement }) :
    Delivers p P (onBlock op) Q := fun m hm => hm.imp id fun hv => hop m.client.block (delivery m) hv rfl

theorem lasting_onBlockAct
    {op : Region.Block → Act Loader (σ × List Observation) (α × Region.Block)}
    (hop : ∀ b, Lasting p (op b)) : Lasting p (onBlockAct op) :=
  fun m hm => hop m.client.block m hm

theorem delivers_onBlockAct
    {op : Region.Block → Act Loader (σ × List Observation) (α × Region.Block)}
    (hop : ∀ b, Delivers p (fun v => P v ∧ v.placement = b.placement) (op b)
      fun r v => Q r.1 { v with placement := r.2.placement }) :
    Delivers p P (onBlockAct op) Q :=
  fun m hm => hop m.client.block m (hm.imp id fun hv => ⟨hv, rfl⟩)

/-- Only an answer that is no error counts. -/
theorem delivers_call {c : Call} {Q : c.Answer → Delivery → Prop}
    (hc : ∀ target path config, c ≠ .inject target path config)
    (hQ : ∀ a v, (Observation.answered c a).isFailure = false → P v → Q a v) :
    Delivers p P (Act.call c) Q := by
  intro m hm
  obtain hm | hm := hm
  · exact .inl (lasting_call c m hm)
  · have hrun : Act.call c (recorder p) m = ((p.answer c m.platform.1).1, { m with
        platform := ((p.answer c m.platform.1).2,
          .answered c (p.answer c m.platform.1).1 :: m.platform.2) }) := rfl
    rw [hrun]
    cases ha : (Observation.answered c (p.answer c m.platform.1).1).isFailure with
    | true => exact .inl (by rw [Spoiled, List.any_cons, ha, Bool.true_or])
    | false =>
      refine .inr (hQ _ _ ha ?_)
      have hlatest := latestImage_answered hc (p.answer c m.platform.1).1 m.platform.2
      rw [delivery, hlatest]
      exact hm

theorem delivers_inject {target : Kernel.Handle} {path : String} {config : List UInt32}
    {Q : Except Platform.Error (List UInt8) → Delivery → Prop}
    (hQ : ∀ image v, P v → Q (.ok image) { v with latest := some (target, image) }) :
    Delivers p P (Act.call (.inject target path config)) Q := by
  intro m hm
  obtain hm | hm := hm
  · exact .inl (lasting_call _ m hm)
  · have hrun : Act.call (.inject target path config) (recorder p) m =
        ((p.answer (.inject target path config) m.platform.1).1, { m with
          platform := ((p.answer (.inject target path config) m.platform.1).2,
            .answered (.inject target path config)
              (p.answer (.inject target path config) m.platform.1).1 :: m.platform.2) }) := rfl
    rw [hrun]
    cases (p.answer (.inject target path config) m.platform.1).1 with
    | error e => exact .inl rfl
    | ok image => exact .inr (hQ image _ hm)

end
section load
variable {target : Kernel.Handle}

theorem lasting_place (data : List UInt8) : Lasting p (place target data) := by
  refine .bind (fun m hm => hm) fun answer => ?_
  cases answer with
  | error e => exact .pure _
  | ok _ =>
    refine .bind (lasting_onBlockAct fun b => ?_) fun answer => ?_
    · rw [Region.Block.mount]
      split
      · refine .bind (lasting_call _) fun answer => ?_
        cases answer <;> exact .pure _
      · exact .pure _
    · cases answer <;> exact .pure _

theorem lasting_injectFirst (config : List UInt32) (failure : Platform.Error) (paths : List String) :
    Lasting p (injectFirst target config failure paths) := by
  induction paths generalizing failure with
  | nil => exact .pure _
  | cons path paths ih =>
    refine .bind (lasting_modify _) fun _ => .bind (lasting_call _) fun answer => ?_
    cases answer with
    | error e => exact ih e
    | ok data => exact lasting_place data

theorem lasting_abandonLoad (e : Error) : Lasting p (abandonLoad target e) := by
  refine .bind (fun m hm => hm) fun _ => .bind peripheral_client.lasting fun l => ?_
  refine .bind (lasting_modify _) fun _ => .bind (lasting_call _) fun _ => ?_
  exact .bind (peripheral_debug _).lasting fun _ => (peripheral_record rfl).lasting

open Delivery

theorem delivers_mount {P : Delivery → Prop} {Q : Except Region.Error Unit → Delivery → Prop}
    {data : List UInt8} {saved : Option Region.SwapSettings}
    (hP : ∀ v, P v → v.placement = .resident data false saved)
    (hQ : ∀ v, P v → Q (.ok ()) { v with placement := .resident data true saved }) :
    Delivers p P (onBlockAct (·.mount target)) Q := by
  apply delivers_onBlockAct
  intro b
  rw [Region.Block.mount]
  split
  case h_1 found kept hb =>
    let mapped (r : Except Platform.Error Unit) (v : Delivery) : Prop :=
      r = .ok () ∧ P v ∧ v.placement = b.placement
    have hmap : Delivers p (fun v => P v ∧ v.placement = b.placement)
        (Act.call (.map target found.length)) mapped := by
      apply delivers_call (by intro _ _ _ hc; cases hc)
      intro r v hr hv
      cases r with
      | error e => cases hr
      | ok _ => exact ⟨rfl, hv⟩
    refine .bind hmap fun r => ?_
    cases r with
    | error e => exact (Lasting.pure _).delivers fun v hv => absurd hv.1 (by simp)
    | ok _ =>
      apply Delivers.pure
      intro v hv
      have hsame := (hP v hv.2.1).symm.trans (hv.2.2.trans hb)
      cases hsame
      exact hQ v hv.2.1
  case h_2 hb =>
    apply (Lasting.pure _).delivers
    exact fun v hv => hb data saved (hv.2.symm.trans (hP v hv.1))

theorem delivers_place (data : List UInt8) :
    Delivers p (fun v => v.Aimed target ∧ v.latest = some (target, data)) (place target data)
      fun r v => r = .ok () ∧ v.Filled target := by
  let held (v : Delivery) : Prop :=
    v.placement = .resident data false none ∧ v.target = target ∧ v.latest = some (target, data)
  have hallocate : Delivers p (fun v => v.Aimed target ∧ v.latest = some (target, data))
      (onBlock (·.allocate data)) fun r v => r = .ok () ∧ held v := by
    apply delivers_onBlock
    intro b v hv hplace
    have hfree := hplace.symm.trans hv.1.placement
    rw [Region.Block.allocate, hfree]
    exact ⟨rfl, rfl, hv.1.target, hv.2⟩
  have hmount : Delivers p held (onBlockAct (·.mount target))
      fun r v => r = .ok () ∧ v.Filled target :=
    delivers_mount (fun v hv => hv.1) fun v hv => ⟨rfl, ⟨data, rfl, hv.2.2⟩, hv.2.1⟩
  refine .bind hallocate fun r => ?_
  cases r with
  | error e => exact (Lasting.pure _).delivers (by simp)
  | ok _ =>
    refine .bind (hmount.weaken fun v hv => hv.2) fun r => ?_
    cases r with
    | error e => exact (Lasting.pure _).delivers (by simp)
    | ok _ => exact .pure fun v hv => ⟨rfl, hv.2⟩

/-- The first path is the one that is injected from. -/
theorem delivers_injectFirst (config : List UInt32) (failure : Platform.Error) (path : String)
    (paths : List String) :
    Delivers p (Aimed target) (injectFirst target config failure (path :: paths))
      fun r v => r = .ok () ∧ v.Filled target := by
  let injected (r : Except Platform.Error (List UInt8)) (v : Delivery) : Prop :=
    ∃ data, r = .ok data ∧ v.Aimed target ∧ v.latest = some (target, data)
  have hinject : Delivers p (Aimed target) (Act.call (.inject target path config)) injected :=
    delivers_inject fun image v hv => ⟨image, rfl, ⟨hv.target, hv.placement⟩, rfl⟩
  refine .bind (delivers_modify fun m hm => hm) fun _ => .bind hinject fun r => ?_
  cases r with
  | error e =>
    apply (lasting_injectFirst config e paths).delivers
    rintro v ⟨data, hr, -⟩
    cases hr
  | ok data =>
    apply (delivers_place data).weaken
    rintro v ⟨found, hr, hv⟩
    cases hr
    exact hv

theorem delivers_inject_target :
    Delivers p (Aimed target) (inject target) fun r v => (∃ noFlash, r = .ok noFlash) ∧ v.Filled target := by
  have htitle : Delivers p (Aimed target) (Act.call (.titleId target))
      fun r v => (∃ titleId, r = .ok titleId) ∧ v.Aimed target := by
    apply delivers_call (by intro _ _ _ hc; cases hc)
    intro r v hr hv
    cases r with
    | error e => cases hr
    | ok titleId => exact ⟨⟨titleId, rfl⟩, hv⟩
  refine .bind htitle fun r => ?_
  cases r with
  | error e => exact (Lasting.pure _).delivers (by simp)
  | ok titleId =>
    refine .client fun l => ?_
    have huse : Delivers p (fun v => (v.Aimed target) ∧ v.Fits l)
        (Act.modifyClient (·.useParameters titleId)) fun _ => Aimed target := by
      apply delivers_modify
      intro m hm
      rw [useParameters]
      split <;> exact ⟨hm.1.target, hm.1.placement⟩
    refine .bind (huse.weaken fun v hv => ⟨hv.1.2, hv.2⟩) fun _ => ?_
    have hplan : ∃ path paths, (l.plan titleId).paths = path :: paths := by
      rw [plan]
      split <;> exact ⟨_, _, rfl⟩
    obtain ⟨path, paths, hpaths⟩ := hplan
    rw [hpaths]
    refine .bind (delivers_injectFirst _ _ path paths) fun r => ?_
    cases r with
    | error e => exact (Lasting.pure _).delivers (by simp)
    | ok _ => exact .pure fun v hv => ⟨⟨_, rfl⟩, hv.2⟩

theorem delivers_finishLoad (noFlash : Bool) :
    Delivers p (Filled target) (finishLoad target noFlash)
      fun _ v => v.state = .running ∧ v.Filled target := by
  have hrun : Delivers p (Filled target) (transition .running)
      fun _ v => v.state = .running ∧ v.Filled target := by
    let runs (v : Delivery) : Prop := v.state = .running ∧ v.Filled target
    refine .client fun l => .bind (delivers_modify (R := runs) fun m hm => ?_) fun _ =>
      .bind ((internal_delivers runs).status _) fun _ => (internal_delivers runs).journal _
    exact ⟨rfl, hm.1.image, hm.1.target⟩
  have htell (line path : String) (size : UInt64) :
      Peripheral (recorder p) (do Act.debug line; record (.loaded target path size)) :=
    .bind (peripheral_debug _) fun _ => peripheral_record rfl
  refine .client fun l => ?_
  dsimp only
  split
  · refine .bind ((peripheral_call rfl).delivers.weaken fun v hv => hv.1) fun _ => ?_
    exact .bind hrun fun _ => (htell _ _ _).delivers
  · exact .bind (hrun.weaken fun v hv => hv.1) fun _ => (htell _ _ _).delivers

/-- A load into an empty slot with no memory in it ends, unless some call fails, with a plugin that
runs and has the image just injected. -/
theorem delivers_load : (load target).Ensures (recorder p) (fun m => (delivery m).Ready)
    fun r m => Spoiled m ∨ r = .ok () ∧ (delivery m).state = .running ∧ (delivery m).Filled target := by
  have hidle : runPendingTasks.Ensures (recorder p) (fun m => (delivery m).Ready)
      fun _ m => Spoiled m ∨ (delivery m).Ready := by
    intro m hm
    have htasks : m.client.tasks = .empty := hm.tasks
    show _ ∨ (delivery (runTasks m.client.tasks.entries (recorder p)
      { m with client := { m.client with tasks := .empty } }).2).Ready
    rw [htasks]
    exact .inr ⟨hm.state, hm.placement, hm.enabled, rfl⟩
  let loaded (r : Except Error Unit) (v : Delivery) : Prop :=
    r = .ok () ∧ v.state = .running ∧ v.Filled target
  refine .bind hidle fun _ => Delivers.client (P := Ready) (S := loaded) fun l => ?_
  split
  case isTrue hne =>
    apply Lasting.delivers
    · refine .bind (peripheral_debug _).lasting fun _ => .bind (lasting_call _) fun _ => .pure _
    · exact fun v hv => hne (hv.2.state.symm.trans hv.1.state)
  case isFalse =>
    split
    case isTrue hoff =>
      apply Lasting.delivers
      · refine .bind (lasting_call _) fun r => ?_
        cases r <;> exact .pure _
      · intro v hv
        rw [← hv.2.enabled, hv.1.enabled] at hoff
        cases hoff
    case isFalse =>
      refine .bind (peripheral_setWord _ _).delivers fun _ => ?_
      refine .bind (delivers_modify (R := Aimed target) fun m hm => ⟨rfl, hm.1.placement⟩) fun _ => ?_
      refine .bind delivers_inject_target fun r => ?_
      cases r with
      | error e =>
        refine Lasting.delivers (.bind (lasting_abandonLoad e) fun _ => .pure _) fun v hv => ?_
        obtain ⟨⟨noFlash, hr⟩, -⟩ := hv
        cases hr
      | ok noFlash =>
        refine .bind ((delivers_finishLoad noFlash).weaken fun v hv => hv.2) fun _ => ?_
        exact .pure fun v hv => ⟨rfl, hv⟩

end load
end Loader
end PluginSlot
