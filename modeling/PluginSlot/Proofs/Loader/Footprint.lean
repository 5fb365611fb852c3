import PluginSlot.Proofs.Platform.Ensures
import PluginSlot.Service.Operation

/-!
The footprint of a computation: what it may be about, out of a short list of concerns. A property of
the machine that bears all of these is left alone by the computation, whatever it says of the rest.
-/
namespace PluginSlot
open Platform Loader

namespace Loader

/-- What a step of the loader may be about. Most calls concern nobody, and words shared with the plugin
may change at any time. -/
inductive Concern where
  | signal
  | publish
  | schedule
  | inject
  | map
  | unmap
  | writeSwap
  | readSwap
  | close
  /-- The record of a transition. -/
  | transition
  /-- The records of a teardown. -/
  | teardown
  /-- The status word. -/
  | status
  /-- The title of a target is asked for. -/
  | title
  | flash
  /-- The parameters of the next load, and the path of the latest. -/
  | parameters
  /-- The handles that the loader made for itself. -/
  | handles
  /-- What else the loader keeps besides its slot, its memory and its journal. -/
  | settings
  | block
  /-- All that the loader keeps besides its journal and its fixtures. -/
  | slot
deriving DecidableEq

/-- What the loader keeps for loads: its configuration, the parameters of the next load, and the path of
the latest. -/
def provision (l : Loader) : Config × Option LoadParameters × String :=
  (l.config, l.nextLoad, l.pluginPath)

/-- What neither the settings nor the slot include. -/
def fixtures (l : Loader) : (Config × Option LoadParameters × String) ×
    (Kernel.Handle × Kernel.Handle) × String :=
  (l.provision, (l.arbiter, l.lifecycleEvent), l.block.defaultFilename)

def Event.concern? : Event → Option Concern
  | .transition _ _ => some .transition
  | .teardownQueued _ | .teardownDone _ => some .teardown
  | _ => none

end Loader

def Platform.Call.concern? : Call → Option Concern
  | .signal _ _ _ => some .signal
  | .publish _ => some .publish
  | .schedule _ _ => some .schedule
  | .inject _ _ _ => some .inject
  | .map _ _ => some .map
  | .unmap _ _ => some .unmap
  | .writeSwap _ _ _ => some .writeSwap
  | .readSwap _ _ _ => some .readSwap
  | .close _ => some .close
  | .writeStatus _ => some .status
  | .titleId _ => some .title
  | .flash => some .flash
  | .createArbiter | .createLifecycleEvent => some .handles
  | _ => none

namespace Loader
variable {σ α β : Type} {cs ds : List Concern}

/-- There is no concern, or it is one of these. -/
def Concern.within (cs : List Concern) : Option Concern → Bool
  | none => true
  | some k => cs.contains k

theorem Concern.within_some {k : Concern} : within cs (some k) = true ↔ k ∈ cs :=
  List.contains_iff_mem

theorem Concern.within_mono (h : cs ⊆ ds) {k? : Option Concern} (hk : within cs k? = true) :
    within ds k? = true := by
  cases k? with
  | none => rfl
  | some k => exact within_some.mpr (h (within_some.mp hk))

/-- Nothing that is about these concerns, or about none at all, makes the property false. The clock is
read for records only. -/
structure Bears (h : Handler Loader σ) (cs : List Concern) (P : Machine Loader σ → Prop) : Prop where
  call : ∀ c : Call, c ≠ .now → Concern.within cs c.concern? = true →
    (Act.call c).Ensures h P fun _ => P
  words : ∀ m words, P m → P { m with words := words }
  record : ∀ event : Event, Concern.within cs event.concern? = true →
    (record event).Ensures h P fun _ => P
  status : .status ∈ cs → ∀ value, (Act.setStatus value).Ensures h P fun _ => P
  settings : .settings ∈ cs → ∀ m (l : Loader), l.state = m.client.state →
    l.target = m.client.target → l.block.placement = m.client.block.placement →
    l.exitPending = m.client.exitPending → l.tasks = m.client.tasks →
    l.journal = m.client.journal → l.fixtures = m.client.fixtures → P m →
    P { m with client := l }
  parameters : .parameters ∈ cs → ∀ m next path, P m →
    P { m with client := { m.client with nextLoad := next, pluginPath := path } }
  handles : .handles ∈ cs → ∀ m arbiter event, P m →
    P { m with client := { m.client with arbiter := arbiter, lifecycleEvent := event } }
  /-- The default name of the swap file stays as it was when the property held before. -/
  block : .block ∈ cs → ∀ before m (b : Region.Block), P before →
    b.defaultFilename = before.client.block.defaultFilename → P m →
    P { m with client := { m.client with block := b } }
  slot : .slot ∈ cs → ∀ m (l : Loader), l.journal = m.client.journal →
    l.fixtures = m.client.fixtures → P m → P { m with client := l }

theorem Bears.mono {h : Handler Loader σ} {P : Machine Loader σ → Prop} (hP : Bears h ds P)
    (hcs : cs ⊆ ds) : Bears h cs P where
  call c hc hk := hP.call c hc (Concern.within_mono hcs hk)
  words := hP.words
  record event hk := hP.record event (Concern.within_mono hcs hk)
  status hk := hP.status (hcs hk)
  settings hk := hP.settings (hcs hk)
  parameters hk := hP.parameters (hcs hk)
  handles hk := hP.handles (hcs hk)
  block hk := hP.block (hcs hk)
  slot hk := hP.slot (hcs hk)

/-- All concerns but the loader's own handles. -/
def Concern.besidesHandles : List Concern :=
  [.signal, .publish, .schedule, .inject, .map, .unmap, .writeSwap, .readSwap, .close, .transition,
    .teardown, .status, .title, .flash, .parameters, .settings, .block, .slot]

def Concern.every : List Concern := .handles :: besidesHandles

/-- A property of the platform alone bears everything that the platform bears. -/
theorem Bears.of_call {h : Handler Loader σ} {I : σ → Prop}
    (hcall : ∀ c : Call, (Act.call c).Ensures h (fun m => I m.platform) fun _ m => I m.platform) :
    Bears h cs fun m => I m.platform where
  call c _ _ := hcall c
  words _ _ hm := hm
  record _ _ := .bind (hcall .now) fun _ _ hm => hm
  status _ value _ hm := hcall (.writeStatus value) _ hm
  settings _ _ _ _ _ _ _ _ _ _ hm := hm
  parameters _ _ _ _ hm := hm
  handles _ _ _ _ hm := hm
  block _ _ _ _ _ _ hm := hm
  slot _ _ _ _ _ hm := hm

/-- The computation is about these concerns only. -/
def Within (cs : List Concern) (x : Act Loader σ α) : Prop :=
  ∀ h P, Bears h cs P → x.Ensures h P fun _ => P

namespace Within
variable {x : Act Loader σ α} {g : α → Act Loader σ β}

theorem pure (a : α) : Within cs (Pure.pure a : Act Loader σ α) := fun _ _ _ _ hm => hm

theorem bind (hx : Within cs x) (hg : ∀ a, Within cs (g a)) : Within cs (x >>= g) :=
  fun h P hP => .bind (hx h P hP) fun a => hg a h P hP

theorem mono (hx : Within cs x) (hcs : cs ⊆ ds) : Within ds x := fun h P hP => hx h P (hP.mono hcs)

end Within

section basic

theorem within_client : Within cs (Act.client : Act Loader σ _) := fun _ _ _ _ hm => hm

theorem within_words : Within cs (Act.words : Act Loader σ _) := fun _ _ _ _ hm => hm

theorem within_status : Within cs (Act.status : Act Loader σ _) := fun _ _ _ _ hm => hm

theorem within_setWord (word : Handshake.SharedWord) (value : Int32) :
    Within cs (Act.setWord word value : Act Loader σ _) := fun _ _ hP m hm => hP.words m _ hm

theorem within_call {c : Call} (hc : c ≠ .now) (hk : Concern.within cs c.concern? = true) :
    Within cs (Act.call c : Act Loader σ c.Answer) := fun _ _ hP => hP.call c hc hk

theorem within_debug (line : String) : Within cs (Act.debug line : Act Loader σ _) :=
  within_call nofun rfl

theorem within_record {event : Event} (hk : Concern.within cs event.concern? = true) :
    Within cs (record event : Act Loader σ _) := fun _ _ hP => hP.record event hk

theorem within_setStatus (hcs : .status ∈ cs) (value : UInt32) :
    Within cs (Act.setStatus value : Act Loader σ _) := fun _ _ hP => hP.status hcs value

/-- A change of settings alone. -/
theorem within_settings (hcs : .settings ∈ cs) {e : Loader → Loader} (he : ∀ l,
    (e l).state = l.state ∧ (e l).target = l.target ∧ (e l).block.placement = l.block.placement ∧
    (e l).exitPending = l.exitPending ∧ (e l).tasks = l.tasks ∧ (e l).journal = l.journal ∧
    (e l).fixtures = l.fixtures) : Within cs (Act.modifyClient e : Act Loader σ _) := by
  intro h P hP m hm
  obtain ⟨hstate, htarget, hplacement, hexit, htasks, hjournal, hfixtures⟩ := he m.client
  exact hP.settings hcs m (e m.client) hstate htarget hplacement hexit htasks hjournal hfixtures hm

theorem within_handles (hcs : .handles ∈ cs) (arbiter event : Kernel.Handle) :
    Within cs (Act.modifyClient ({ · with arbiter := arbiter, lifecycleEvent := event }) :
      Act Loader σ _) := fun _ _ hP m => hP.handles hcs m arbiter event

/-- A change of what is for loads, but for the configuration. -/
theorem within_parameters (hcs : .parameters ∈ cs) {e : Loader → Loader}
    (he : ∀ l, ∃ next path, e l = { l with nextLoad := next, pluginPath := path }) :
    Within cs (Act.modifyClient e : Act Loader σ _) := by
  intro h P hP m hm
  obtain ⟨next, path, hsame⟩ := he m.client
  show P { m with client := e m.client }
  rw [hsame]
  exact hP.parameters hcs m next path hm

theorem within_modify (hcs : .slot ∈ cs) {e : Loader → Loader}
    (he : ∀ l, (e l).journal = l.journal ∧ (e l).fixtures = l.fixtures) :
    Within cs (Act.modifyClient e : Act Loader σ _) :=
  fun _ _ hP m hm => hP.slot hcs m (e m.client) (he m.client).1 (he m.client).2 hm

theorem within_onBlock (hcs : .block ∈ cs) {op : Region.Block → α × Region.Block}
    (hop : ∀ b, (op b).2.defaultFilename = b.defaultFilename) :
    Within cs (onBlock op : Act Loader σ α) :=
  fun _ _ hP m hm => hP.block hcs m m _ hm (hop m.client.block) hm

/-- A call that changes the block from outside the loader does not count. -/
theorem within_onBlockAct (hcs : .block ∈ cs)
    {op : Region.Block → Act Loader σ (α × Region.Block)} (hop : ∀ b h P, Bears h cs P →
      (op b).Ensures h P fun r m => r.2.defaultFilename = b.defaultFilename ∧ P m) :
    Within cs (onBlockAct op) := by
  intro h P hP m hm
  obtain ⟨hname, hcalled⟩ := hop m.client.block h P hP m hm
  exact hP.block hcs m _ _ hm hname hcalled

theorem within_transition (state : SlotState) :
    Within [.transition, .status, .slot] (transition state : Act Loader σ _) := by
  refine .bind within_client fun l => .bind (within_modify (by decide) fun _ => ⟨rfl, rfl⟩) fun _ => ?_
  exact .bind (within_setStatus (by decide) _) fun _ => within_record rfl

theorem within_debugRegion (line : String) (r : Except Region.Error Unit) :
    Within cs (debugRegion line r : Act Loader σ _) := by
  cases r with
  | error e => exact within_debug _
  | ok _ => exact .pure _

theorem within_debugPlatform (line : String) (r : Except Platform.Error α) :
    Within cs (debugPlatform line r : Act Loader σ _) := by
  cases r with
  | error e => exact within_debug _
  | ok _ => exact .pure _

end basic

section handshake

theorem within_signal (arbiter : Kernel.Handle) (word : Handshake.SharedWord) :
    Within [.signal] (Handshake.signal arbiter word : Act Loader σ _) :=
  .bind within_words fun _ => within_call nofun rfl

theorem within_wait (arbiter : Kernel.Handle) (word : Handshake.SharedWord) (bound : Int32)
    (timeout : UInt64) :
    Within cs (Handshake.wait arbiter word bound timeout : Act Loader σ _) := by
  refine .bind within_words fun words => .bind (within_call nofun rfl) fun answer => ?_
  exact .bind (within_setWord _ _) fun _ => .pure _

theorem within_notify (arbiter : Kernel.Handle) (event : Int32) :
    Within [.signal] (Handshake.notify arbiter event : Act Loader σ _) :=
  .bind (within_setWord _ _) fun _ => .bind (within_setWord _ _) fun _ => within_signal _ _

theorem within_waitForReply (arbiter : Kernel.Handle) (timeout : UInt64) :
    Within cs (Handshake.waitForReply arbiter timeout : Act Loader σ _) := by
  refine .bind within_words fun words => ?_
  split
  · exact .pure _
  · refine .bind (within_wait _ _ _ _) fun answer => ?_
    split <;> exact .pure _

theorem within_pluginWait (arbiter : Kernel.Handle) (timeout : UInt64) :
    Within cs (Handshake.pluginWait arbiter timeout : Act Loader σ _) := by
  refine .bind within_words fun words => ?_
  split
  · exact .pure _
  · refine .bind (within_wait _ _ _ _) fun answer => ?_
    split <;> exact .pure _

theorem within_pluginReply (arbiter : Kernel.Handle) :
    Within [.signal] (Handshake.pluginReply arbiter : Act Loader σ _) :=
  .bind (within_setWord _ _) fun _ => within_signal _ _

theorem within_askPlugin (arbiter : Kernel.Handle) (event : Int32) :
    Within [.signal] (askPlugin arbiter event : Act Loader σ _) := by
  refine .bind (within_notify _ _) fun answer => ?_
  cases answer with
  | error e => exact .pure _
  | ok _ => exact .bind within_client fun _ => within_waitForReply _ _

theorem within_shakeHands (arbiter : Kernel.Handle) (event : Int32) (kind : HandshakeKind) :
    Within [.signal] (shakeHands arbiter event kind : Act Loader σ _) := by
  refine .bind (within_askPlugin _ _) fun answer => ?_
  split
  · exact .pure _
  · exact .bind (within_debug _) fun _ => within_record rfl
  · exact .bind (within_debug _) fun _ => within_record rfl

theorem within_unexpected (word : UInt32) : Within cs (unexpected word : Act Loader σ _) :=
  .bind (within_debug _) fun _ => .bind (within_record rfl) fun _ => .pure _

theorem within_closeEach (hs : List Kernel.Handle) :
    Within [.close] (closeEach hs : Act Loader σ _) := by
  induction hs with
  | nil => exact .pure _
  | cons handle hs ih =>
    rw [closeEach]
    split
    · exact ih
    · refine .bind (within_call nofun rfl) fun answer => ?_
      cases answer with
      | error e => exact .pure _
      | ok _ => exact ih

end handshake

section settings

theorem within_setEnabled (enabled : Bool) :
    Within [.settings] (setEnabled enabled : Act Loader σ _) := by
  refine .bind within_client fun l => ?_
  refine .bind (within_settings (by decide) fun _ => ⟨rfl, rfl, rfl, rfl, rfl, rfl, rfl⟩) fun _ => ?_
  split
  · exact within_call nofun rfl
  · exact .pure _

theorem within_toggleEnabled : Within [.settings] (toggleEnabled : Act Loader σ _) := by
  refine .bind within_client fun l => ?_
  refine .bind (within_settings (by decide) fun _ => ⟨rfl, rfl, rfl, rfl, rfl, rfl, rfl⟩) fun _ => ?_
  exact .bind (within_call nofun rfl) fun _ => .bind (within_debug _) fun _ => .pure _

theorem within_setUiBlocked (blocked : Bool) :
    Within [.settings] (setUiBlocked blocked : Act Loader σ _) :=
  within_settings (by decide) fun _ => ⟨rfl, rfl, rfl, rfl, rfl, rfl, rfl⟩

theorem within_showPendingError : Within [.settings] (showPendingError : Act Loader σ _) := by
  refine .bind within_client fun l => ?_
  split
  · exact .pure _
  · exact .bind (within_settings (by decide) fun _ => ⟨rfl, rfl, rfl, rfl, rfl, rfl, rfl⟩) fun _ =>
      within_call nofun rfl

/-- The last part of a shutdown: the loader gives up its own handles. -/
theorem within_closeHandles : Within [.close, .handles]
    (do
      let l ← Act.client
      Act.modifyClient ({ · with arbiter := .null, lifecycleEvent := .null })
      match ← closeEach [l.arbiter, l.lifecycleEvent] with
      | .error e => pure (.error e)
      | .ok _ =>
        Act.debug "[plgldr] shutdown"
        pure (.ok ()) : Act Loader σ (Except Error Unit)) := by
  refine .bind within_client fun l => .bind (within_handles (by decide) _ _) fun _ => ?_
  refine .bind ((within_closeEach _).mono (by decide)) fun answer => ?_
  cases answer with
  | error e => exact .pure _
  | ok _ => exact .bind (within_debug _) fun _ => .pure _

theorem within_start : Within [.close, .status, .handles, .settings] (start : Act Loader σ _) := by
  refine .bind (within_call nofun rfl) fun answer => ?_
  cases answer with
  | error e => exact .pure _
  | ok arbiter =>
    refine .bind (within_call nofun rfl) fun answer => ?_
    cases answer with
    | error e => exact .bind (within_call nofun rfl) fun _ => .pure _
    | ok event =>
      refine .bind (within_call nofun rfl) fun enabled => ?_
      have hput : Within [.close, .status, .handles, .settings] (Act.modifyClient
          ({ · with arbiter := arbiter, lifecycleEvent := event, enabled := enabled }) :
          Act Loader σ _) := by
        intro h P hP m hm
        exact hP.settings (by decide)
          { m with client := { m.client with arbiter := arbiter, lifecycleEvent := event } } _
          rfl rfl rfl rfl rfl rfl rfl (hP.handles (by decide) m arbiter event hm)
      refine .bind hput fun _ => ?_
      exact .bind (within_setStatus (by decide) _) fun _ => .bind (within_debug _) fun _ => .pure _

end settings

section block
variable (target : Kernel.Handle)

theorem within_mount :
    Within [.map, .block] (onBlockAct (·.mount target) : Act Loader σ _) := by
  refine within_onBlockAct (by decide) fun b h P hP => ?_
  rw [Region.Block.mount]
  split
  · refine .bind (hP.call (.map target _) nofun rfl) fun answer => ?_
    cases answer <;> exact .pure fun m hm => ⟨rfl, hm⟩
  · exact .pure fun m hm => ⟨rfl, hm⟩

theorem within_unmount :
    Within [.unmap, .block] (onBlockAct (·.unmount target) : Act Loader σ _) := by
  refine within_onBlockAct (by decide) fun b h P hP => ?_
  rw [Region.Block.unmount]
  split
  · refine .bind (hP.call (.unmap target _) nofun rfl) fun answer => ?_
    cases answer <;> exact .pure fun m hm => ⟨rfl, hm⟩
  · exact .pure fun m hm => ⟨rfl, hm⟩

theorem within_writeOut : Within [.writeSwap, .block] (onBlockAct (·.writeOut) : Act Loader σ _) := by
  refine within_onBlockAct (by decide) fun b h P hP => ?_
  rw [Region.Block.writeOut]
  split
  · split
    · exact .pure fun m hm => ⟨rfl, hm⟩
    · split
      · exact .pure fun m hm => ⟨rfl, hm⟩
      · refine .bind (hP.call (.writeSwap _ _ _) nofun rfl) fun answer => ?_
        cases answer <;> exact .pure fun m hm => ⟨rfl, hm⟩
  · exact .pure fun m hm => ⟨rfl, hm⟩

theorem within_readBack : Within [.readSwap, .block] (onBlockAct (·.readBack) : Act Loader σ _) := by
  refine within_onBlockAct (by decide) fun b h P hP => ?_
  rw [Region.Block.readBack]
  split
  · refine .bind (hP.call (.readSwap _ _ _) nofun rfl) fun answer => ?_
    cases answer with
    | error e => exact .pure fun m hm => ⟨rfl, hm⟩
    | ok data =>
      dsimp only
      split <;> exact .pure fun m hm => ⟨rfl, hm⟩
  · exact .pure fun m hm => ⟨rfl, hm⟩

theorem within_allocate (data : List UInt8) :
    Within [.block] (onBlock (·.allocate data) : Act Loader σ _) :=
  within_onBlock (by decide) fun b => by
    rw [Region.Block.allocate]
    split <;> rfl

theorem within_free : Within [.block] (onBlock (·.free) : Act Loader σ _) :=
  within_onBlock (by decide) fun b => by
    rw [Region.Block.free]
    split <;> rfl

theorem within_discard : Within [.block] (onBlock (·.discard) : Act Loader σ _) :=
  within_onBlock (by decide) fun b => by
    rw [Region.Block.discard]
    split <;> rfl

theorem within_edit (change : Option (Nat × UInt8)) :
    Within [.block] (onBlock (·.edit change) : Act Loader σ _) :=
  within_onBlock (by decide) fun b => by
    rw [Region.Block.edit]
    split <;> rfl

end block

section teardown

/-- The concerns of a release. -/
def Concern.release : List Concern := [.unmap, .close, .block, .slot, .teardown, .transition, .status]

theorem within_teardown (target : Kernel.Handle) :
    Within Concern.release (teardown target : Act Loader σ _) := by
  refine .bind within_client fun l => ?_
  split
  · exact within_debug _
  · dsimp only
    split
    case' isTrue =>
      refine .bind ((within_unmount target).mono (by decide)) fun r => ?_
      refine .bind (within_debugRegion _ r) fun _ => ?_
    all_goals
      refine .bind (within_discard.mono (by decide)) fun r => .bind (within_debugRegion _ r) fun _ => ?_
      refine .bind (within_call nofun rfl) fun closed => ?_
      refine .bind (within_debugPlatform _ closed) fun _ => ?_
      refine .bind (within_modify (by decide) fun _ => ⟨rfl, rfl⟩) fun _ => ?_
      refine .bind (within_setWord _ _) fun _ => ?_
      exact .bind ((within_transition _).mono (by decide)) fun _ => within_record rfl

theorem within_runTasks (tasks : List Task) :
    Within Concern.release (runTasks tasks : Act Loader σ _) := by
  induction tasks with
  | nil => exact .pure _
  | cons task tasks ih =>
    cases task with
    | teardown target => exact .bind (within_teardown target) fun _ => ih

theorem within_runPendingTasks : Within Concern.release (runPendingTasks : Act Loader σ _) := by
  refine .bind within_client fun l => .bind (within_modify (by decide) fun _ => ⟨rfl, rfl⟩) fun _ => ?_
  exact .bind (within_runTasks _) fun _ => .pure _

theorem within_shutdown :
    Within (.handles :: Concern.release) (shutdown : Act Loader σ _) := by
  refine .bind (within_runPendingTasks.mono (by decide)) fun _ => .bind within_client fun l => ?_
  dsimp only
  split
  · refine .bind ((within_teardown _).mono (by decide)) fun _ => ?_
    exact within_closeHandles.mono (by decide)
  · exact within_closeHandles.mono (by decide)

end teardown

section load
variable (target : Kernel.Handle)

theorem within_place (data : List UInt8) :
    Within [.map, .block] (place target data : Act Loader σ _) := by
  refine .bind ((within_allocate data).mono (by decide)) fun answer => ?_
  cases answer with
  | error e => exact .pure _
  | ok _ =>
    refine .bind (within_mount target) fun answer => ?_
    cases answer <;> exact .pure _

theorem within_injectFirst (config : List UInt32) (failure : Platform.Error) (paths : List String) :
    Within [.inject, .map, .parameters, .block]
      (injectFirst target config failure paths : Act Loader σ _) := by
  induction paths generalizing failure with
  | nil => exact .pure _
  | cons path paths ih =>
    refine .bind (within_parameters (by decide) fun l => ⟨l.nextLoad, path, rfl⟩) fun _ => ?_
    refine .bind (within_call nofun rfl) fun answer => ?_
    cases answer with
    | error e => exact ih e
    | ok data => exact (within_place target data).mono (by decide)

theorem within_inject :
    Within [.title, .inject, .map, .parameters, .block] (inject target : Act Loader σ _) := by
  refine .bind (within_call nofun rfl) fun answer => ?_
  cases answer with
  | error e => exact .pure _
  | ok titleId =>
    refine .bind within_client fun l => .bind (within_parameters (by decide) fun l => ?_) fun _ => ?_
    · rw [useParameters]
      split
      · exact ⟨none, l.pluginPath, rfl⟩
      · exact ⟨l.nextLoad, l.pluginPath, rfl⟩
    refine .bind ((within_injectFirst _ _ _ _).mono (by decide)) fun answer => ?_
    cases answer <;> exact .pure _

theorem within_finishLoad (noFlash : Bool) :
    Within [.flash, .transition, .status, .slot] (finishLoad target noFlash : Act Loader σ _) := by
  have hrun : Within [.flash, .transition, .status, .slot]
      (transition .running : Act Loader σ Unit) := (within_transition .running).mono (by decide)
  refine .bind within_client fun l => ?_
  dsimp only
  split
  · refine .bind (within_call nofun rfl) fun _ => .bind hrun fun _ => ?_
    exact .bind (within_debug _) fun _ => within_record rfl
  · exact .bind hrun fun _ => .bind (within_debug _) fun _ => within_record rfl

theorem within_abandonLoad (e : Error) :
    Within [.block, .slot, .close] (abandonLoad target e : Act Loader σ _) := by
  refine .bind (within_discard.mono (by decide)) fun _ => .bind within_client fun l => ?_
  refine .bind (within_modify (by decide) fun _ => ⟨rfl, rfl⟩) fun _ => ?_
  refine .bind (within_call nofun rfl) fun _ => ?_
  exact .bind (within_debug _) fun _ => within_record rfl

/-- The concerns of a load. -/
def Concern.load : List Concern :=
  .title :: .inject :: .map :: .flash :: .parameters :: Concern.release

theorem within_load : Within Concern.load
    (load target : Act Loader σ _) := by
  refine .bind (within_runPendingTasks.mono (by decide)) fun _ => .bind within_client fun l => ?_
  split
  · exact .bind (within_debug _) fun _ => .bind (within_call nofun rfl) fun _ => .pure _
  · split
    · refine .bind (within_call nofun rfl) fun answer => ?_
      cases answer <;> exact .pure _
    · refine .bind (within_setWord _ _) fun _ => ?_
      refine .bind (within_modify (by decide) fun _ => ⟨rfl, rfl⟩) fun _ => ?_
      refine .bind ((within_inject target).mono (by decide)) fun answer => ?_
      cases answer with
      | ok noFlash =>
        exact .bind ((within_finishLoad target noFlash).mono (by decide)) fun _ => .pure _
      | error e => exact .bind ((within_abandonLoad target e).mono (by decide)) fun _ => .pure _

end load

section notification

theorem within_swapOut : Within [.schedule, .unmap, .writeSwap, .block, .transition, .status, .slot]
    (swapOut : Act Loader σ _) := by
  refine .bind within_client fun l => .bind (within_call nofun rfl) fun answer => ?_
  cases answer
  all_goals
    refine .bind (within_debug _) fun _ => ?_
    refine .bind ((within_unmount _).mono (by decide)) fun r => ?_
    refine .bind (within_debugRegion _ r) fun _ => ?_
    refine .bind (within_writeOut.mono (by decide)) fun written => ?_
    cases written with
    | ok _ =>
      refine .bind (within_free.mono (by decide)) fun r => .bind (within_debugRegion _ r) fun _ => ?_
      exact (within_transition _).mono (by decide)
    | error e =>
      refine .bind (within_debug _) fun _ => ?_
      exact .bind ((within_transition _).mono (by decide)) fun _ => within_record rfl

theorem within_restore (target : Kernel.Handle) :
    Within [.readSwap, .map, .block] (restore target : Act Loader σ _) := by
  refine .bind within_client fun l => ?_
  dsimp only
  split
  case' isTrue =>
    refine .bind (within_readBack.mono (by decide)) fun restored => ?_
  case' isFalse => refine .bind (.pure _) fun restored => ?_
  all_goals
    cases restored with
    | error e => exact .pure _
    | ok _ => exact (within_mount target).mono (by decide)

theorem within_swapIn : Within [.schedule, .readSwap, .map, .block, .transition, .status, .slot]
    (swapIn : Act Loader σ _) := by
  refine .bind within_client fun l => .bind ((within_restore _).mono (by decide)) fun answer => ?_
  cases answer with
  | error e => exact .bind (within_debug _) fun _ => .bind (within_record rfl) fun _ => .pure _
  | ok _ =>
    refine .bind (within_call nofun rfl) fun unlocked => ?_
    cases unlocked
    all_goals
      refine .bind (within_debug _) fun _ => ?_
      exact .bind ((within_transition _).mono (by decide)) fun _ => .pure _

/-- A swap neither publishes nor closes anything. -/
theorem within_onSwap (word : UInt32) : Within
    [.signal, .schedule, .unmap, .writeSwap, .readSwap, .map, .block, .transition, .status, .slot]
    (onSwap word : Act Loader σ _) := by
  refine .bind within_client fun l => ?_
  split
  · exact .bind (within_debug _) fun _ => within_unexpected _
  · split
    · exact within_unexpected _
    · refine .bind ((within_shakeHands _ _ _).mono (by decide)) fun _ => ?_
      exact .bind (within_swapOut.mono (by decide)) fun _ => .pure _
    · refine .bind (within_swapIn.mono (by decide)) fun back => ?_
      split
      · refine .bind ((within_notify _ _).mono (by decide)) fun told => ?_
        exact .bind (within_debugPlatform _ told) fun _ => .pure _
      · exact .pure _

theorem within_onExit (word : UInt32) :
    Within [.signal, .slot, .teardown] (onExit word : Act Loader σ _) := by
  have hqueue (l : Loader) : Within [.signal, .slot, .teardown] (do
      Act.modifyClient fun now =>
        { now with exitPending := true, tasks := (now.tasks.push (.teardown l.target)).2 }
      record (.teardownQueued l.target)
      pure (.ok ()) : Act Loader σ (Except Error Unit)) :=
    .bind (within_modify (by decide) fun _ => ⟨rfl, rfl⟩) fun _ => .bind (within_record rfl) fun _ => .pure _
  refine .bind within_client fun l => ?_
  split
  · exact within_unexpected _
  · split
    · exact .pure _
    · dsimp only
      split
      · exact .bind ((within_shakeHands _ _ _).mono (by decide)) fun _ => hqueue l
      · exact hqueue l

/-- Of all that the loader does, a notification only leaves the injection and the settings alone. -/
theorem within_handleNotification : Within
    (.signal :: .publish :: .schedule :: .map :: .writeSwap :: .readSwap :: Concern.release)
    (handleNotification : Act Loader σ _) := by
  have hrest (result : Except Error Unit) : Within
      (.signal :: .publish :: .schedule :: .map :: .writeSwap :: .readSwap :: Concern.release) (do
        Act.call (.publish lifecycleHandled)
        let _ ← runPendingTasks
        pure result : Act Loader σ (Except Error Unit)) :=
    .bind (within_call nofun rfl) fun _ =>
      .bind (within_runPendingTasks.mono (by decide)) fun _ => .pure _
  refine .bind within_status fun word => .bind (within_setStatus (by decide) _) fun _ => ?_
  dsimp only
  split
  · exact .bind (.pure _) hrest
  · split
    · exact .bind ((within_onExit word).mono (by decide)) hrest
    · split
      · exact .bind ((within_onSwap word).mono (by decide)) hrest
      · exact .bind (within_unexpected word) hrest

end notification
end Loader

namespace Service
open Wire
variable {σ : Type} (r : Request)

theorem within_setLoadParameters : Within [.parameters] (setLoadParameters r : Act Loader σ _) := by
  rw [setLoadParameters]
  split
  · exact .pure _
  · exact .bind (within_parameters (by decide) fun l => ⟨_, l.pluginPath, rfl⟩) fun _ => .pure _

theorem within_displayMenu : Within [.settings] (displayMenu r : Act Loader σ _) := by
  rw [displayMenu]
  split
  · exact .pure _
  · refine .bind (within_call nofun rfl) fun answer => ?_
    cases answer <;> exact .pure _

theorem within_displayMessage : Within [.settings] (displayMessage r : Act Loader σ _) := by
  rw [displayMessage]
  split
  · exact .pure _
  · exact .bind (within_call nofun rfl) fun _ => .pure _

theorem within_displayError : Within [.settings] (displayError r : Act Loader σ _) := by
  rw [displayError]
  split
  · exact .pure _
  · exact .bind (within_call nofun rfl) fun _ => .pure _

theorem within_getPluginPath : Within [.settings] (getPluginPath r : Act Loader σ _) := by
  rw [getPluginPath]
  split
  · exact .pure _
  · refine .bind within_client fun l => ?_
    split <;> exact .pure _

/-- New swap settings move nothing: what is swapped out keeps those it was written with. -/
theorem within_setSwapParameters : Within [.settings] (setSwapParameters r : Act Loader σ _) := by
  refine .bind within_client fun l => ?_
  refine .bind (within_settings (by decide) fun _ => ⟨rfl, rfl, rfl, rfl, rfl, rfl, rfl⟩) fun _ => ?_
  split
  · exact .pure _
  · refine .bind (within_settings (by decide) fun _ => ⟨rfl, rfl, rfl, rfl, rfl, rfl, rfl⟩) fun _ => ?_
    exact .bind (within_call nofun rfl) fun _ => .pure _

theorem within_setExeLoadParameters :
    Within [.settings] (setExeLoadParameters r : Act Loader σ _) := by
  refine .bind (within_settings (by decide) fun _ => ⟨rfl, rfl, rfl, rfl, rfl, rfl, rfl⟩) fun _ => ?_
  split
  · exact .pure _
  · refine .bind (within_settings (by decide) fun _ => ⟨rfl, rfl, rfl, rfl, rfl, rfl, rfl⟩) fun _ => ?_
    split
    · exact .pure _
    · exact .bind (within_call nofun rfl) fun _ => .pure _

/-- Of all commands only those about loads are about more than settings. -/
theorem within_perform {c : Command} (hload : c ≠ .loadPlugin) (hset : c ≠ .setLoadParameters) :
    Within [.settings] (perform r c : Act Loader σ _) := by
  cases c with
  | loadPlugin => exact absurd rfl hload
  | setLoadParameters => exact absurd rfl hset
  | isEnabled => exact .bind within_client fun _ => .pure _
  | setEnabled => exact .bind (within_setEnabled _) fun _ => .pure _
  | displayMenu => exact within_displayMenu r
  | displayMessage => exact within_displayMessage r
  | displayError => exact within_displayError r
  | getVersion => exact .pure _
  | getArbiter => exact .bind within_client fun _ => .pure _
  | getPluginPath => exact within_getPluginPath r
  | setUiBlock => exact .bind (within_setUiBlocked _) fun _ => .pure _
  | setSwapParameters => exact within_setSwapParameters r
  | setExeLoadParameters => exact within_setExeLoadParameters r

end Service
end PluginSlot
