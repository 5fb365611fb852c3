import PluginSlot.Proofs.Loader.Footprint

/-!
What most of the loader has no part in. Handshakes, messages and the journal concern neither the
memory block nor the slot; settings concern neither the slot nor where the memory is. What operations
do to these is therefore up to loads, notifications, tasks and the shutdown.
-/
namespace PluginSlot

/-- A call about the contents of the plugin's memory, in the process, in memory or in its swap file. -/
def Platform.Call.concernsMemory : Platform.Call → Bool
  | .inject _ _ _ | .map _ _ | .unmap _ _ | .writeSwap _ _ _ | .readSwap _ _ _ => true
  | _ => false

/-- A call that concerns neither the plugin's memory nor its threads, and is no part of a record or of
writing the status word. -/
def Platform.Call.isPeripheral : Platform.Call → Bool
  | .schedule _ _ | .writeStatus _ | .now => false
  | c => !c.concernsMemory

def Loader.Event.isTransition : Loader.Event → Bool
  | .transition _ _ => true
  | _ => false

namespace Loader
open Platform Wire
variable {σ α β γ : Type} {cs : List Concern}

/-- A property of the machine in which the shared words, peripheral calls and all records but those of
transitions have no part. -/
structure Core (h : Handler Loader σ) (P : Machine Loader σ → Prop) : Prop where
  call : ∀ c : Call, c.isPeripheral = true → (Act.call c).Ensures h P fun _ => P
  words : ∀ m words, P m → P { m with words := words }
  record : ∀ event : Event, event.isTransition = false → (record event).Ensures h P fun _ => P

/-- A core property in which settings have no part either. -/
structure Central (h : Handler Loader σ) (P : Machine Loader σ → Prop) : Prop extends Core h P where
  settings : ∀ m (l : Loader), l.state = m.client.state → l.target = m.client.target →
    l.block.placement = m.client.block.placement → l.exitPending = m.client.exitPending →
    l.tasks = m.client.tasks → l.journal = m.client.journal → P m → P { m with client := l }

/-- A core property in which the status word and the journal have no part at all. -/
structure Internal (h : Handler Loader σ) (P : Machine Loader σ → Prop) : Prop extends Core h P where
  status : ∀ value, (Act.setStatus value).Ensures h P fun _ => P
  journal : ∀ event, (Loader.record event).Ensures h P fun _ => P

theorem Internal.of {h : Handler Loader σ} {P : Machine Loader σ → Prop}
    (hcall : ∀ c : Call, c.concernsMemory = false → (Act.call c).Ensures h P fun _ => P)
    (hwords : ∀ m words, P m → P { m with words := words })
    (hstatus : ∀ m status, P m → P { m with status := status })
    (hjournal : ∀ m journal, P m → P { m with client := { m.client with journal := journal } }) :
    Internal h P := by
  have hrecord (event : Event) : (record event).Ensures h P fun _ => P :=
    .bind (hcall .now rfl) fun _ m hm => hjournal m _ hm
  constructor
  · constructor
    · intro c hc
      apply hcall c
      cases c <;> first | rfl | cases hc
    · exact hwords
    · exact fun event _ => hrecord event
  · exact fun value m hm => hstatus _ _ (hcall (.writeStatus value) rfl m hm)
  · exact hrecord

/-- The concerns of periphery. -/
def Concern.peripheral : List Concern := [.signal, .publish, .close, .teardown, .title, .flash]

/-- The concerns of periphery and settings. -/
def Concern.marginal : List Concern := .parameters :: .handles :: .settings :: peripheral

/-- The concerns of an operation that neither loads anything nor ends the loader's life. -/
def Concern.usual : List Concern :=
  [.signal, .publish, .schedule, .map, .unmap, .writeSwap, .readSwap, .close, .transition, .teardown,
    .status, .settings, .block, .slot]

/-- The concerns that have no part in loads. -/
def Concern.aside : List Concern := .handles :: usual

/-- A computation that keeps every core property. -/
def Peripheral (h : Handler Loader σ) (x : Act Loader σ α) : Prop :=
  ∀ P, Core h P → x.Ensures h P fun _ => P

/-- A computation that keeps every central property. -/
def Marginal (h : Handler Loader σ) (x : Act Loader σ α) : Prop :=
  ∀ P, Central h P → x.Ensures h P fun _ => P

section
variable {h : Handler Loader σ} {x : Act Loader σ α} {g : α → Act Loader σ β}

/-- A view of the machine that periphery does not change. -/
theorem Peripheral.keeps {f : Machine Loader σ → γ} (hx : Peripheral h x)
    (hf : ∀ v, Core h fun m => f m = v) : x.Keeps h f := fun m => hx _ (hf (f m)) m rfl

theorem Marginal.keeps {f : Machine Loader σ → γ} (hx : Marginal h x)
    (hf : ∀ v, Central h fun m => f m = v) : x.Keeps h f := fun m => hx _ (hf (f m)) m rfl

theorem Peripheral.pure (a : α) : Peripheral h (Pure.pure a : Act Loader σ α) :=
  fun _ _ _ hm => hm

theorem Peripheral.bind (hx : Peripheral h x) (hg : ∀ a, Peripheral h (g a)) :
    Peripheral h (x >>= g) := fun P hP => .bind (hx P hP) fun a => hg a P hP

theorem Core.bears {P : Machine Loader σ → Prop} (hP : Core h P) : Bears h Concern.peripheral P where
  call c hc hk := by
    apply hP.call c
    cases c <;> first | rfl | exact absurd rfl hc | cases hk
  words := hP.words
  record event hk := by
    apply hP.record event
    cases event <;> first | rfl | cases hk
  status hk := absurd hk (by decide)
  settings hk := absurd hk (by decide)
  parameters hk := absurd hk (by decide)
  handles hk := absurd hk (by decide)
  block hk := absurd hk (by decide)
  slot hk := absurd hk (by decide)

theorem Central.bears {P : Machine Loader σ → Prop} (hP : Central h P) :
    Bears h Concern.marginal P where
  call c hc hk := by
    apply hP.call c
    cases c <;> first | rfl | exact absurd rfl hc | cases hk
  words := hP.words
  record event hk := hP.toCore.bears.record event (by cases event <;> first | rfl | cases hk)
  status hk := absurd hk (by decide)
  settings _ m l hstate htarget hplacement hexit htasks hjournal _ :=
    hP.settings m l hstate htarget hplacement hexit htasks hjournal
  parameters _ m _ _ := hP.settings m _ rfl rfl rfl rfl rfl rfl
  handles _ m _ _ := hP.settings m _ rfl rfl rfl rfl rfl rfl
  block hk := absurd hk (by decide)
  slot hk := absurd hk (by decide)

theorem Within.peripheral (hx : Within cs x) (hcs : cs ⊆ Concern.peripheral) : Peripheral h x :=
  fun P hP => hx h P (hP.bears.mono hcs)

theorem Within.marginal (hx : Within cs x) (hcs : cs ⊆ Concern.marginal) :
    Marginal h x := fun P hP => hx h P (hP.bears.mono hcs)

theorem peripheral_client : Peripheral h (Act.client : Act Loader σ _) :=
  within_client.peripheral (List.nil_subset _)

theorem peripheral_status : Peripheral h (Act.status : Act Loader σ _) :=
  within_status.peripheral (List.nil_subset _)

theorem peripheral_call {c : Call} (hc : c.isPeripheral = true) :
    Peripheral h (Act.call c : Act Loader σ c.Answer) := fun _ hP => hP.call c hc

theorem peripheral_setWord (word : Handshake.SharedWord) (value : Int32) :
    Peripheral h (Act.setWord word value : Act Loader σ _) :=
  (within_setWord word value).peripheral (List.nil_subset _)

theorem peripheral_debug (line : String) : Peripheral h (Act.debug line : Act Loader σ _) :=
  (within_debug line).peripheral (List.nil_subset _)

theorem peripheral_record {event : Event} (he : event.isTransition = false) :
    Peripheral h (record event : Act Loader σ _) := fun _ hP => hP.record event he

end

section handshake
variable {h : Handler Loader σ}

theorem peripheral_notify (arbiter : Kernel.Handle) (event : Int32) :
    Peripheral h (Handshake.notify arbiter event : Act Loader σ _) :=
  (within_notify arbiter event).peripheral (by decide)

theorem peripheral_shakeHands (arbiter : Kernel.Handle) (event : Int32) (kind : HandshakeKind) :
    Peripheral h (shakeHands arbiter event kind : Act Loader σ _) :=
  (within_shakeHands arbiter event kind).peripheral (by decide)

theorem peripheral_unexpected (word : UInt32) :
    Peripheral h (unexpected word : Act Loader σ _) :=
  (within_unexpected word).peripheral (List.nil_subset _)

theorem peripheral_debugRegion (line : String) (r : Except Region.Error Unit) :
    Peripheral h (debugRegion line r : Act Loader σ _) :=
  (within_debugRegion line r).peripheral (List.nil_subset _)

theorem peripheral_debugPlatform (line : String) (r : Except Platform.Error α) :
    Peripheral h (debugPlatform line r : Act Loader σ _) :=
  (within_debugPlatform line r).peripheral (List.nil_subset _)

end handshake

section settings
variable {h : Handler Loader σ}

/-- A change of settings alone. -/
theorem marginal_modify {e : Loader → Loader} (he : ∀ l, (e l).state = l.state ∧
    (e l).target = l.target ∧ (e l).block.placement = l.block.placement ∧
    (e l).exitPending = l.exitPending ∧ (e l).tasks = l.tasks ∧ (e l).journal = l.journal) :
    Marginal h (Act.modifyClient e : Act Loader σ _) := by
  intro P hP m hm
  obtain ⟨hstate, htarget, hplacement, hexit, htasks, hjournal⟩ := he m.client
  exact hP.settings m (e m.client) hstate htarget hplacement hexit htasks hjournal hm

theorem marginal_closeHandles : Marginal h
    (do
      let l ← Act.client
      Act.modifyClient ({ · with arbiter := .null, lifecycleEvent := .null })
      match ← closeEach [l.arbiter, l.lifecycleEvent] with
      | .error e => pure (.error e)
      | .ok _ =>
        Act.debug "[plgldr] shutdown"
        pure (.ok ()) : Act Loader σ (Except Error Unit)) :=
  within_closeHandles.marginal (by decide)

/-- Besides settings, the start only clears the status word. -/
theorem ensures_start {P : Machine Loader σ → Prop} (hP : Central h P)
    (hset : (Act.setStatus Status.slotEmpty).Ensures h P fun _ => P) :
    start.Ensures h P fun _ => P := by
  have hcall {c : Call} (hc : c.isPeripheral = true) :
      (Act.call c).Ensures h P fun _ => P := hP.call c hc
  refine .bind (hcall rfl) fun answer => ?_
  cases answer with
  | error e => exact .pure fun _ hm => hm
  | ok arbiter =>
    refine .bind (hcall rfl) fun answer => ?_
    cases answer with
    | error e => exact .bind (hcall rfl) fun _ => .pure fun _ hm => hm
    | ok event =>
      refine .bind (hcall rfl) fun enabled => ?_
      have hhandles : Marginal h (Act.modifyClient
          ({ · with arbiter := arbiter, lifecycleEvent := event, enabled := enabled })) :=
        marginal_modify fun _ => ⟨rfl, rfl, rfl, rfl, rfl, rfl⟩
      refine .bind (hhandles P hP) fun _ => .bind hset fun _ => ?_
      exact .bind (hcall rfl) fun _ => .pure fun _ hm => hm

end settings

section load
variable {h : Handler Loader σ} {P Q : Machine Loader σ → Prop} {target : Kernel.Handle}

section inject
variable {S : Except Error Unit → Machine Loader σ → Prop} (hP : Central h P)
  (hcall : ∀ path config, (Act.call (.inject target path config)).Ensures h P fun _ => P)
  (hplace : ∀ data, (place target data).Ensures h P S) (hfail : ∀ e m, P m → S (.error e) m)
include hP hcall hplace hfail

theorem ensures_injectFirst (config : List UInt32) (failure : Platform.Error)
    (paths : List String) : (injectFirst target config failure paths).Ensures h P S := by
  induction paths generalizing failure with
  | nil => exact .pure (hfail _)
  | cons path paths ih =>
    have hpath : Marginal h (Act.modifyClient ({ · with pluginPath := path })) :=
      marginal_modify fun _ => ⟨rfl, rfl, rfl, rfl, rfl, rfl⟩
    refine .bind (hpath P hP) fun _ => .bind (hcall path config) fun answer => ?_
    cases answer with
    | error e => exact ih e
    | ok data => exact hplace data

/-- An injection ends as the placing of the memory ends, or without any memory to place. -/
theorem ensures_inject : (inject target).Ensures h P fun r => S (r.map fun _ => ()) := by
  refine .bind (hP.call _ rfl) fun answer => ?_
  cases answer with
  | error e => exact .pure (hfail _)
  | ok titleId =>
    have huse : Marginal h (Act.modifyClient (·.useParameters titleId)) := by
      apply marginal_modify
      intro l
      rw [useParameters]
      split <;> exact ⟨rfl, rfl, rfl, rfl, rfl, rfl⟩
    refine .bind (peripheral_client P hP.toCore) fun l => .bind (huse P hP) fun _ => ?_
    refine .bind (ensures_injectFirst hP hcall hplace hfail _ _ _) fun answer => ?_
    cases answer <;> exact .pure fun _ hm => hm

end inject

/-- The end of a load is its transition. -/
theorem ensures_finishLoad (hP : Core h P) (hQ : Core h Q)
    (hrun : (transition .running).Ensures h P fun _ => Q) (noFlash : Bool) :
    (finishLoad target noFlash).Ensures h P fun _ => Q := by
  have hrest (line : String) (event : Event) (he : event.isTransition = false) :
      (do transition .running; Act.debug line; record event : Act Loader σ Unit).Ensures h P
        fun _ => Q :=
    .bind hrun fun _ => .bind (peripheral_debug line Q hQ) fun _ => peripheral_record he Q hQ
  refine .bind (peripheral_client P hP) fun l => ?_
  dsimp only
  split
  · exact .bind (peripheral_call rfl P hP) fun _ => hrest _ _ rfl
  · exact hrest _ _ rfl

end load

/-- What a notification does is done by its handler, and by the tasks that are put off. -/
theorem ensures_handleNotification {h : Handler Loader σ} {P Q R : Machine Loader σ → Prop}
    (hP : Core h P) (hset : ∀ value, (Act.setStatus value).Ensures h P fun _ => P)
    (hQ : Core h Q) (hPQ : ∀ m, P m → Q m)
    (hexit : ∀ word, (onExit word).Ensures h P fun _ => Q)
    (hswap : ∀ word, (onSwap word).Ensures h P fun _ => Q)
    (hrun : runPendingTasks.Ensures h Q fun _ => R) : handleNotification.Ensures h P fun _ => R := by
  have hrest (result : Except Error Unit) : (do
      Act.call (.publish lifecycleHandled)
      let _ ← runPendingTasks
      pure result : Act Loader σ (Except Error Unit)).Ensures h Q fun _ => R :=
    .bind (peripheral_call rfl Q hQ) fun _ => .bind hrun fun _ => .pure fun _ hm => hm
  refine .bind (peripheral_status P hP) fun word => ?_
  refine .bind (hset _) fun _ => ?_
  dsimp only
  split
  · exact .bind (.pure hPQ) hrest
  · split
    · exact .bind (hexit word) hrest
    · split
      · exact .bind (hswap word) hrest
      · exact .bind ((peripheral_unexpected word P hP).mono (fun _ hm => hm) fun _ => hPQ) hrest

end Loader

namespace Service
open Platform Loader Wire
variable {σ : Type} {h : Handler Loader σ} (r : Request)

/-- The target that a request asks to load, if the request is well-formed. -/
def Request.loads? (r : Request) : Option Kernel.Handle :=
  match Command.ofId? (Header.decode r.header).command with
  | some .loadPlugin => if r.hasShape .loadPlugin then (r.handle 0).toOption else none
  | _ => none

/-- The parameters that a request sets for the next load, if it is well-formed. -/
def Request.sets? (r : Request) : Option LoadParameters :=
  match Command.ofId? (Header.decode r.header).command with
  | some .setLoadParameters =>
    if r.hasShape .setLoadParameters then r.loadParameters.toOption else none
  | _ => none

/-- What a request is about is up to the command that it names, if it has the shape of it. -/
theorem within_respond_of_perform {cs : List Concern}
    (hperform : ∀ c, Command.ofId? (Header.decode r.header).command = some c → r.hasShape c = true →
      Within cs (perform r c : Act Loader σ _)) : Within cs (respond r : Act Loader σ _) := by
  rw [respond]
  split
  case h_1 c hc =>
    rw [performChecked]
    split
    case isTrue hshape =>
      refine .bind (hperform c hc hshape) fun answer => ?_
      cases answer <;> exact .pure _
    case isFalse => exact .bind (within_debug _) fun _ => .pure _
  case h_2 => exact .bind (within_debug _) fun _ => .pure _

theorem within_loadPlugin {cs : List Concern}
    (hc : Command.ofId? (Header.decode r.header).command = some .loadPlugin)
    (hshape : r.hasShape .loadPlugin = true) (hload : r.loads? = none) :
    Within cs (loadPlugin r : Act Loader σ _) := by
  simp only [Request.loads?, hc, hshape, if_true, Except.toOption] at hload
  rw [loadPlugin]
  split
  · exact .pure _
  case h_2 target htarget => simp [htarget] at hload

/-- A request that loads nothing is about settings and parameters at most. -/
theorem within_respond (hload : r.loads? = none) :
    Within [.parameters, .settings] (respond r : Act Loader σ _) := by
  refine within_respond_of_perform r fun c hc hshape => ?_
  by_cases hplugin : c = .loadPlugin
  · subst hplugin
    exact within_loadPlugin r hc hshape hload
  · by_cases hset : c = .setLoadParameters
    · subst hset
      exact (within_setLoadParameters r).mono (by decide)
    · exact (within_perform r hplugin hset).mono (by decide)

/-- One that sets no parameters either is about settings at most. -/
theorem within_respond_of_sets (hload : r.loads? = none) (hset : r.sets? = none) :
    Within [.settings] (respond r : Act Loader σ _) := by
  refine within_respond_of_perform r fun c hc hshape => ?_
  by_cases hplugin : c = .loadPlugin
  · subst hplugin
    exact within_loadPlugin r hc hshape hload
  · by_cases hparams : c = .setLoadParameters
    · subst hparams
      simp only [Request.sets?, hc, hshape, if_true, Except.toOption] at hset
      show Within _ (setLoadParameters r)
      rw [setLoadParameters]
      split
      · exact .pure _
      case h_2 params hfound => simp [hfound] at hset
    · exact within_perform r hplugin hparams

/-- A request that loads a plugin does nothing else. -/
theorem respond_of_loads {target : Kernel.Handle} (hload : r.loads? = some target) :
    (respond r : Act Loader σ Response) = (do
      match ← load target with
      | .error e => pure (.failure .loadPlugin e)
      | .ok _ => pure (.ok .loadPlugin)) := by
  rw [Request.loads?] at hload
  split at hload
  case h_1 hc =>
    split at hload
    case isTrue hshape =>
      have htarget : r.handle 0 = .ok target := by
        cases hhandle : r.handle 0 <;> simp_all [Except.toOption]
      have hplugin : (loadPlugin r : Act Loader σ _) = (do
          match ← load target with
          | .error e => pure (.error e)
          | .ok _ => pure (.ok (.ok .loadPlugin))) := by
        rw [loadPlugin]
        split
        case h_1 e he => cases he.symm.trans htarget
        case h_2 found hfound =>
          cases hfound.symm.trans htarget
          rfl
      funext h m
      simp only [respond, hc, performChecked, hshape, if_true, perform, hplugin, Act.bind_run]
      cases (load target h m).1 <;> rfl
    case isFalse => cases hload
  case h_2 => cases hload

/-- A request that sets parameters does nothing else. -/
theorem respond_of_sets {params : LoadParameters} (hset : r.sets? = some params) :
    (respond r : Act Loader σ Response) = (do
      Act.modifyClient ({ · with nextLoad := some params })
      pure (.ok .setLoadParameters)) := by
  rw [Request.sets?] at hset
  split at hset
  case h_1 hc =>
    split at hset
    case isTrue hshape =>
      have hparams : r.loadParameters = .ok params := by
        cases hread : r.loadParameters <;> simp_all [Except.toOption]
      funext h m
      simp only [respond, hc, performChecked, hshape, if_true, perform, setLoadParameters, hparams,
        Act.bind_run]
      rfl
    case isFalse => cases hset
  case h_2 => cases hset

/-- The target of a load, whether it is called directly or by a request. -/
def Operation.loads? : Operation → Option Kernel.Handle
  | .load target => some target
  | .request r => r.loads?
  | _ => none

/-- The parameters that an operation sets for the next load. -/
def Operation.sets? : Operation → Option LoadParameters
  | .request r => r.sets?
  | _ => none

/-- An operation that has nothing to do with notifications, and does not end the loader's life. -/
def Operation.isQuiet : Operation → Bool
  | .handleNotification | .post _ _ | .setStatus _ | .shutdown => false
  | _ => true

/-- The status word that the operation handles as a notification, given the one before it. -/
def Operation.notified? (op : Operation) (status : UInt32) : Option UInt32 :=
  match op with
  | .handleNotification => some status
  | .post event true => some (Status.post status event)
  | _ => none

section operations
variable {P Q : Machine Loader σ → Prop} (hP : Central h P) (hQ : Central h Q)
  (hPQ : ∀ m, P m → Q m)
include hP hPQ

theorem ensures_respond
    (hload : ∀ target, r.loads? = some target → (load target).Ensures h P fun _ => Q) :
    (respond r).Ensures h P fun _ => Q := by
  cases hloads : r.loads? with
  | none =>
    have hsettings : Marginal h (respond r) := (within_respond r hloads).marginal (by decide)
    exact (hsettings P hP).mono (fun _ hm => hm) fun _ => hPQ
  | some target =>
    rw [respond_of_loads r hloads]
    refine .bind (hload target hloads) fun answer => ?_
    cases answer <;> exact .pure fun _ hm => hm

include hQ
variable (hrun : runPendingTasks.Ensures h Q fun _ => Q)
include hrun

theorem ensures_handle
    (hload : ∀ target, r.loads? = some target → (load target).Ensures h P fun _ => Q) :
    (handle r).Ensures h P fun _ => Q := by
  refine .bind (ensures_respond r hP hPQ hload) fun response => ?_
  refine .bind (peripheral_record rfl Q hQ.toCore) fun _ => ?_
  refine .bind (within_showPendingError.marginal (by decide) Q hQ) fun _ => ?_
  exact .bind hrun fun _ => .pure fun _ hm => hm

variable (op : Operation)
  (hload : ∀ target, op.loads? = some target → (load target).Ensures h P fun _ => Q)
  (hedit : ∀ change, op = .editMemory change → op.run.Ensures h P fun _ => Q)
include hload hedit

/-- Of these operations, only loads and tasks concern the slot, and edits the memory. -/
theorem ensures_quiet (hquiet : op.isQuiet = true) : op.run.Ensures h P fun _ => Q := by
  have hsettings {α : Type} {x : Act Loader σ α} (hx : Within [.settings] x) (f : α → Outcome) :
      (do return f (← x) : Act Loader σ Outcome).Ensures h P fun _ => Q :=
    .bind (hx.marginal (by decide) P hP) fun _ => .pure hPQ
  cases op with
  | request r => exact .bind (ensures_handle r hP hQ hPQ hrun hload) fun _ => .pure fun _ hm => hm
  | load target => exact .bind (hload target rfl) fun _ => .pure fun _ hm => hm
  | handleNotification | post _ _ | setStatus _ | shutdown => cases hquiet
  | setEnabled enabled => exact hsettings (within_setEnabled _) _
  | toggleEnabled => exact hsettings within_toggleEnabled _
  | setUiBlocked blocked => exact hsettings (within_setUiBlocked _) _
  | showPendingError => exact hsettings within_showPendingError _
  | runPendingTasks =>
    exact .bind (hrun.mono hPQ fun _ _ hm => hm) fun _ => .pure fun _ hm => hm
  | editMemory change => exact hedit change rfl
  | setEvent event => exact hsettings (within_setWord _ _) _
  | pluginWait timeout =>
    refine .bind (peripheral_client P hP.toCore) fun l => ?_
    refine .bind ((within_pluginWait _ _).peripheral (List.nil_subset _) P hP.toCore) fun answer => ?_
    cases answer <;> exact .pure hPQ
  | pluginReply =>
    refine .bind (peripheral_client P hP.toCore) fun l => ?_
    refine .bind ((within_pluginReply _).peripheral (by decide) P hP.toCore) fun answer => ?_
    cases answer <;> exact .pure hPQ

theorem ensures_operation (hset : ∀ value, (Act.setStatus value).Ensures h P fun _ => P)
    (hnotify : handleNotification.Ensures h P fun _ => Q)
    (hshutdown : op = .shutdown → shutdown.Ensures h P fun _ => Q) :
    op.run.Ensures h P fun _ => Q := by
  cases op with
  | handleNotification => exact .bind hnotify fun _ => .pure fun _ hm => hm
  | post event notify =>
    refine .bind (peripheral_status P hP.toCore) fun word => .bind (hset _) fun _ => ?_
    split
    · exact .bind hnotify fun _ => .pure fun _ hm => hm
    · exact .pure hPQ
  | setStatus value => exact .bind (hset value) fun _ => .pure hPQ
  | shutdown => exact .bind (hshutdown rfl) fun _ => .pure fun _ hm => hm
  | _ => exact ensures_quiet hP hQ hPQ hrun _ hload hedit rfl

end operations

/-- What comes after the response is about settings and tasks. -/
theorem within_handle_of_respond {cs : List Concern} (hcs : .settings :: Concern.release ⊆ cs)
    (hrespond : Within cs (respond r : Act Loader σ _)) : Within cs (handle r : Act Loader σ _) := by
  obtain ⟨hsettings, hrelease⟩ := List.cons_subset.mp hcs
  refine .bind hrespond fun response => .bind (within_record rfl) fun _ => ?_
  refine .bind (within_showPendingError.mono (by simpa using hsettings)) fun _ => ?_
  exact .bind (within_runPendingTasks.mono hrelease) fun _ => .pure _

theorem within_handle : Within (.settings :: Concern.load) (handle r : Act Loader σ _) := by
  refine within_handle_of_respond r (by decide) ?_
  cases hloads : r.loads? with
  | none => exact (within_respond r hloads).mono (by decide)
  | some target =>
    rw [respond_of_loads r hloads]
    refine .bind ((within_load target).mono (by decide)) fun answer => ?_
    cases answer <;> exact .pure _

/-- What an operation is about is up to the requests and loads, but for these concerns. -/
theorem within_operation_of {cs : List Concern} (op : Operation) (hcs : Concern.usual ⊆ cs)
    (hrequest : ∀ r, op = .request r → Within cs (handle r : Act Loader σ _))
    (hload : ∀ target, op = .load target → Within cs (load target : Act Loader σ _))
    (hshutdown : op = .shutdown → .handles ∈ cs) : Within cs (op.run : Act Loader σ _) := by
  have hdone {α : Type} {ds : List Concern} {x : Act Loader σ α} (hx : Within ds x)
      (hds : ds ⊆ Concern.usual) (f : α → Outcome) :
      Within cs (do return f (← x) : Act Loader σ Outcome) :=
    .bind (hx.mono (List.Subset.trans hds hcs)) fun _ => .pure _
  cases op with
  | request r => exact .bind (hrequest r rfl) fun _ => .pure _
  | load target => exact .bind (hload target rfl) fun _ => .pure _
  | handleNotification => exact hdone within_handleNotification (by decide) _
  | post event notify =>
    refine .bind within_status fun word => .bind (within_setStatus (hcs (by decide)) _) fun _ => ?_
    split
    · exact hdone within_handleNotification (by decide) _
    · exact .pure _
  | setStatus value => exact .bind (within_setStatus (hcs (by decide)) _) fun _ => .pure _
  | shutdown =>
    have hrelease : Concern.release ⊆ cs := List.Subset.trans (by decide) hcs
    exact .bind (within_shutdown.mono (List.cons_subset.mpr ⟨hshutdown rfl, hrelease⟩)) fun _ => .pure _
  | setEnabled enabled => exact hdone (within_setEnabled _) (by decide) _
  | toggleEnabled => exact hdone within_toggleEnabled (by decide) _
  | setUiBlocked blocked => exact hdone (within_setUiBlocked _) (by decide) _
  | showPendingError => exact hdone within_showPendingError (by decide) _
  | runPendingTasks => exact hdone within_runPendingTasks (by decide) _
  | editMemory change =>
    refine .bind ((within_edit change).mono (by simpa using hcs (by decide))) fun edited => ?_
    cases edited <;> exact .pure _
  | setEvent event => exact .bind (within_setWord _ _) fun _ => .pure _
  | pluginWait timeout =>
    refine .bind within_client fun l => .bind (within_pluginWait _ _) fun answer => ?_
    cases answer <;> exact .pure _
  | pluginReply =>
    have hsignal : [.signal] ⊆ cs :=
      List.cons_subset.mpr ⟨hcs (by decide), List.nil_subset _⟩
    refine .bind within_client fun l => .bind ((within_pluginReply _).mono hsignal) fun answer => ?_
    cases answer <;> exact .pure _

/-- There is nothing that an operation may do besides. -/
theorem within_operation (op : Operation) : Within Concern.every (op.run : Act Loader σ _) :=
  within_operation_of op (by decide) (fun r _ => (within_handle r).mono (by decide))
    (fun target _ => (within_load target).mono (by decide)) fun _ => by decide

/-- Only a shutdown gives up the loader's own handles. -/
theorem within_operation_of_ne_shutdown {op : Operation} (hop : op ≠ .shutdown) :
    Within Concern.besidesHandles (op.run : Act Loader σ _) :=
  within_operation_of op (by decide) (fun r _ => (within_handle r).mono (by decide))
    (fun target _ => (within_load target).mono (by decide)) fun h => absurd h hop

/-- An operation that neither loads anything nor sets parameters has no part in loads. -/
theorem within_operation_of_none {op : Operation} (hload : op.loads? = none)
    (hset : op.sets? = none) : Within Concern.aside (op.run : Act Loader σ _) := by
  refine within_operation_of op (by decide) ?_ ?_ fun _ => by decide
  · rintro r rfl
    exact within_handle_of_respond r (by decide)
      ((within_respond_of_sets r hload hset).mono (by decide))
  · rintro target rfl
    cases hload

end Service
end PluginSlot
