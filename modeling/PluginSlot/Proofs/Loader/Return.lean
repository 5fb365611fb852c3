import PluginSlot.Proofs.Loader.Course
import PluginSlot.Proofs.Loader.Image
import PluginSlot.Proofs.Loader.Standing

/-!
The return of a plugin that is swapped out. The next swap event brings it back, in whichever way it went
out, unless its swap file cannot be read. Then nothing has changed, and any later swap event may bring it
back.
-/
namespace PluginSlot
open Platform Loader Wire

/-- A platform that never refuses to map or to unmap memory. -/
structure Platform.Obliging {σ : Type} (p : Platform σ) : Prop where
  map : ∀ target length s, (p.answer (.map target length) s).1 = .ok ()
  unmap : ∀ target length s, (p.answer (.unmap target length) s).1 = .ok ()

theorem Platform.Obliging.withStore {σ : Type} {p : Platform σ} (hp : p.Obliging) :
    (withStore p).Obliging :=
  ⟨fun target length s => hp.map target length s.1, fun target length s => hp.unmap target length s.1⟩

theorem Platform.Stub.obliging : Stub.platform.Obliging := ⟨fun _ _ _ => rfl, fun _ _ _ => rfl⟩

/-- Threads that the loader holds or releases. -/
def Observation.schedule? : Observation → Option (Kernel.Handle × Kernel.ScheduleMode)
  | .answered (.schedule target mode) _ => some (target, mode)
  | _ => none

def Observation.isRead : Observation → Bool
  | .answered (.readSwap _ _ _) _ => true
  | _ => false

namespace Loader

/-- What counts of a swap. -/
structure Scene where
  /-- All but the journal. -/
  loader : Loader
  words : Handshake.Words
  store : SwapStore
  /-- Latest first. -/
  scheduled : List (Kernel.Handle × Kernel.ScheduleMode)
  hasRead : Bool

namespace Scene

def place (v : Scene) (placement : Region.Placement) : Scene :=
  { v with loader := { v.loader with block := { v.loader.block with placement := placement } } }

def move (v : Scene) (state : SlotState) : Scene :=
  { v with loader := { v.loader with state := state } }

/-- The threads of a plugin are released, and it runs. -/
def release (v : Scene) (target : Kernel.Handle) : Scene :=
  { v with scheduled := (target, .unlock) :: v.scheduled }.move .running

/-- An event is posted, and awaits its reply. -/
def post (v : Scene) (event : Int32) : Scene := { v with words := ⟨event, Handshake.awaiting⟩ }

end Scene

variable {σ α β : Type} {p : Platform σ}

def withoutJournal (l : Loader) : Loader := { l with journal := .new 0 }

def scene (m : Machine Loader (Observed σ)) : Scene where
  loader := withoutJournal m.client
  words := m.words
  store := m.platform.1.2
  scheduled := m.platform.2.filterMap Observation.schedule?
  hasRead := m.platform.2.any (·.isRead)

/-- What a computation makes of a scene. -/
abbrev Shows (p : Platform σ) (v : Scene) (x : Act Loader (Observed σ) α) (Q : α → Scene → Prop) :
    Prop := x.Assures (observer p) scene (· = v) Q

section rules
variable {v u : Scene} {x : Act Loader (Observed σ) α} {g : α → Act Loader (Observed σ) β}
  {S : β → Scene → Prop}

theorem Shows.then {a : α} (hx : Shows p v x fun r w => r = a ∧ w = u) (hg : Shows p u (g a) S) :
    Shows p v (x >>= g) S := by
  refine .bind hx fun r m hm => ?_
  obtain ⟨rfl, hm⟩ := hm
  exact hg m hm

/-- The result does not matter. -/
theorem Shows.past (hx : Shows p v x fun _ w => w = u) (hg : ∀ a, Shows p u (g a) S) :
    Shows p v (x >>= g) S := .bind hx hg

theorem Shows.client {g : Loader → Act Loader (Observed σ) β}
    (hg : ∀ l, withoutJournal l = v.loader → Shows p v (g l) S) :
    Shows p v (Act.client >>= g) S :=
  fun m hm => hg m.client (congrArg Scene.loader hm) m hm

end rules

section steps
variable {v u : Scene}

/-- A call that changes nothing of the scene. -/
theorem scene_call {c : Call} (hc : Concern.within
      [.signal, .publish, .inject, .map, .unmap, .close, .status] c.concern? = true) :
    (Act.call c : Act Loader (Observed σ) c.Answer).Keeps (observer p) scene := by
  intro m
  cases c <;> first | rfl | cases hc

theorem scene_debug (line : String) :
    (Act.debug line : Act Loader (Observed σ) _).Keeps (observer p) scene := scene_call rfl

theorem scene_record (event : Event) :
    (record event : Act Loader (Observed σ) _).Keeps (observer p) scene :=
  .bind (scene_call rfl) fun _ _ => rfl

theorem scene_setStatus (value : UInt32) :
    (Act.setStatus value : Act Loader (Observed σ) _).Keeps (observer p) scene :=
  fun m => scene_call (c := .writeStatus value) rfl m

theorem shows_transition (state : SlotState) :
    Shows p v (transition state) fun _ w => w = v.move state := by
  refine Shows.client fun l _ => .past (u := v.move state) ?_ fun _ => ?_
  · exact fun m hm => hm ▸ rfl
  · exact (scene_setStatus _).then fun _ => (scene_record _).assures

theorem shows_map (hp : p.Obliging) (target : Kernel.Handle) (length : Nat) :
    Shows p v (Act.call (.map target length)) fun r w => r = .ok () ∧ w = v :=
  fun m hm => ⟨hp.map target length m.platform.1.1, hm⟩

theorem shows_readSwap {name : String} {length : Nat} {r : Except Platform.Error (List UInt8)}
    {store : SwapStore} (hread : v.store.read name length = (r, store)) (address : UInt32) :
    Shows p v (Act.call (.readSwap name address length)) fun answer w =>
      answer = r ∧ w = { v with store := store, hasRead := true } := by
  rintro m rfl
  obtain ⟨rfl, rfl⟩ := Prod.mk.inj hread
  exact ⟨rfl, rfl⟩

theorem shows_onBlockAct {op : Region.Block → Act Loader (Observed σ) (α × Region.Block)}
    {a : α} {b : Region.Block}
    (hop : Shows p v (op v.loader.block) fun r w => r = (a, b) ∧ w = u) :
    Shows p v (onBlockAct op) fun r w =>
      r = a ∧ w = { u with loader := { u.loader with block := b } } := by
  refine Shows.client fun l hl => ?_
  rw [← hl] at hop
  refine Shows.then hop (.past (u := { u with loader := { u.loader with block := b } }) ?_ fun _ => ?_)
  · exact fun m hm => hm ▸ rfl
  · exact .pure fun w hw => ⟨rfl, hw⟩

end steps

section swap
variable {v u : Scene} {target : Kernel.Handle}

theorem shows_mount (hp : p.Obliging) {data : List UInt8} {saved : Option Region.SwapSettings}
    (hplace : v.loader.block.placement = .resident data false saved) :
    Shows p v (onBlockAct (·.mount target)) fun r w =>
      r = .ok () ∧ w = v.place (.resident data true saved) := by
  refine shows_onBlockAct ?_
  rw [Region.Block.mount, hplace]
  exact Shows.then (shows_map hp target _) (.pure fun w hw => ⟨rfl, hw⟩)

section restore
variable {length : Nat} {saved : Region.SwapSettings} {store : SwapStore}

theorem shows_readBack (hplace : v.loader.block.placement = .swappedOut length saved)
    {data : List UInt8} (hread : v.store.read saved.filename length = (.ok data, store))
    (hlength : data.length = length) :
    Shows p v (onBlockAct (·.readBack)) fun r w => r = .ok () ∧
      w = { v with store := store, hasRead := true }.place (.resident data false (some saved)) := by
  refine shows_onBlockAct ?_
  rw [Region.Block.readBack, hplace]
  refine Shows.then (shows_readSwap hread _) ?_
  dsimp only
  rw [if_pos hlength]
  exact .pure fun w hw => ⟨rfl, hw⟩

theorem shows_readBack_of_failed (hplace : v.loader.block.placement = .swappedOut length saved)
    {e : Platform.Error} (hread : v.store.read saved.filename length = (.error e, store)) :
    Shows p v (onBlockAct (·.readBack)) fun r w => r = .error (.platform e) ∧
      w = { v with store := store, hasRead := true } := by
  refine shows_onBlockAct (u := { v with store := store, hasRead := true }) ?_
  rw [Region.Block.readBack, hplace]
  exact Shows.then (shows_readSwap hread _) (.pure fun w hw => ⟨rfl, hw⟩)

/-- What the loader sees of its block when it is to be restored. -/
theorem Shows.restore {S : Except Region.Error Unit → Scene → Prop}
    (h : Shows p v (do
      match ← if v.loader.block.isSwappedOut then onBlockAct (·.readBack) else pure (.ok ()) with
      | .error e => pure (.error e)
      | .ok _ => onBlockAct (·.mount target)) S) : Shows p v (restore target) S := by
  refine Shows.client fun l hl => ?_
  rw [← hl] at h
  exact h

/-- What is still in memory only has to be mounted. -/
theorem shows_restore_of_resident (hp : p.Obliging) {data : List UInt8}
    {saved : Option Region.SwapSettings}
    (hplace : v.loader.block.placement = .resident data false saved) :
    Shows p v (restore target) fun r w => r = .ok () ∧ w = v.place (.resident data true saved) := by
  have hin : v.loader.block.isSwappedOut = false := by rw [Region.Block.isSwappedOut, hplace]
  refine Shows.restore ?_
  rw [hin]
  exact Shows.then (a := .ok ()) (.pure fun w hw => ⟨rfl, hw⟩) (shows_mount hp hplace)

theorem shows_restore (hp : p.Obliging) (hplace : v.loader.block.placement = .swappedOut length saved)
    {data : List UInt8} (hread : v.store.read saved.filename length = (.ok data, store))
    (hlength : data.length = length) : Shows p v (restore target) fun r w => r = .ok () ∧
      w = { v with store := store, hasRead := true }.place (.resident data true (some saved)) := by
  have hout : v.loader.block.isSwappedOut = true := by rw [Region.Block.isSwappedOut, hplace]
  refine Shows.restore ?_
  rw [hout]
  exact Shows.then (shows_readBack hplace hread hlength) (shows_mount hp rfl)

theorem shows_restore_of_failed (hplace : v.loader.block.placement = .swappedOut length saved)
    {e : Platform.Error} (hread : v.store.read saved.filename length = (.error e, store)) :
    Shows p v (restore target) fun r w => r = .error (.platform e) ∧
      w = { v with store := store, hasRead := true } := by
  have hout : v.loader.block.isSwappedOut = true := by rw [Region.Block.isSwappedOut, hplace]
  refine Shows.restore ?_
  rw [hout]
  exact Shows.then (shows_readBack_of_failed hplace hread) (.pure fun w hw => ⟨rfl, hw⟩)

end restore

theorem shows_swapIn
    (h : Shows p v (restore v.loader.target) fun r w => r = .ok () ∧ w = u) :
    Shows p v swapIn fun back w => back = true ∧ w = u.release v.loader.target := by
  refine Shows.client fun l hl => ?_
  have htarget : l.target = v.loader.target := congrArg (·.target) hl
  rw [htarget]
  have hunlock : Shows p u (Act.call (.schedule v.loader.target .unlock)) fun _ w =>
      w = { u with scheduled := (v.loader.target, .unlock) :: u.scheduled } := fun m hm => hm ▸ rfl
  refine Shows.then h (.past hunlock fun answer => ?_)
  -- whether the threads could be released makes no difference
  cases answer
  all_goals
    refine (scene_debug _).then fun _ => Shows.past (shows_transition .running) fun _ => ?_
    exact .pure fun w hw => ⟨rfl, hw⟩

theorem shows_swapIn_of_failed {e : Region.Error}
    (h : Shows p v (restore v.loader.target) fun r w => r = .error e ∧ w = u) :
    Shows p v swapIn fun back w => back = false ∧ w = u := by
  refine Shows.client fun l hl => ?_
  have htarget : l.target = v.loader.target := congrArg (·.target) hl
  rw [htarget]
  refine Shows.then h ((scene_debug _).then fun _ => (scene_record _).then fun _ => ?_)
  exact .pure fun w hw => ⟨rfl, hw⟩

/-- Whether a plugin is back or not, a swap event is done with; only one that is back is told. -/
theorem shows_onSwap {back : Bool} (hexit : v.loader.exitPending = false)
    (hs : v.loader.state = .swapped) (h : Shows p v swapIn fun r w => r = back ∧ w = u)
    (word : UInt32) : Shows p v (onSwap word) fun r w =>
      r = .ok () ∧ w = if back then u.post Handshake.ok else u := by
  refine Shows.client fun l hl => ?_
  have hlexit : l.exitPending = false := (congrArg (·.exitPending) hl).trans hexit
  have hlstate : l.state = .swapped := (congrArg (·.state) hl).trans hs
  rw [hlexit, hlstate]
  refine Shows.then h ?_
  cases back with
  | false => exact .pure fun w hw => ⟨rfl, hw⟩
  | true =>
    have hnotify : Shows p u (Handshake.notify l.arbiter Handshake.ok) fun _ w =>
        w = u.post Handshake.ok := fun m hm => hm ▸ rfl
    refine .past hnotify fun told => ?_
    cases told with
    | ok _ => exact .pure fun w hw => ⟨rfl, hw⟩
    | error e => exact (scene_debug _).then fun _ => .pure fun w hw => ⟨rfl, hw⟩

theorem shows_runPendingTasks (htasks : u.loader.tasks = .empty) :
    Shows p u runPendingTasks fun _ w => w = u := by
  refine Shows.client fun l hl => ?_
  have hnone : l.tasks = .empty := (congrArg (·.tasks) hl).trans htasks
  have hsame : { u.loader with tasks := .empty } = u.loader := by rw [← htasks]
  rw [hnone]
  refine .past (u := u) (fun m hm => ?_) fun _ => .pure fun w hw => hw
  subst hm
  exact congrArg (fun l => { scene m with loader := l }) hsame

theorem shows_handleNotification {m : Machine Loader (Observed σ)}
    (hevent : Status.eventOf m.status = Status.swapEvent)
    (hswap : Shows p (scene m) (onSwap m.status) fun r w => r = .ok () ∧ w = u)
    (htasks : u.loader.tasks = .empty) :
    (handleNotification (observer p) m).1 = .ok () ∧
      scene (handleNotification (observer p) m).2 = u := by
  have hrest : Shows p (scene m) (do
      Act.setStatus (Status.stateOf m.status)
      let result ← onSwap m.status
      Act.call (.publish lifecycleHandled)
      let _ ← runPendingTasks
      pure result) fun r w => r = .ok () ∧ w = u := by
    refine (scene_setStatus _).then fun _ => Shows.then hswap ?_
    refine (scene_call rfl).then fun _ => Shows.past (shows_runPendingTasks htasks) fun _ => ?_
    exact .pure fun w hw => ⟨rfl, hw⟩
  have hhandle := hrest m rfl
  rw [handleNotification, Act.bind_run]
  simp only [Act.status, hevent, Status.swapEvent]
  exact hhandle

end swap
end Loader

namespace Service
open Loader.Occupancy
variable {σ : Type} {p : Platform σ}

section history

theorem clean_call (hp : p.Obliging) (c : Call) :
    (Act.call c).Ensures (recorder p) (fun m => m.platform.2.any (·.isFailedUnmap) = false)
      fun _ m => m.platform.2.any (·.isFailedUnmap) = false := by
  intro m hm
  have hanswer : Observation.isFailedUnmap (.answered c (p.answer c m.platform.1).1) = false := by
    cases c with
    | unmap target length => rw [hp.unmap]; rfl
    | _ => rfl
  exact Bool.or_eq_false_iff.mpr ⟨hanswer, hm⟩

/-- With nothing ever refused, the memory is always in its place. -/
theorem fresh_operation (hp : p.Obliging) (op : Operation) :
    Leads p (Fresh True) op.run fun _ => Fresh True := by
  intro m hm
  have hsettled := leads_operation_of_fresh (p := p) op m hm
  have hbears : Bears (recorder p) Concern.every fun m => m.platform.2.any (·.isFailedUnmap) = false :=
    .of_call (I := fun s : σ × List Observation => s.2.any (·.isFailedUnmap) = false) (clean_call hp)
  have hclean := within_operation op _ _ hbears m hm.clean
  exact ⟨hsettled.toKempt, hclean, fun hb => hsettled.inPlace hb hclean⟩

theorem Step.fresh_run (hp : p.Obliging) (step : Step) {m : Machine Loader (Observed σ)}
    (hm : (occupancy m).Fresh True) : (occupancy (step.run p m)).Fresh True := by
  cases step with
  | operation op =>
    have hop := fresh_operation hp.withStore op m hm
    simp only [Step.run]
    split
    · exact hop
    · exact hop
  | storeFaults failWrites failReads => exact hm

theorem fresh_history (hp : p.Obliging) (config : Config) (s : σ) (store : SwapStore)
    (steps : List Step) : (occupancy (history p config s store steps)).Fresh True := by
  induction steps using List.reverseRecOn with
  | nil => exact fresh_course_nil (withStore p) config (s, store)
  | append_singleton steps step ih =>
    rw [history, List.foldl_append]
    exact step.fresh_run hp ih

/-- The region of a plugin that is swapped out is still in memory, though not mounted, or it is in the
file that its own settings name. -/
theorem region_of_swapped {m : Machine Loader (Observed σ)} (hfresh : (occupancy m).Fresh True)
    (hsound : (custody m).Sound) (hs : m.client.state = .swapped) :
    (∃ data saved, m.client.block.placement = .resident data false saved) ∨
      ∃ image saved, m.client.block.placement = .swappedOut image.data.length saved ∧
        m.platform.1.2.file? saved.filename = some image := by
  have hstate : (occupancy m).state = .swapped := hs
  have hplaced : (occupancy m).place ≠ .mounted := by
    have hin := hfresh.inPlace trivial
    rwa [InPlace, hstate] at hin
  obtain ⟨image, hguards, -⟩ := hsound (by simp [custody, hs])
  have hholds : m.client.block.placement.Holds m.platform.1.2.file? image := hguards.holds
  cases hplace : m.client.block.placement with
  | free =>
    rw [hplace] at hholds
    exact hholds.elim
  | resident data mounted saved =>
    cases mounted with
    | false => exact .inl ⟨data, saved, rfl⟩
    | true => exact absurd (congrArg Region.Placement.place hplace) hplaced
  | swappedOut length saved =>
    rw [hplace] at hholds
    obtain ⟨rfl, hfile⟩ := hholds
    obtain ⟨file, hfound, rfl⟩ := Option.map_eq_some_iff.mp hfile
    exact .inr ⟨file, saved, rfl, hfound⟩

end history

section views
variable (before after : Machine Loader (Observed σ))

/-- The plugin is back. Its threads were released once, and it may go on. -/
structure Resumed : Prop where
  state : after.client.state = .running
  mounted : after.client.block.isMounted = true
  scheduled : after.platform.2.filterMap Observation.schedule? = [(before.client.target, .unlock)]
  event : after.words.event = Handshake.ok

/-- The journal apart, the loader is as it was, and nothing was posted. -/
structure Unmoved : Prop where
  client : after.client = { before.client with journal := after.client.journal }
  words : after.words = before.words

end views

section attempt
variable {m : Machine Loader (Observed σ)} {op : Operation} {word : UInt32} {u : Scene}

/-- The scene at the beginning of an operation. -/
def opening (m : Machine Loader (Observed σ)) : Scene :=
  ⟨withoutJournal m.client, m.words, m.platform.1.2, [], false⟩

theorem scene_attempt (hword : op.notified? m.status = some word)
    (hevent : Status.eventOf word = Status.swapEvent)
    (hswap : Shows p (opening m) (onSwap word) fun r w => r = .ok () ∧ w = u)
    (htasks : u.loader.tasks = .empty) :
    (attempt (withStore p) op m).1 = .done ∧ scene (attempt (withStore p) op m).2 = u := by
  have hnotify {n : Machine Loader (Observed σ)} (hn : scene n = opening m) (hstatus : n.status = word) :
      ((do return Outcome.ofResult (← handleNotification)) (observer p) n).1 = .done ∧
        scene ((do return Outcome.ofResult (← handleNotification)) (observer p) n).2 = u := by
    rw [← hstatus] at hevent hswap
    rw [← hn] at hswap
    obtain ⟨hok, hscene⟩ := shows_handleNotification hevent hswap htasks
    exact ⟨congrArg Outcome.ofResult hok, hscene⟩
  cases op with
  | handleNotification =>
    cases hword
    exact hnotify rfl rfl
  | post event notify =>
    cases notify with
    | false => cases hword
    | true =>
      cases hword
      exact hnotify (scene_setStatus (Status.post m.status event)
        { m with platform := (m.platform.1, []) }) rfl
  | _ => cases hword

variable {data : List UInt8} {saved : Option Region.SwapSettings} {store : SwapStore} {read : Bool}
  {after : Machine Loader (Observed σ)}

theorem Resumed.of_scene (hafter : scene after =
    (({ opening m with store := store, hasRead := read }.place (.resident data true saved)).release
      m.client.target).post Handshake.ok) : Resumed m after where
  state := congrArg (·.loader.state) hafter
  mounted := congrArg (·.loader.block.isMounted) hafter
  scheduled := congrArg Scene.scheduled hafter
  event := congrArg (·.words.event) hafter

theorem Unmoved.of_scene (hafter : scene after = { opening m with store := store, hasRead := read }) :
    Unmoved m after where
  client := by
    have hclient : withoutJournal after.client = withoutJournal m.client :=
      congrArg Scene.loader hafter
    calc after.client
      _ = { withoutJournal after.client with journal := after.client.journal } := rfl
      _ = { withoutJournal m.client with journal := after.client.journal } := by rw [hclient]
  words := congrArg Scene.words hafter

variable (hexit : m.client.exitPending = false) (htasks : m.client.tasks = .empty)
  (hs : m.client.state = .swapped) (hword : op.notified? m.status = some word)
  (hevent : Status.eventOf word = Status.swapEvent)
include hexit htasks hs hword hevent

theorem resumed_of_restored (hrestore : Shows p (opening m) (restore m.client.target) fun r w =>
      r = .ok () ∧
        w = { opening m with store := store, hasRead := read }.place (.resident data true saved)) :
    Resumed m (attempt (withStore p) op m).2 ∧
      (attempt (withStore p) op m).2.platform.2.any (·.isRead) = read := by
  have hswap := shows_onSwap hexit hs (shows_swapIn hrestore) word
  obtain ⟨-, hscene⟩ := scene_attempt hword hevent hswap htasks
  exact ⟨.of_scene hscene, congrArg Scene.hasRead hscene⟩

theorem unmoved_of_failed {e : Region.Error}
    (hrestore : Shows p (opening m) (restore m.client.target) fun r w =>
      r = .error e ∧ w = { opening m with store := store, hasRead := read }) :
    Unmoved m (attempt (withStore p) op m).2 := by
  have hswap := shows_onSwap hexit hs (shows_swapIn_of_failed hrestore) word
  obtain ⟨-, hscene⟩ := scene_attempt hword hevent hswap htasks
  exact .of_scene hscene

end attempt

/-- A plugin that is swapped out comes back with the next swap event, in whichever way it went out and
however often it failed to come back, while its swap file can be read. While it cannot, one that never
left the memory comes back all the same, and any other stays as it is. -/
theorem resumed_of_swapEvent (hp : p.Obliging) (config : Config) (s : σ) (store : SwapStore)
    (steps : List Step) (op : Operation) (word : UInt32)
    (hs : (history p config s store steps).client.state = .swapped)
    (hword : op.notified? (history p config s store steps).status = some word)
    (hevent : Status.eventOf word = Status.swapEvent) :
    let before := history p config s store steps
    let after := (attempt (withStore p) op before).2
    (before.platform.1.2.failReads = false → Resumed before after) ∧
    (before.platform.1.2.failReads = true →
      (∃ data saved, before.client.block.placement = .resident data false saved) ∧
          Resumed before after ∧ after.platform.2.any (·.isRead) = false ∨
        before.client.block.isSwappedOut = true ∧ Unmoved before after) := by
  intro before after
  have hfresh : (occupancy before).Fresh True := fresh_history hp config s store steps
  have hexit : before.client.exitPending = false := hfresh.exitPending
  have htasks : before.client.tasks = .empty := hfresh.tasks
  obtain ⟨data, saved, hplace⟩ | ⟨image, saved, hplace, hfile⟩ :=
    region_of_swapped hfresh (sound_history config s store steps) hs
  · obtain ⟨hresumed, hread⟩ := resumed_of_restored hexit htasks hs hword hevent
      (shows_restore_of_resident hp hplace)
    exact ⟨fun _ => hresumed, fun _ => .inl ⟨⟨data, saved, hplace⟩, hresumed, hread⟩⟩
  · refine ⟨fun hreads => ?_, fun hfails => .inr ⟨?_, ?_⟩⟩
    · have hread := before.platform.1.2.read_of_file hreads hfile
      exact (resumed_of_restored hexit htasks hs hword hevent
        (shows_restore hp hplace hread rfl)).1
    · rw [Region.Block.isSwappedOut, hplace]
    · have hread : before.platform.1.2.read saved.filename image.data.length =
          (.error .storageFailed, before.platform.1.2) := by simp [SwapStore.read, hfails]
      exact unmoved_of_failed hexit htasks hs hword hevent (shows_restore_of_failed hplace hread)

/-- A plugin that is out, while its swap file cannot be read. -/
def stranded : List Step := roundTrip.dropLast ++ [.storeFaults false true]

/-- One swap event fails to bring it back. The next one, when the file can be read again, does. -/
theorem resumed_of_swapEvent_stranded :
    Unmoved (history Stub.platform .default .initial .empty stranded)
        (attempt (withStore Stub.platform) (.post Status.swapEvent true)
          (history Stub.platform .default .initial .empty stranded)).2 ∧
      Resumed (history Stub.platform .default .initial .empty
          (stranded ++ [.operation (.post Status.swapEvent true), .storeFaults false false]))
        (attempt (withStore Stub.platform) (.post Status.swapEvent true)
          (history Stub.platform .default .initial .empty
            (stranded ++ [.operation (.post Status.swapEvent true), .storeFaults false false]))).2 := by
  have hevent (word : UInt32) : Status.eventOf (Status.post word Status.swapEvent) = Status.swapEvent :=
    Status.eventOf_post (by decide) word
  have hstranded (steps : List Step)
      (hs : (history Stub.platform .default .initial .empty steps).client.state = .swapped) :=
    resumed_of_swapEvent Stub.obliging .default .initial .empty steps (.post Status.swapEvent true) _ hs
      rfl (hevent _)
  have hout : (history Stub.platform .default .initial .empty stranded).client.block.isSwappedOut =
    true := by decide +kernel
  obtain ⟨-, hfailed⟩ := hstranded stranded (by decide +kernel)
  constructor
  · obtain ⟨⟨data, saved, hplace⟩, -⟩ | ⟨-, hunmoved⟩ := hfailed (by decide +kernel)
    · rw [Region.Block.isSwappedOut, hplace] at hout
      cases hout
    · exact hunmoved
  · exact (hstranded _ (by decide +kernel)).1 (by decide +kernel)

end Service
end PluginSlot
