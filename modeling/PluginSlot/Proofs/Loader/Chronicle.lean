import PluginSlot.Loader.Load
import PluginSlot.Loader.Notification
import PluginSlot.Proofs.Platform.Ensures

/-!
What is entered in the journal in the course of a computation, and when, however much of it has been
dropped in the end.
-/
namespace PluginSlot
open Platform Loader

namespace Loader

structure Entry where
  time : UInt64
  event : Event

section entries
variable {kind other : Event → Bool} {entries : List Entry}

/-- The events of one kind that are entered. -/
def eventsOf (kind : Event → Bool) (entries : List Entry) : List Event :=
  (entries.map (·.event)).filter kind

theorem eventsOf_append (first second : List Entry) :
    eventsOf kind (first ++ second) = eventsOf kind first ++ eventsOf kind second := by
  rw [eventsOf, List.map_append, List.filter_append]
  rfl

theorem eventsOf_eq_nil (hother : ∀ event, other event = true → kind event = false)
    (h : ∀ e ∈ entries, other e.event = true) : eventsOf kind entries = [] := by
  refine List.filter_eq_nil_iff.mpr fun event hevent => ?_
  obtain ⟨e, he, rfl⟩ := List.mem_map.mp hevent
  rw [hother _ (h e he)]
  decide

end entries

namespace Journal

/-- Record one entry after the other. -/
def recordAll (j : Journal) (entries : List Entry) : Journal :=
  entries.foldl (fun j e => (j.record e.time e.event).2) j

theorem recordAll_append (j : Journal) (first second : List Entry) :
    j.recordAll (first ++ second) = (j.recordAll first).recordAll second := List.foldl_append ..

/-- The records of some entries, numbered from here. -/
def numbered (number : UInt64) : List Entry → List Record
  | [] => []
  | e :: rest => ⟨number, e.time, e.event⟩ :: numbered (number + 1) rest

/-- All entries are added, and of the whole the latest are kept, as if nothing had been dropped in
between. -/
theorem records_recordAll (j : Journal) (hj : j.records.length ≤ j.capacity) (entries : List Entry) :
    (j.recordAll entries).records = lastOf j.capacity (j.records ++ numbered j.nextNumber entries) := by
  induction entries generalizing j with
  | nil =>
    show j.records = lastOf j.capacity (j.records ++ [])
    rw [List.append_nil, lastOf, Nat.sub_eq_zero_of_le hj, List.drop_zero]
  | cons e rest ih =>
    have hrecord : (j.record e.time e.event).2.records.length ≤ j.capacity := by
      rw [length_record]
      exact Nat.min_le_left ..
    calc (j.recordAll (e :: rest)).records
      _ = ((j.record e.time e.event).2.recordAll rest).records := rfl
      _ = lastOf (j.record e.time e.event).2.capacity ((j.record e.time e.event).2.records ++
            numbered (j.record e.time e.event).2.nextNumber rest) := ih _ hrecord
      _ = lastOf j.capacity (lastOf j.capacity (j.records ++ [⟨j.nextNumber, e.time, e.event⟩]) ++
            numbered (j.nextNumber + 1) rest) := rfl
      _ = lastOf j.capacity (j.records ++ numbered j.nextNumber (e :: rest)) := by
          rw [lastOf_append_lastOf, List.append_assoc]
          rfl

end Journal

variable {σ α β : Type}

/-- Whoever answers calls leaves the loader itself alone. -/
def Discreet (h : Handler Loader σ) : Prop := ∀ c m, (h c m).2.client = m.client

theorem discreet_handler (p : Platform σ) : Discreet (handler p) := fun _ _ => rfl

/-- The computation enters events of some kind only. -/
def Enters (h : Handler Loader σ) (kind : Event → Bool) (x : Act Loader σ α) : Prop :=
  ∀ m, ∃ entries : List Entry, (∀ e ∈ entries, kind e.event = true) ∧
    (x h m).2.client.journal = m.client.journal.recordAll entries

section rules
variable {h : Handler Loader σ} {kind : Event → Bool} {x : Act Loader σ α} {g : α → Act Loader σ β}

theorem Enters.of_keeps (hx : x.Keeps h fun m => m.client.journal) : Enters h kind x :=
  fun m => ⟨[], nofun, hx m⟩

theorem Enters.pure (a : α) : Enters h kind (Pure.pure a : Act Loader σ α) := .of_keeps (.pure a)

theorem Enters.bind (hx : Enters h kind x) (hg : ∀ a, Enters h kind (g a)) :
    Enters h kind (x >>= g) := by
  intro m
  obtain ⟨first, hfirst, hx⟩ := hx m
  obtain ⟨second, hsecond, hg⟩ := hg (x h m).1 (x h m).2
  refine ⟨first ++ second, fun e he => ?_, ?_⟩
  · obtain he | he := List.mem_append.mp he
    · exact hfirst e he
    · exact hsecond e he
  · rw [Journal.recordAll_append, ← hx, ← hg]
    rfl

theorem enters_client : Enters h kind (Act.client : Act Loader σ _) := .of_keeps .client

theorem enters_modify {e : Loader → Loader} (he : ∀ l, (e l).journal = l.journal) :
    Enters h kind (Act.modifyClient e : Act Loader σ _) := .of_keeps fun m => he m.client

theorem enters_setWord (word : Handshake.SharedWord) (value : Int32) :
    Enters h kind (Act.setWord word value : Act Loader σ _) := .of_keeps fun _ => rfl

theorem enters_onBlock (op : Region.Block → α × Region.Block) :
    Enters h kind (onBlock op : Act Loader σ α) :=
  .bind enters_client fun _ => .bind (enters_modify fun _ => rfl) fun _ => .pure _

theorem enters_onBlockAct {op : Region.Block → Act Loader σ (α × Region.Block)}
    (hop : ∀ b, Enters h kind (op b)) : Enters h kind (onBlockAct op) :=
  .bind enters_client fun l => .bind (hop l.block) fun _ =>
    .bind (enters_modify fun _ => rfl) fun _ => .pure _

variable (hh : Discreet h)
include hh

theorem enters_call (c : Call) : Enters h kind (Act.call c : Act Loader σ _) :=
  .of_keeps fun m => congrArg (·.journal) (hh c m)

theorem enters_debug (line : String) : Enters h kind (Act.debug line : Act Loader σ _) :=
  enters_call hh _

theorem enters_setStatus (value : UInt32) : Enters h kind (Act.setStatus value : Act Loader σ _) :=
  .of_keeps fun m => congrArg (·.journal) (hh (.writeStatus value) m)

/-- A record is made at the time that the platform tells. -/
theorem journal_record (event : Event) (m : Machine Loader σ) :
    (record event h m).2.client.journal =
      m.client.journal.recordAll [⟨(h .now m).1, event⟩] := by
  show ((h .now m).2.client.journal.record (h .now m).1 event).2 = _
  rw [hh]
  rfl

theorem enters_record {event : Event} (hk : kind event = true) :
    Enters h kind (record event : Act Loader σ _) := by
  refine fun m => ⟨[⟨(h .now m).1, event⟩], fun e he => ?_, journal_record hh event m⟩
  rw [List.mem_singleton.mp he]
  exact hk

theorem enters_debugRegion (line : String) (r : Except Region.Error Unit) :
    Enters h kind (debugRegion line r : Act Loader σ _) := by
  cases r with
  | error e => exact enters_debug hh _
  | ok _ => exact .pure _

theorem enters_debugPlatform (line : String) (r : Except Platform.Error β) :
    Enters h kind (debugPlatform line r : Act Loader σ _) := by
  cases r with
  | error e => exact enters_debug hh _
  | ok _ => exact .pure _

end rules

/-- The record of a handshake that failed. -/
def Event.isHandshake : Event → Bool
  | .handshakeTimeout _ => true
  | _ => false

section talk
variable {h : Handler Loader σ} {kind : Event → Bool} (hh : Discreet h)
include hh

theorem enters_signal (arbiter : Kernel.Handle) (word : Handshake.SharedWord) :
    Enters h kind (Handshake.signal arbiter word : Act Loader σ _) :=
  .bind (.of_keeps fun _ => rfl) fun _ => enters_call hh _

theorem enters_waitForReply (arbiter : Kernel.Handle) (timeout : UInt64) :
    Enters h kind (Handshake.waitForReply arbiter timeout : Act Loader σ _) := by
  refine .bind (.of_keeps fun _ => rfl) fun words => ?_
  split
  · exact .pure _
  · refine .bind (.bind (.of_keeps fun _ => rfl) fun words => ?_) fun answer => ?_
    · exact .bind (enters_call hh _) fun answer => .bind (enters_setWord _ _) fun _ => .pure _
    · split <;> exact .pure _

theorem enters_notify (arbiter : Kernel.Handle) (event : Int32) :
    Enters h kind (Handshake.notify arbiter event : Act Loader σ _) :=
  .bind (enters_setWord _ _) fun _ => .bind (enters_setWord _ _) fun _ => enters_signal hh _ _

theorem enters_shakeHands (arbiter : Kernel.Handle) (event : Int32) (kind : HandshakeKind) :
    Enters h Event.isHandshake (shakeHands arbiter event kind : Act Loader σ _) := by
  refine .bind (.bind (enters_notify hh _ _) fun answer => ?_) fun answer => ?_
  · cases answer with
    | error e => exact .pure _
    | ok _ => exact .bind enters_client fun _ => enters_waitForReply hh _ _
  · split
    · exact .pure _
    · exact .bind (enters_debug hh _) fun _ => enters_record hh rfl
    · exact .bind (enters_debug hh _) fun _ => enters_record hh rfl

end talk

/-- Neither a request nor a handshake. -/
def Event.isOwn : Event → Bool
  | .command _ _ | .handshakeTimeout _ => false
  | _ => true

/-- The record of a request. -/
def Event.isCommand : Event → Bool
  | .command _ _ => true
  | _ => false

theorem Event.isCommand_of_isOwn (event : Event) (h : event.isOwn = true) :
    event.isCommand = false := by
  cases event with
  | command => cases h
  | _ => rfl

section operations
variable {h : Handler Loader σ} (hh : Discreet h) (target : Kernel.Handle)
include hh

theorem enters_transition (state : SlotState) :
    Enters h Event.isOwn (transition state : Act Loader σ _) := by
  refine .bind enters_client fun l => .bind (enters_modify fun _ => rfl) fun _ => ?_
  exact .bind (enters_setStatus hh _) fun _ => enters_record hh rfl

theorem enters_mount : Enters h Event.isOwn (onBlockAct (·.mount target) : Act Loader σ _) := by
  refine enters_onBlockAct fun b => ?_
  rw [Region.Block.mount]
  split
  · exact .bind (enters_call hh _) fun answer => by cases answer <;> exact .pure _
  · exact .pure _

theorem enters_unmount : Enters h Event.isOwn (onBlockAct (·.unmount target) : Act Loader σ _) := by
  refine enters_onBlockAct fun b => ?_
  rw [Region.Block.unmount]
  split
  · exact .bind (enters_call hh _) fun answer => by cases answer <;> exact .pure _
  · exact .pure _

theorem enters_teardown : Enters h Event.isOwn (teardown target : Act Loader σ _) := by
  refine .bind enters_client fun l => ?_
  split
  · exact enters_debug hh _
  · dsimp only
    split
    case' isTrue =>
      refine .bind (enters_unmount hh target) fun r => .bind (enters_debugRegion hh _ r) fun _ => ?_
    all_goals
      refine .bind (enters_onBlock _) fun r => .bind (enters_debugRegion hh _ r) fun _ => ?_
      refine .bind (enters_call hh _) fun closed => ?_
      refine .bind (enters_debugPlatform hh _ closed) fun _ => ?_
      refine .bind (enters_modify fun _ => rfl) fun _ => .bind (enters_setWord _ _) fun _ => ?_
      exact .bind (enters_transition hh _) fun _ => enters_record hh rfl

theorem enters_runTasks (tasks : List Task) :
    Enters h Event.isOwn (runTasks tasks : Act Loader σ _) := by
  induction tasks with
  | nil => exact .pure _
  | cons task tasks ih =>
    cases task with
    | teardown target => exact .bind (enters_teardown hh target) fun _ => ih

theorem enters_runPendingTasks : Enters h Event.isOwn (runPendingTasks : Act Loader σ _) := by
  refine .bind enters_client fun l => .bind (enters_modify fun _ => rfl) fun _ => ?_
  exact .bind (enters_runTasks hh _) fun _ => .pure _

theorem enters_place (data : List UInt8) :
    Enters h Event.isOwn (place target data : Act Loader σ _) := by
  refine .bind (enters_onBlock _) fun answer => ?_
  cases answer with
  | error e => exact .pure _
  | ok _ =>
    refine .bind (enters_mount hh target) fun answer => ?_
    cases answer <;> exact .pure _

theorem enters_injectFirst (config : List UInt32) (failure : Platform.Error) (paths : List String) :
    Enters h Event.isOwn (injectFirst target config failure paths : Act Loader σ _) := by
  induction paths generalizing failure with
  | nil => exact .pure _
  | cons path paths ih =>
    refine .bind (enters_modify fun _ => rfl) fun _ => .bind (enters_call hh _) fun answer => ?_
    cases answer with
    | error e => exact ih e
    | ok data => exact enters_place hh target data

theorem enters_inject : Enters h Event.isOwn (inject target : Act Loader σ _) := by
  refine .bind (enters_call hh _) fun answer => ?_
  cases answer with
  | error e => exact .pure _
  | ok titleId =>
    refine .bind enters_client fun l => .bind (enters_modify fun l => ?_) fun _ => ?_
    · rw [useParameters]
      split <;> rfl
    refine .bind (enters_injectFirst hh _ _ _ _) fun answer => ?_
    cases answer <;> exact .pure _

theorem enters_finishLoad (noFlash : Bool) :
    Enters h Event.isOwn (finishLoad target noFlash : Act Loader σ _) := by
  refine .bind enters_client fun l => ?_
  dsimp only
  split
  case' isTrue => refine .bind (enters_call hh _) fun _ => ?_
  all_goals
    refine .bind (enters_transition hh _) fun _ => ?_
    exact .bind (enters_debug hh _) fun _ => enters_record hh rfl

theorem enters_abandonLoad (e : Error) :
    Enters h Event.isOwn (abandonLoad target e : Act Loader σ _) := by
  refine .bind (enters_onBlock _) fun _ => .bind enters_client fun l => ?_
  refine .bind (enters_modify fun _ => rfl) fun _ => .bind (enters_call hh _) fun _ => ?_
  exact .bind (enters_debug hh _) fun _ => enters_record hh rfl

theorem enters_load : Enters h Event.isOwn (load target : Act Loader σ _) := by
  refine .bind (enters_runPendingTasks hh) fun _ => .bind enters_client fun l => ?_
  split
  · exact .bind (enters_debug hh _) fun _ => .bind (enters_call hh _) fun _ => .pure _
  · split
    · refine .bind (enters_call hh _) fun answer => ?_
      cases answer <;> exact .pure _
    · refine .bind (enters_setWord _ _) fun _ => .bind (enters_modify fun _ => rfl) fun _ => ?_
      refine .bind (enters_inject hh target) fun answer => ?_
      cases answer with
      | ok noFlash => exact .bind (enters_finishLoad hh target noFlash) fun _ => .pure _
      | error e => exact .bind (enters_abandonLoad hh target e) fun _ => .pure _

end operations
end Loader
end PluginSlot
