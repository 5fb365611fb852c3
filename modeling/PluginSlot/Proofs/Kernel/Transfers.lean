import PluginSlot.Proofs.Kernel.BookSteps
import PluginSlot.Proofs.Kernel.Stranding

/-!
Where references go. What an operation does to records and objects is a sequence of transfers: a
reference that a record holds becomes loose, a loose one comes to be held, or it is dropped. All
operations that leave the pages and the events of processes alone are such sequences, but for those
that take or drop the references of an object by hand.
-/
namespace PluginSlot.Kernel

/-- The record stands for the same process, with the same pages and the same memory-change event. Its
handles may differ, and what else was asked about it. -/
structure Process.Persists (old now : Process) : Prop where
  object : now.object = old.object
  pages : now.pages = old.pages
  forceRwx : now.flags.forceRwx = old.flags.forceRwx
  event : now.memoryChangeEvent = old.memoryChangeEvent

theorem Process.count_claims (process : Process) (o : ObjectId) :
    process.claims.count o = process.handles.slots.values.count o +
      process.memoryChangeEvent.toList.count o +
        (if process.reaped then [] else [process.object]).count o := by
  rw [claims, List.count_append, List.count_append]

/-- The page that an operation maps or unmaps, by its process and its number. -/
def Operation.page : Operation → Option (ProcessId × Nat)
  | mapPage p virtual _ _ | unmapPage p virtual => some (p, virtual.toNat / pageSize.toNat)
  | _ => none

/-- The caller and the handle by which an operation asks for full access to the pages of a process. -/
def Operation.forcing : Operation → Option (Caller × Handle)
  | control caller target .forceRwx => some (caller, target)
  | controlRaw caller target code _ =>
    if code = ControlCode.forceRwx then some (caller, target) else none
  | _ => none

/-- Operations that change neither a page nor the signal of an event, but for that of an event they
make, and that take and drop no references of objects by hand. -/
def Operation.isPlain (op : Operation) : Bool :=
  match op with
  | mapPage .. | unmapPage .. | clearEvent .. | retain _ | release _ => false
  | _ => op.forcing.isNone

/-- What an operation is that concerns no page. -/
theorem Operation.isPlain_or {op : Operation} (hpage : op.page = none) (hforcing : op.forcing = none) :
    op.isPlain = true ∨ (∃ p h, op = clearEvent p h) ∨ (∃ o, op = retain o) ∨ ∃ o, op = release o := by
  cases op with
  | mapPage _ _ _ _ | unmapPage _ _ => cases hpage
  | clearEvent p h => exact .inr (.inl ⟨p, h, rfl⟩)
  | retain o => exact .inr (.inr (.inl ⟨o, rfl⟩))
  | release o => exact .inr (.inr (.inr ⟨o, rfl⟩))
  | control _ _ _ | controlRaw _ _ _ _ => exact .inl (by simp [isPlain, hforcing])
  | _ => exact .inl rfl

theorem ControlOp.decode_ne_forceRwx {code arg : UInt32} {filter : Option ThreadFilter}
    {op : ControlOp} (hcode : code ≠ ControlCode.forceRwx)
    (hd : ControlOp.decode code arg filter = .ok op) : op ≠ .forceRwx := by
  rintro rfl
  simp only [decode, hcode, if_false] at hd
  repeat' split at hd
  all_goals cases hd

/-- A new handle adds one reference to what a table names, at most. -/
theorem HandleTable.count_values_insert {t u : HandleTable} {o : ObjectId} {h : Handle}
    (hi : t.insert o = some (h, u)) (q : ObjectId) :
    u.slots.values.count q ≤ (o :: t.slots.values).count q := by
  obtain ⟨-, rfl, rfl⟩ := insert_eq_some_iff.mp hi
  rw [(t.slots.values_insert_perm ⟨t.next⟩ o).count_eq]
  exact ((t.slots.values_erase_sublist ⟨t.next⟩).cons_cons o).count_le q

namespace State

/-- One change to the books, with the references that no record holds before and after it. If there is
to be room, no event is taken that is referred to as often as can be counted. -/
inductive Transfer (roomy : Prop) : List ObjectId × State → List ObjectId × State → Prop where
  | frame (loose : List ObjectId) {s s' : State} (h : s'.books = s.books) :
      Transfer roomy (loose, s) (loose, s')
  | amend {loose loose' : List ObjectId} {s : State} {p : ProcessId} {process : Process}
      {f : Process → Process} (hp : s.process? p = some process) (hf : process.Persists (f process))
      (hcount : ∀ o, (f process).claims.count o + loose'.count o ≤
        process.claims.count o + loose.count o) :
      Transfer roomy (loose, s) (loose', s.modifyProcess p f)
  | take (loose : List ObjectId) {s : State} {o : ObjectId} {object : Object}
      (ho : s.object? o = some object) (hroom : roomy → object.body.classOf = .event → s.Room o) :
      Transfer roomy (loose, s) (o :: loose, s.addReference o)
  /-- A process may be released as long as it has a record, whoever took the reference. -/
  | borrow (loose : List ObjectId) {s : State} {p : ProcessId} {process : Process}
      (hp : s.process? p = some process) : Transfer roomy (loose, s) (process.object :: loose, s)
  | forget (loose : List ObjectId) (s : State) (o : ObjectId) : Transfer roomy (o :: loose, s) (loose, s)
  | drop (loose : List ObjectId) (s : State) (o : ObjectId) :
      Transfer roomy (o :: loose, s) (loose, (s.dropReference o).2)
  | eraseProcess (loose : List ObjectId) (s : State) (p : ProcessId) :
      Transfer roomy (loose, s) (((s.process? p).bind (·.memoryChangeEvent)).toList ++ loose,
        { s with processes := s.processes.erase p })
  | createProcess (loose : List ObjectId) (s : State) (name : String) (titleId : UInt64) :
      Transfer roomy (loose, s) (loose, (s.createProcess name titleId).2)
  | allocate (loose : List ObjectId) (s : State) {body : ObjectBody}
      (hbody : body = .event false false ∨ body = .addressArbiter) :
      Transfer roomy (loose, s) ((s.allocate body).1 :: loose, (s.allocate body).2)
  /-- The memory-change event of a process is made when it is first asked for. -/
  | enroll (loose : List ObjectId) {s : State} {p : ProcessId} {process : Process}
      (hp : s.process? p = some process) (hnone : process.memoryChangeEvent = none) :
      Transfer roomy (loose, s)
        (loose, (s.allocate (.event false true)).2.announce p (s.allocate (.event false true)).1)

/-- Changes to the books, one after the other. -/
abbrev Transfers (roomy : Prop) : List ObjectId × State → List ObjectId × State → Prop :=
  Relation.ReflTransGen (Transfer roomy)

theorem Transfer.all {roomy : Prop} {a b : List ObjectId × State} (h : Transfer roomy a b) :
    Transfers roomy a b := .single h

theorem Transfers.keeps {roomy : Prop} {P : List ObjectId × State → Prop}
    {a b : List ObjectId × State} (hstep : ∀ a b, Transfer roomy a b → P a → P b)
    (h : Transfers roomy a b) (ha : P a) : P b := by
  induction h with
  | refl => exact ha
  | tail _ hlast ih => exact hstep _ _ hlast ih

section
variable {roomy : Prop} (loose : List ObjectId) (s : State) (p : ProcessId) (o : ObjectId)

/-- What changes neither the handles of a record nor whether it is reaped leaves its references. -/
theorem transfers_amend {process : Process} {f : Process → Process}
    (hp : s.process? p = some process) (hf : process.Persists (f process))
    (hhandles : (f process).handles = process.handles)
    (hreaped : (f process).reaped = process.reaped) :
    Transfers roomy (loose, s) (loose, s.modifyProcess p f) := by
  refine (Transfer.amend hp hf fun o => ?_).all
  rw [Process.claims, Process.claims, hhandles, hreaped, hf.object, hf.event]

theorem transfers_of_holdings {s s' : State} (h : s'.holdings = s.holdings) :
    Transfers roomy (loose, s) (loose, s') :=
  (Transfer.frame loose (books_of_holdings h)).all

theorem transfers_release : Transfers roomy (o :: loose, s) (loose, s.release o) := by
  have hdrop : Transfers roomy (o :: loose, s) (loose, (s.dropReference o).2) :=
    (Transfer.drop loose s o).all
  rw [release]
  split
  next he => rwa [he] at hdrop
  next q dropped he =>
    rw [he] at hdrop
    have herase := hdrop.tail (.eraseProcess loose dropped q)
    dsimp only
    split
    next hnone => rwa [hnone] at herase
    next e hsome =>
      rw [hsome] at herase
      exact herase.tail (.drop loose _ e)

theorem transfers_releaseAll (os : List ObjectId) :
    Transfers roomy (os ++ loose, s) (loose, os.foldl release s) := by
  induction os generalizing s with
  | nil => exact .refl
  | cons o os ih => exact (transfers_release (os ++ loose) s o).trans (ih (s.release o))

theorem transfers_openHandle (hroom : roomy → s.RoomyEvents) :
    Transfers roomy (loose, s) (loose, (s.openHandle p o).2) := by
  rw [openHandle]
  split
  · exact .refl
  next process hp =>
    split
    · exact .refl
    next hcontains =>
      have hexists : s.objects.contains o = true := by simpa using hcontains
      obtain ⟨object, ho⟩ := Option.isSome_iff_exists.mp hexists
      have htake : Transfers roomy (loose, s) (o :: loose, s.addReference o) :=
        (Transfer.take loose ho fun h => hroom h o object ho).all
      split
      · exact htake.trans (transfers_release loose _ o)
      next h handles hinsert =>
        have hrecord : (s.addReference o).process? p = some process := hp
        refine htake.tail (.amend hrecord ⟨rfl, rfl, rfl, rfl⟩ fun q => ?_)
        have hvalues := HandleTable.count_values_insert hinsert q
        simp only [Process.count_claims, List.count_cons] at hvalues ⊢
        omega

theorem transfers_openProcess (hroom : roomy → s.RoomyEvents) (target : ProcessId) :
    Transfers roomy (loose, s) (loose, (s.openProcess p target).2) := by
  rw [openProcess]
  split
  · exact .refl
  · exact transfers_openHandle loose s p _ hroom

theorem transfers_createObject (hroom : roomy → s.RoomyEvents) (c : ObjectClass) :
    Transfers roomy (loose, s) (loose, (s.createObject p c).2) := by
  have hcreate {body : ObjectBody} (hbody : body = .event false false ∨ body = .addressArbiter) :
      Transfers roomy (loose, s) (loose,
        ((s.allocate body).2.openHandle p (s.allocate body).1).2.release (s.allocate body).1) :=
    ((Transfer.allocate loose s hbody).all.trans
      (transfers_openHandle _ _ p _ fun h => (hroom h).allocate body)).trans (transfers_release loose _ _)
  cases c with
  | process => exact .refl
  | event => exact hcreate (.inl rfl)
  | addressArbiter => exact hcreate (.inr rfl)

theorem transfers_closeHandle (h : Handle) : Transfers roomy (loose, s) (loose, (s.closeHandle p h).2) := by
  cases ho : (s.process? p).bind fun process => (process.handles.remove h).1 with
  | none =>
    simp only [closeHandle, ho]
    exact .refl
  | some o =>
    obtain ⟨process, hp, hg⟩ := Option.bind_eq_some_iff.mp ho
    have hclose : Transfer roomy (loose, s) (o :: loose, s.modifyProcess p (Process.close h)) := by
      refine .amend hp ⟨rfl, rfl, rfl, rfl⟩ fun q => ?_
      have hvalues := (HandleTable.values_remove hg).count_eq q
      simp only [Process.count_claims, Process.close, List.count_cons] at hvalues ⊢
      omega
    rw [closeHandle_eq hp hg]
    exact hclose.all.trans (transfers_release loose _ o)

theorem transfers_acquireProcess (h : Handle) :
    Transfers roomy (loose, s) (loose, (s.acquireProcess p h).2) := by
  rw [acquireProcess]
  split
  · exact .refl
  next hr =>
    obtain ⟨object, ho, hbody⟩ := resolveProcess_eq_ok hr
    have hplain : object.body.classOf ≠ .event := by simp [hbody, ObjectBody.classOf]
    exact (Transfer.take loose ho fun _ h => absurd h hplain).all.tail (.forget loose _ _)

theorem transfers_releaseProcess : Transfers roomy (loose, s) (loose, s.releaseProcess p) := by
  rw [releaseProcess]
  split
  · exact .refl
  next hp => exact (Transfer.borrow loose hp).all.trans (transfers_release loose s _)

theorem roomyEvents_acquireProcess (hroom : s.RoomyEvents) (h : Handle) :
    (s.acquireProcess p h).2.RoomyEvents := by
  rw [acquireProcess]
  split
  · exact hroom
  next hr =>
    obtain ⟨object, ho, hbody⟩ := resolveProcess_eq_ok hr
    exact hroom.addReference ho (by simp [hbody, ObjectBody.classOf])

theorem transfers_withProcess {α : Type} (hroom : roomy → s.RoomyEvents) (h : Handle)
    {use : ProcessId → State → Except Error α × State}
    (huse : ∀ q s, (roomy → s.RoomyEvents) → Transfers roomy (loose, s) (loose, (use q s).2)) :
    Transfers roomy (loose, s) (loose, (s.withProcess p h use).2) := by
  have hacquire : Transfers roomy (loose, s) (loose, (s.acquireProcess p h).2) :=
    transfers_acquireProcess loose s p h
  have hheld (hr : roomy) := roomyEvents_acquireProcess s p (hroom hr) h
  rw [withProcess]
  split
  next he => rwa [he] at hacquire
  next he =>
    rw [he] at hacquire hheld
    exact (hacquire.trans (huse _ _ hheld)).trans (transfers_releaseProcess loose _ _)

theorem transfers_titleOf (hroom : roomy → s.RoomyEvents) (h : Handle) :
    Transfers roomy (loose, s) (loose, (s.titleOf p h).2) := by
  refine transfers_withProcess loose s p hroom h fun q s _ => ?_
  split <;> exact .refl

theorem transfers_memoryChangeEvent :
    Transfers roomy (loose, s) (loose, (s.memoryChangeEvent p).2.modifyProcess p fun process =>
      { process with flags := { process.flags with signalOnLayoutChange := true } }) := by
  cases hp : s.process? p with
  | none =>
    simp only [memoryChangeEvent, hp]
    rw [modifyProcess, Table.modify_of_get?_eq_none hp]
  | some process =>
    cases hevent : process.memoryChangeEvent with
    | some e =>
      simp only [memoryChangeEvent, hp, hevent]
      exact transfers_amend loose s p hp ⟨rfl, rfl, rfl, rfl⟩ rfl rfl
    | none =>
      rw [announce_memoryChangeEvent s p hp hevent]
      exact (Transfer.enroll loose hp hevent).all

/-- But for the request for full access to its pages, control of a process transfers references. -/
theorem transfers_controlTarget (hroom : roomy → s.RoomyEvents) (caller : Caller) {op : ControlOp}
    (hop : op ≠ .forceRwx) :
    Transfers roomy (loose, s) (loose, (s.controlTarget caller p op).2) := by
  cases op with
  | listHandles c =>
    rw [controlTarget]
    split <;> exact .refl
  | forceRwx => exact absurd rfl hop
  | memoryChangeEvent =>
    have hevent : Transfers roomy (loose, s) (loose,
        (s.memoryChangeEvent p).2.modifyProcess p fun process =>
          { process with flags := { process.flags with signalOnLayoutChange := true } }) :=
      transfers_memoryChangeEvent loose s p
    have hready (hr : roomy) := (hroom hr).memoryChangeEvent p
    rw [controlTarget]
    split
    · exact .refl
    · split
      next hrefused =>
        rw [memoryChangeEvent_eq_error hrefused]
      next he =>
        rw [he] at hevent hready
        exact hevent.trans (transfers_openHandle loose _ _ _ fun hr => (hready hr).of_objects rfl)
  | signalOnExit =>
    rw [controlTarget]
    split
    next hcontains =>
      obtain ⟨process, hp⟩ := Option.isSome_iff_exists.mp hcontains
      exact transfers_amend loose s p hp ⟨rfl, rfl, rfl, rfl⟩ rfl rfl
    · exact .refl
  | physicalAddress virtual => exact .refl
  | schedule mode filter =>
    cases mode with
    | lock => exact transfers_of_holdings loose (holdings_lockThreads caller.core p filter)
    | unlock => exact transfers_of_holdings loose (holdings_unlockThreads p filter)

theorem transfers_beginExit : Transfers roomy (loose, s) (loose, (s.beginExit p).2) := by
  obtain hexit | ⟨-, hsame⟩ := holdings_beginExit (s := s) p
  · cases hp : s.process? p with
    | none =>
      simp only [beginExit, hp]
      exact .refl
    | some process =>
      have hmark : Transfers roomy (loose, s) (loose, s.modifyProcess p ({ · with exiting := true })) :=
        transfers_amend loose s p hp ⟨rfl, rfl, rfl, rfl⟩ rfl rfl
      exact hmark.trans (transfers_of_holdings loose hexit)
  · rw [hsame]

theorem transfers_destroyProcess : Transfers roomy (loose, s) (loose, (s.destroyProcess p).2) := by
  cases hp : s.process? p with
  | none =>
    simp only [destroyProcess, hp]
    exact .refl
  | some process =>
    cases hlive : process.reaped with
    | true =>
      simp only [destroyProcess, hp, hlive, if_pos]
      exact .refl
    | false =>
      have hcorpse : Transfer roomy (loose, s)
          (process.handles.slots.values ++ [process.object] ++ loose,
            s.modifyProcess p Process.corpse) := by
        refine .amend hp ⟨rfl, rfl, rfl, rfl⟩ fun o => ?_
        simp only [Process.count_claims, hlive, Bool.false_eq_true, if_false, List.count_append]
        simp only [Process.corpse, HandleTable.drain, if_true]
        have hempty : (Table.empty : Table Handle ObjectId).values.count o = 0 := rfl
        simp only [hempty, List.count_nil]
        omega
      rw [destroyProcess_eq hp hlive]
      exact (hcorpse.all.tail (.frame _ (books_bury hp))).trans (transfers_releaseAll loose _ _)

theorem transfers_control (hroom : roomy → s.RoomyEvents) (caller : Caller) (target : Handle)
    {op : ControlOp} (hop : op ≠ .forceRwx) :
    Transfers roomy (loose, s) (loose, (s.control caller target op).2) :=
  transfers_withProcess loose s _ hroom _ fun q s hheld =>
    transfers_controlTarget loose s q hheld caller hop

/-- Every plain operation is a sequence of transfers, after which no more references are loose than
before. -/
theorem transfers_run (hroom : roomy → s.RoomyEvents) {op : Operation} (hop : op.isPlain = true) :
    Transfers roomy (loose, s) (loose, (op.run s).2) := by
  cases op with
  | control caller target op =>
    refine transfers_control loose s hroom caller target ?_
    rintro rfl
    cases hop
  | controlRaw caller target code arg =>
    show Transfers roomy (loose, s) (loose, (s.controlRaw caller target code arg).2)
    rw [controlRaw]
    split
    · exact .refl
    next hd =>
      refine transfers_control loose s hroom caller target (ControlOp.decode_ne_forceRwx ?_ hd)
      rintro rfl
      cases hop
  | createProcess name titleId => exact (Transfer.createProcess loose s name titleId).all
  | createThread p c => exact (Transfer.frame loose (books_createThread p c)).all
  | setTls t slot value => exact transfers_of_holdings loose (holdings_setTls s t slot value)
  | setThreadState t state => exact transfers_of_holdings loose (holdings_setThreadState s t state)
  | setDebugLock t locked => exact transfers_of_holdings loose (holdings_setDebugLock s t locked)
  | beginExit p => exact transfers_beginExit loose s p
  | destroyProcess p => exact transfers_destroyProcess loose s p
  | runOnCore t => exact transfers_of_holdings loose (holdings_runOnCore s t)
  | enqueue t => exact transfers_of_holdings loose (holdings_enqueue s t)
  | evict t => exact transfers_of_holdings loose (holdings_evict s t)
  | reschedule c => exact transfers_of_holdings loose (holdings_reschedule s c)
  | tick c => exact transfers_of_holdings loose (holdings_tick s c)
  | raiseIpi c => exact transfers_of_holdings loose (holdings_raiseIpi s c)
  | deliverIpis => exact transfers_of_holdings loose holdings_deliverIpis
  | setPluginLock t => exact transfers_of_holdings loose (holdings_setPluginLock s t)
  | clearPluginLock t => exact transfers_of_holdings loose (holdings_clearPluginLock s t)
  | setSyncOwner t => exact transfers_of_holdings (s := s) loose rfl
  | openHandle p o => exact transfers_openHandle loose s p o hroom
  | openProcess p target => exact transfers_openProcess loose s p hroom target
  | createObject p c => exact transfers_createObject loose s p hroom c
  | closeHandle p h => exact transfers_closeHandle loose s p h
  | acquireProcess p h => exact transfers_acquireProcess loose s p h
  | releaseProcess p => exact transfers_releaseProcess loose s p
  | titleOf p h => exact transfers_titleOf loose s p hroom h
  | mapPage _ _ _ _ | unmapPage _ _ | clearEvent _ _ | retain _ | release _ => cases hop

end
end State
end PluginSlot.Kernel
