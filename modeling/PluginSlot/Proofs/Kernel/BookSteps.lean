import PluginSlot.Proofs.Kernel.Continuity

/-!
The books of a kernel change in few ways: a record or an object comes, is amended, or goes. Whatever
is done to a kernel, references taken and dropped by hand included, is a sequence of such changes, so
what each of them keeps holds in every run. An operation takes two references at most, so it takes a
long run to refer to an object as often as can be counted.
-/
namespace PluginSlot.Kernel

/-- A record may be amended so: it keeps its object and its memory-change event, and a request for a
signal is not taken back. -/
structure Process.Amends (old now : Process) : Prop where
  object : now.object = old.object
  event : now.memoryChangeEvent = old.memoryChangeEvent
  announced : old.flags.signalOnLayoutChange = true → now.flags.signalOnLayoutChange = true
  numbered : old.handles.Numbered → now.handles.Numbered

/-- An object may be amended so: it stands for what it stood for, and is referred to so many times more at
most. -/
structure Object.Amends (taken : Nat) (old now : Object) : Prop where
  body : ∀ p, now.body = .process p → old.body = .process p
  classOf : now.body.classOf = old.body.classOf
  references : now.references ≤ old.references + taken

namespace State

/-- Name the event that a record has for changes of the layout, and ask for it to be signaled. -/
def announce (s : State) (p : ProcessId) (e : ObjectId) : State :=
  s.modifyProcess p fun process =>
    { process with
      memoryChangeEvent := some e
      flags := { process.flags with signalOnLayoutChange := true } }

/-- One change to the books, in which so many references are taken at most. -/
inductive BookStep : State → Nat → State → Prop where
  | frame {s s' : State} (h : s'.books = s.books) : BookStep s 0 s'
  | amendProcess (s : State) (p : ProcessId) (f : Process → Process)
      (h : ∀ process, s.process? p = some process → process.Amends (f process)) :
      BookStep s 0 (s.modifyProcess p f)
  | amendObject (s : State) (taken : Nat) (o : ObjectId) (f : Object → Object)
      (h : ∀ object, s.object? o = some object → object.Amends taken (f object)) :
      BookStep s taken (s.modifyObject o f)
  | announce (s : State) (p : ProcessId) :
      BookStep s 0 ((s.allocate (.event false true)).2.announce p (s.allocate (.event false true)).1)
  | createProcess (s : State) (name : String) (titleId : UInt64) :
      BookStep s 0 (s.createProcess name titleId).2
  | allocate (s : State) (body : ObjectBody) (h : ∀ p, body ≠ .process p) :
      BookStep s 0 (s.allocate body).2
  | eraseProcess (s : State) (p : ProcessId) :
      BookStep s 0 { s with processes := s.processes.erase p }
  | eraseObject (s : State) (o : ObjectId) :
      BookStep s 0 { s with objects := s.objects.erase o }

/-- The second state comes of the first by changes to the books, one after the other, in which so many
references are taken at most. -/
inductive BookSteps : State → Nat → State → Prop where
  | refl {s : State} {taken : Nat} : BookSteps s taken s
  | tail {s s' s'' : State} {taken more : Nat} (h : BookSteps s taken s')
      (hlast : BookStep s' more s'') : BookSteps s (taken + more) s''

section
variable {s s' s'' : State} {P : State → Prop} {taken more : Nat}

theorem BookStep.steps (h : s.BookStep taken s') : s.BookSteps taken s' :=
  Nat.zero_add taken ▸ BookSteps.refl.tail h

theorem BookSteps.mono (h : s.BookSteps taken s') (hle : taken ≤ more) : s.BookSteps more s' := by
  induction h generalizing more with
  | refl => exact .refl
  | @tail _ _ taken last _ hlast ih =>
    have hrest : taken ≤ more - last := Nat.le_sub_of_add_le hle
    exact Nat.sub_add_cancel ((Nat.le_add_left last taken).trans hle) ▸ (ih hrest).tail hlast

theorem BookSteps.trans (h : s.BookSteps taken s') (h' : s'.BookSteps more s'') :
    s.BookSteps (taken + more) s'' := by
  induction h' with
  | refl => exact h.mono (Nat.le_add_right ..)
  | tail _ hlast ih => exact Nat.add_assoc .. ▸ ih.tail hlast

theorem BookSteps.of_books (h : s'.books = s.books) : s.BookSteps taken s' := BookSteps.refl.tail (.frame h)

theorem BookSteps.of_holdings (h : s'.holdings = s.holdings) : s.BookSteps taken s' :=
  .of_books (books_of_holdings h)

theorem BookSteps.foldl {α : Type} {f : State → α → State}
    (hf : ∀ s a, BookSteps s taken (f s a)) (l : List α) (s : State) :
    s.BookSteps (taken * l.length) (l.foldl f s) := by
  induction l generalizing s with
  | nil => exact .refl
  | cons a l ih =>
    rw [List.length_cons, Nat.mul_succ, Nat.add_comm]
    exact (hf s a).trans (ih (f s a))

/-- A sequence of changes, none of which takes a reference, takes none. -/
theorem BookSteps.foldl_zero {α : Type} {f : State → α → State}
    (hf : ∀ s a, BookSteps s 0 (f s a)) (l : List α) (s : State) : s.BookSteps 0 (l.foldl f s) :=
  Nat.zero_mul l.length ▸ foldl hf l s

/-- What every change keeps is kept by many. -/
theorem BookSteps.keeps (hstep : ∀ s taken s', BookStep s taken s' → P s → P s')
    (h : s.BookSteps taken s') (hs : P s) : P s' := by
  induction h with
  | refl => exact hs
  | tail _ hlast ih => exact hstep _ _ _ hlast ih

end

section
variable (s : State) (p : ProcessId) (o : ObjectId)

theorem steps_amendProcess {f : Process → Process}
    (hf : ∀ process, s.process? p = some process → process.Amends (f process)) :
    s.BookSteps 0 (s.modifyProcess p f) :=
  (BookStep.amendProcess s p f hf).steps

theorem steps_amendObject {taken : Nat} {f : Object → Object}
    (hf : ∀ object, s.object? o = some object → object.Amends taken (f object)) :
    s.BookSteps taken (s.modifyObject o f) :=
  (BookStep.amendObject s taken o f hf).steps

theorem steps_addReference : s.BookSteps 1 (s.addReference o) :=
  steps_amendObject s o fun object _ => ⟨fun _ hp => hp, rfl, object.references_taken_le⟩

theorem steps_retain : s.BookSteps 1 (s.retain o).2 := by
  rw [retain]
  split
  · exact steps_addReference s o
  · exact .refl

theorem steps_setSignaled (signaled : Bool) :
    s.BookSteps 0 (s.modifyObject o (setSignaled signaled)) := by
  refine steps_amendObject s o fun object _ => ⟨fun p hp => ?_, classOf_setSignaled signaled object,
    Nat.le_of_eq (references_setSignaled signaled object)⟩
  obtain ⟨body, count⟩ := object
  cases body <;> simp_all [setSignaled]

theorem steps_dropReference : s.BookSteps 0 (s.dropReference o).2 := by
  obtain ⟨-, h⟩ | ⟨_, -, -, h⟩ | ⟨_, -, -, h⟩ := dropReference_cases s o
  · rw [h]
    exact .refl
  · rw [h]
    refine steps_amendObject s o fun object _ => ⟨fun _ hp => hp, rfl, ?_⟩
    rw [Object.references_dropped]
    exact Nat.sub_le _ _
  · rw [h]
    exact (BookStep.eraseObject s o).steps

theorem steps_release : s.BookSteps 0 (s.release o) :=
  release_keeps (P := s.BookSteps 0) (fun s' o h => h.trans (steps_dropReference s' o))
    (fun s' p h => h.tail (.eraseProcess s' p)) .refl o

theorem steps_openHandle : s.BookSteps 1 (s.openHandle p o).2 := by
  rw [openHandle]
  split
  · exact .refl
  next process hp =>
    split
    · exact .refl
    · split
      · exact (steps_addReference s o).trans (steps_release _ o)
      next h handles hinsert =>
        refine (steps_addReference s o).trans (steps_amendProcess _ p fun other hother => ?_)
        cases hp.symm.trans hother
        exact ⟨rfl, rfl, id, fun hnumbered => hnumbered.insert hinsert⟩

theorem steps_openProcess (target : ProcessId) : s.BookSteps 1 (s.openProcess p target).2 := by
  rw [openProcess]
  split
  · exact .refl
  · exact steps_openHandle s p _

theorem steps_createObject (c : ObjectClass) : s.BookSteps 1 (s.createObject p c).2 := by
  have hcreate {body : ObjectBody} (hbody : ∀ p, body ≠ .process p) :
      s.BookSteps 1 (((s.allocate body).2.openHandle p (s.allocate body).1).2.release
        (s.allocate body).1) :=
    ((BookStep.allocate s body hbody).steps.trans (steps_openHandle _ p _)).trans (steps_release _ _)
  cases c with
  | process => exact .refl
  | event => exact hcreate fun _ => ObjectBody.noConfusion
  | addressArbiter => exact hcreate fun _ => ObjectBody.noConfusion

theorem steps_closeHandle (h : Handle) : s.BookSteps 0 (s.closeHandle p h).2 := by
  rw [closeHandle]
  split
  · exact .refl
  · refine (steps_amendProcess s p fun process _ => ?_).trans (steps_release _ _)
    exact ⟨rfl, rfl, id, fun hnumbered => hnumbered.remove h⟩

theorem steps_acquireProcess (h : Handle) : s.BookSteps 1 (s.acquireProcess p h).2 := by
  rw [acquireProcess]
  split
  · exact .refl
  · exact steps_addReference s _

theorem steps_releaseProcess : s.BookSteps 0 (s.releaseProcess p) := by
  rw [releaseProcess]
  split
  · exact .refl
  · exact steps_release s _

theorem steps_withProcess {α : Type} (h : Handle) {use : ProcessId → State → Except Error α × State}
    {taken : Nat} (huse : ∀ q s, BookSteps s taken (use q s).2) :
    s.BookSteps (1 + taken) (s.withProcess p h use).2 := by
  have hacquire := steps_acquireProcess s p h
  rw [withProcess]
  split
  next he =>
    rw [he] at hacquire
    exact hacquire.mono (Nat.le_add_right ..)
  next he =>
    rw [he] at hacquire
    exact (hacquire.trans (huse _ _)).trans (steps_releaseProcess _ _)

theorem steps_clearEvent (h : Handle) : s.BookSteps 0 (s.clearEvent p h).2 := by
  rw [clearEvent]
  split
  · exact steps_setSignaled s _ false
  · exact .refl

theorem steps_notifyLayoutChange : s.BookSteps 0 (s.notifyLayoutChange p) := by
  rw [notifyLayoutChange]
  split
  · exact .refl
  · split
    · exact .refl
    · split
      · exact steps_setSignaled s _ true
      · exact .refl

theorem steps_mapPage (virtual physical : UInt32) (permissions : Permissions) :
    s.BookSteps 0 (s.mapPage p virtual physical permissions).2 := by
  rw [mapPage]
  split
  · exact .refl
  · refine .trans ?_ (steps_notifyLayoutChange _ p)
    exact steps_amendProcess s p fun _ _ => ⟨rfl, rfl, id, id⟩

theorem steps_unmapPage (virtual : UInt32) : s.BookSteps 0 (s.unmapPage p virtual).2 := by
  rw [unmapPage]
  split
  · exact .refl
  · split
    · exact .refl
    · refine .trans ?_ (steps_notifyLayoutChange _ p)
      exact steps_amendProcess s p fun _ _ => ⟨rfl, rfl, id, id⟩

/-- Asked for the memory-change event, a kernel makes it if need be, and records the request. -/
theorem announce_memoryChangeEvent {process : Process} (hp : s.process? p = some process)
    (hnone : process.memoryChangeEvent = none) :
    (s.memoryChangeEvent p).2.modifyProcess p (fun process =>
        { process with flags := { process.flags with signalOnLayoutChange := true } }) =
      (s.allocate (.event false true)).2.announce p (s.allocate (.event false true)).1 := by
  simp only [memoryChangeEvent, hp, hnone]
  exact modifyProcess_modifyProcess _ p _ _

theorem steps_memoryChangeEvent :
    s.BookSteps 0 ((s.memoryChangeEvent p).2.modifyProcess p fun process =>
      { process with flags := { process.flags with signalOnLayoutChange := true } }) := by
  have hask (s : State) : s.BookSteps 0 (s.modifyProcess p fun process =>
      { process with flags := { process.flags with signalOnLayoutChange := true } }) :=
    steps_amendProcess s p fun _ _ => ⟨rfl, rfl, fun _ => rfl, id⟩
  cases hp : s.process? p with
  | none =>
    simp only [memoryChangeEvent, hp]
    exact hask s
  | some process =>
    cases hevent : process.memoryChangeEvent with
    | some e =>
      simp only [memoryChangeEvent, hp, hevent]
      exact hask s
    | none =>
      rw [announce_memoryChangeEvent s p hp hevent]
      exact (BookStep.announce s p).steps

theorem memoryChangeEvent_eq_error {s s' : State} {p : ProcessId} {error : Error}
    (he : s.memoryChangeEvent p = (.error error, s')) : s' = s := by
  rw [memoryChangeEvent] at he
  split at he
  · cases he
    rfl
  · split at he <;> cases he

theorem steps_controlTarget (caller : Caller) (op : ControlOp) :
    s.BookSteps 1 (s.controlTarget caller p op).2 := by
  cases op with
  | listHandles c =>
    rw [controlTarget]
    split <;> exact .refl
  | forceRwx =>
    rw [controlTarget]
    split
    · exact .mono (steps_amendProcess s p fun _ _ => ⟨rfl, rfl, id, id⟩) (Nat.zero_le 1)
    · exact .refl
  | memoryChangeEvent =>
    have hevent := steps_memoryChangeEvent s p
    rw [controlTarget]
    split
    · exact .refl
    · split
      next hrefused =>
        rw [memoryChangeEvent_eq_error hrefused]
        exact .refl
      next he =>
        rw [he] at hevent
        exact hevent.trans (steps_openHandle _ _ _)
  | signalOnExit =>
    rw [controlTarget]
    split
    · exact .mono (steps_amendProcess s p fun _ _ => ⟨rfl, rfl, id, id⟩) (Nat.zero_le 1)
    · exact .refl
  | physicalAddress virtual => exact .refl
  | schedule mode filter =>
    cases mode with
    | lock => exact .of_holdings (holdings_lockThreads caller.core p filter)
    | unlock => exact .of_holdings (holdings_unlockThreads p filter)

theorem steps_control (caller : Caller) (target : Handle) (op : ControlOp) :
    s.BookSteps 2 (s.control caller target op).2 :=
  steps_withProcess s _ _ fun q s => steps_controlTarget s q caller op

theorem steps_controlRaw (caller : Caller) (target : Handle) (code arg : UInt32) :
    s.BookSteps 2 (s.controlRaw caller target code arg).2 := by
  rw [controlRaw]
  split
  · exact .refl
  · exact steps_control s caller target _

theorem steps_titleOf (h : Handle) : s.BookSteps 1 (s.titleOf p h).2 := by
  show s.BookSteps (1 + 0) (s.titleOf p h).2
  refine steps_withProcess s p h fun q s => ?_
  split <;> exact .refl

theorem steps_beginExit : s.BookSteps 0 (s.beginExit p).2 := by
  obtain hsame | ⟨-, hsame⟩ := holdings_beginExit (s := s) p
  · have hexit : s.BookSteps 0 (s.modifyProcess p ({ · with exiting := true })) :=
      steps_amendProcess s p fun _ _ => ⟨rfl, rfl, id, id⟩
    have hmarked : (s.modifyProcess p ({ · with exiting := true })).BookSteps 0 (s.beginExit p).2 :=
      .of_holdings hsame
    exact hexit.trans hmarked
  · rw [hsame]
    exact .refl

theorem steps_destroyProcess : s.BookSteps 0 (s.destroyProcess p).2 := by
  rw [destroyProcess]
  split
  · exact .refl
  · split
    · exact .refl
    · have hbury (s : State) : s.BookSteps 0 (s.modifyProcess p fun process =>
          { process with reaped := true, handles := process.handles.drain.2 }) :=
        steps_amendProcess s p fun _ _ => ⟨rfl, rfl, id, fun _ _ _ hj => by cases hj⟩
      refine .trans ?_ (steps_release _ _)
      refine .trans ?_ (BookSteps.foldl_zero steps_release _ _)
      refine .trans ?_ (hbury _)
      refine (steps_beginExit s p).trans (BookSteps.foldl_zero (fun s t => ?_) _ _)
      exact BookSteps.of_books (books_removeThread t)

/-- Every operation is a sequence of changes to the books. A request for the memory-change event takes two
references, one of which it gives back. -/
theorem steps_run (op : Operation) : s.BookSteps 2 (op.run s).2 := by
  cases op with
  | control caller target op => exact steps_control s caller target op
  | controlRaw caller target code arg => exact steps_controlRaw s caller target code arg
  | createProcess name titleId => exact (BookStep.createProcess s name titleId).steps.mono (Nat.zero_le 2)
  | createThread p c => exact .of_books (books_createThread p c)
  | setTls t slot value => exact .of_holdings (holdings_setTls s t slot value)
  | setThreadState t state => exact .of_holdings (holdings_setThreadState s t state)
  | setDebugLock t locked => exact .of_holdings (holdings_setDebugLock s t locked)
  | beginExit p => exact (steps_beginExit s p).mono (Nat.zero_le 2)
  | destroyProcess p => exact (steps_destroyProcess s p).mono (Nat.zero_le 2)
  | runOnCore t => exact .of_holdings (holdings_runOnCore s t)
  | enqueue t => exact .of_holdings (holdings_enqueue s t)
  | evict t => exact .of_holdings (holdings_evict s t)
  | reschedule c => exact .of_holdings (holdings_reschedule s c)
  | tick c => exact .of_holdings (holdings_tick s c)
  | raiseIpi c => exact .of_holdings (holdings_raiseIpi s c)
  | deliverIpis => exact .of_holdings holdings_deliverIpis
  | setPluginLock t => exact .of_holdings (holdings_setPluginLock s t)
  | clearPluginLock t => exact .of_holdings (holdings_clearPluginLock s t)
  | setSyncOwner t => exact .of_books rfl
  | retain o => exact (steps_retain s o).mono (Nat.le_succ 1)
  | release o => exact (steps_release s o).mono (Nat.zero_le 2)
  | openHandle p o => exact (steps_openHandle s p o).mono (Nat.le_succ 1)
  | openProcess p target => exact (steps_openProcess s p target).mono (Nat.le_succ 1)
  | createObject p c => exact (steps_createObject s p c).mono (Nat.le_succ 1)
  | closeHandle p handle => exact (steps_closeHandle s p handle).mono (Nat.zero_le 2)
  | acquireProcess p handle => exact (steps_acquireProcess s p handle).mono (Nat.le_succ 1)
  | releaseProcess p => exact (steps_releaseProcess s p).mono (Nat.zero_le 2)
  | titleOf p handle => exact (steps_titleOf s p handle).mono (Nat.le_succ 1)
  | clearEvent p handle => exact (steps_clearEvent s p handle).mono (Nat.zero_le 2)
  | mapPage p virtual physical permissions =>
    exact (steps_mapPage s p virtual physical permissions).mono (Nat.zero_le 2)
  | unmapPage p virtual => exact (steps_unmapPage s p virtual).mono (Nat.zero_le 2)

theorem steps_runAll (ops : List Operation) : s.BookSteps (2 * ops.length) (s.runAll ops) :=
  .foldl (fun s op => steps_run s op) ops s

end

/-- No object is referred to more often than this. -/
def Within (n : Nat) (s : State) : Prop :=
  ∀ o object, s.object? o = some object → object.references ≤ n

section
variable {s s' : State} {n taken : Nat}

theorem Within.allocate (hs : s.Within n) (hn : 0 < n) (body : ObjectBody) :
    (s.allocate body).2.Within n := by
  intro o object ho
  obtain ⟨-, rfl⟩ | hold := object?_of_allocate ho
  · exact hn
  · exact hs o object hold

theorem BookStep.within (h : s.BookStep taken s') (hn : 0 < n) (hs : s.Within n) :
    s'.Within (n + taken) := by
  cases h with
  | frame hbooks =>
    intro o object ho
    rw [object?_of_books hbooks] at ho
    exact hs o object ho
  | amendProcess _ _ => exact hs
  | amendObject _ q f hf =>
    intro o object ho
    obtain ⟨old, hold, ⟨rfl, rfl⟩ | ⟨-, rfl⟩⟩ := exists_of_modifyObject ho
    · exact (hf old hold).references.trans (Nat.add_le_add_right (hs q old hold) taken)
    · exact (hs o object hold).trans (Nat.le_add_right ..)
  | announce _ => exact hs.allocate hn _
  | createProcess name titleId =>
    intro o object ho
    obtain ⟨-, rfl⟩ | hold := object?_of_createProcess name titleId ho
    · exact hn
    · exact hs o object hold
  | allocate body _ => exact hs.allocate hn body
  | eraseProcess _ => exact hs
  | eraseObject q => exact fun o object ho => hs o object (Table.of_get?_erase ho).2

theorem BookSteps.within (h : s.BookSteps taken s') (hn : 0 < n) (hs : s.Within n) :
    s'.Within (n + taken) := by
  induction h with
  | refl => exact fun o object ho => (hs o object ho).trans (Nat.le_add_right ..)
  | tail _ hlast ih =>
    rw [← Nat.add_assoc]
    exact hlast.within (Nat.lt_of_lt_of_le hn (Nat.le_add_right ..)) ih

/-- References are taken in steps, so it takes a run as long as this to count so many. -/
theorem within_runAll (cores : Nat) (ops : List Operation) :
    ((boot cores).runAll ops).Within (1 + 2 * ops.length) :=
  (steps_runAll (boot cores) ops).within Nat.one_pos fun o object ho => by cases ho

end
end State
end PluginSlot.Kernel
