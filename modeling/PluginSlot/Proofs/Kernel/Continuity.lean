import PluginSlot.Proofs.Kernel.Bookkeeping

/-!
Most operations end nothing: every record and every object stays, no object loses a reference, and
the loose references stay as they were. A reference taken for the time of a call is given back
while others are left, because the call ends nothing. All this holds while there is room in the
counts: a count that is as high as it can be wraps around when one more reference is taken.
-/
namespace PluginSlot.Kernel.State

/-- Records stay with their objects, and no object loses a reference. -/
structure Grows (s s' : State) : Prop where
  record : ∀ p process, s.process? p = some process →
    ∃ now, s'.process? p = some now ∧ now.object = process.object
  object : ∀ o object, s.object? o = some object →
    ∃ now, s'.object? o = some now ∧ now.body.classOf = object.body.classOf ∧
      object.references ≤ now.references

/-- Whatever is loose, the second state accounts for it if the first does, and nothing has ended. -/
def Continues (s s' : State) : Prop := ∀ loose, s.Audited loose → s'.Audited loose ∧ s.Grows s'

section
variable {s s' s'' : State} {p : ProcessId} {o : ObjectId} {loose : List ObjectId}

theorem Grows.refl (s : State) : s.Grows s :=
  ⟨fun _ process hp => ⟨process, hp, rfl⟩, fun _ object ho => ⟨object, ho, rfl, Nat.le_refl _⟩⟩

theorem Grows.trans (h : s.Grows s') (h' : s'.Grows s'') : s.Grows s'' := by
  constructor
  · intro p process hp
    obtain ⟨mid, hmid, hm⟩ := h.record p process hp
    obtain ⟨now, hnow, hn⟩ := h'.record p mid hmid
    exact ⟨now, hnow, hn.trans hm⟩
  · intro o object ho
    obtain ⟨mid, hmid, hclass, hle⟩ := h.object o object ho
    obtain ⟨now, hnow, hclass', hle'⟩ := h'.object o mid hmid
    exact ⟨now, hnow, hclass'.trans hclass, Nat.le_trans hle hle'⟩

theorem Grows.of_books (hb : s'.books = s.books) : s.Grows s' := by
  have hobjects : s'.objects = s.objects := congrArg Books.objects hb
  constructor
  · intro p process hp
    exact ⟨process, (process?_of_books hb p).trans hp, rfl⟩
  · intro o object ho
    have hnow : s'.object? o = some object := by rwa [object?, hobjects]
    exact ⟨object, hnow, rfl, Nat.le_refl _⟩

theorem grows_modifyProcess (s : State) (p : ProcessId) {f : Process → Process}
    (hf : ∀ process, (f process).object = process.object) : s.Grows (s.modifyProcess p f) := by
  constructor
  · intro q process hq
    by_cases h : p = q
    · subst h
      exact ⟨f process, by simp [hq], hf process⟩
    · exact ⟨process, by rwa [process?_modifyProcess_ne s h], rfl⟩
  · exact (Grows.refl s).object

theorem grows_modifyObject (s : State) (o : ObjectId) {f : Object → Object}
    (hclass : ∀ object, (f object).body.classOf = object.body.classOf)
    (hmore : ∀ object, s.object? o = some object → object.references ≤ (f object).references) :
    s.Grows (s.modifyObject o f) := by
  constructor
  · exact (Grows.refl s).record
  · intro q object hq
    by_cases h : o = q
    · subst h
      exact ⟨f object, by simp [hq], hclass object, hmore object hq⟩
    · exact ⟨object, by rwa [object?_modifyObject_ne s h], rfl, Nat.le_refl _⟩

theorem Continues.refl (s : State) : s.Continues s := fun _ h => ⟨h, .refl s⟩

theorem Continues.trans (h : s.Continues s') (h' : s'.Continues s'') : s.Continues s'' := by
  intro loose hs
  obtain ⟨hmid, hgrow⟩ := h loose hs
  obtain ⟨hend, hgrow'⟩ := h' loose hmid
  exact ⟨hend, hgrow.trans hgrow'⟩

theorem Continues.of_books (h : s'.books = s.books) : s.Continues s' :=
  fun _ hs => ⟨hs.frame h, .of_books h⟩

theorem Continues.of_holdings (h : s'.holdings = s.holdings) : s.Continues s' :=
  .of_books (books_of_holdings h)

end

section
variable (s : State) (p : ProcessId) (o : ObjectId)

/-- A record may change in anything but its references. -/
theorem continues_modifyProcess {f : Process → Process}
    (hobject : ∀ process, (f process).object = process.object)
    (hhandles : ∀ process, (f process).handles = process.handles)
    (hevent : ∀ process, (f process).memoryChangeEvent = process.memoryChangeEvent)
    (hreaped : ∀ process, (f process).reaped = process.reaped) :
    s.Continues (s.modifyProcess p f) := by
  intro loose h
  refine ⟨⟨?_, h.referred.of_objects rfl⟩, grows_modifyProcess s p hobject⟩
  cases hp : s.process? p with
  | none =>
    have hsame : s.modifyProcess p f = s := by
      rw [modifyProcess, Table.modify_of_get?_eq_none hp]
    rw [hsame]
    exact h.toAccounted
  | some process =>
    exact h.modifyProcess_same hp (hobject process) (hhandles process) (hevent process)
      (hreaped process)

theorem classOf_setSignaled (signaled : Bool) (object : Object) :
    (setSignaled signaled object).body.classOf = object.body.classOf := by
  obtain ⟨body, count⟩ := object
  cases body <;> rfl

theorem count_setSignaled (signaled : Bool) (object : Object) :
    (setSignaled signaled object).count = object.count := by
  obtain ⟨body, count⟩ := object
  cases body <;> rfl

theorem references_setSignaled (signaled : Bool) (object : Object) :
    (setSignaled signaled object).references = object.references :=
  congrArg UInt32.toNat (count_setSignaled signaled object)

theorem continues_setSignaled (signaled : Bool) :
    s.Continues (s.modifyObject o (setSignaled signaled)) := by
  intro loose h
  refine ⟨⟨?_, h.referred.modifyObject fun object ho => ?_⟩, ?_⟩
  · cases ho : s.object? o with
    | none =>
      have hsame : s.modifyObject o (setSignaled signaled) = s := by
        rw [modifyObject, Table.modify_of_get?_eq_none ho]
      rw [hsame]
      exact h.toAccounted
    | some object =>
      apply h.modifyObject ho
      · obtain ⟨body, count⟩ := object
        cases body <;> simp [setSignaled]
      · exact classOf_setSignaled signaled object
      · rw [references_setSignaled]
      · exact fun _ _ => rfl
  · rw [references_setSignaled]
    exact h.referred o object ho
  · apply grows_modifyObject s o (classOf_setSignaled signaled)
    intro object _
    rw [references_setSignaled]

theorem continues_openHandle (hroom : s.Room o) : s.Continues (s.openHandle p o).2 := by
  intro loose h
  rw [openHandle]
  split
  · exact ⟨h, .refl s⟩
  next process hp =>
    split
    · exact ⟨h, .refl s⟩
    next hexists =>
      have hsome : (s.objects.get? o).isSome = true := by
        simpa only [Table.contains, Bool.not_eq_true', Bool.not_eq_false] using hexists
      obtain ⟨object, ho⟩ := Option.isSome_iff_exists.mp hsome
      split
      next =>
        dsimp only
        rw [addReference_release ho (h.referred o object ho) hroom]
        exact ⟨h, .refl s⟩
      next handle handles hinsert =>
        have htaken := h.addReference ho hroom
        have hnumbered := h.numbered p process hp
        refine ⟨⟨?_, htaken.referred.of_objects rfl⟩, ?_⟩
        · apply htaken.modifyProcess hp
          · rfl
          · exact hnumbered.insert hinsert
          · exact fun e he => .inl he
          · intro q
            have hvalues := (hnumbered.values_insert hinsert).count_eq q
            simp only [Process.claims, List.count_append, List.count_cons] at hvalues ⊢
            omega
        · have hmore : s.Grows (s.addReference o) :=
            grows_modifyObject s o (fun _ => rfl) fun object ho => by
              rw [Object.references_taken (hroom object ho)]
              exact Nat.le_succ _
          exact hmore.trans (grows_modifyProcess _ p fun _ => rfl)

theorem continues_openProcess (hroom : s.Roomy) (target : ProcessId) :
    s.Continues (s.openProcess p target).2 := by
  rw [openProcess]
  split
  · exact .refl s
  · exact continues_openHandle s p _ (hroom _)

end

section
variable {s : State} {p : ProcessId} {loose : List ObjectId}

theorem grows_allocate (hfresh : s.object? ⟨s.nextObject⟩ = none) (body : ObjectBody) :
    s.Grows (s.allocate body).2 := by
  constructor
  · exact (Grows.refl s).record
  · intro o object ho
    have hne : o ≠ ⟨s.nextObject⟩ := by
      rintro rfl
      cases hfresh.symm.trans ho
    exact ⟨object, by rwa [object?_allocate_ne body hne], rfl, Nat.le_refl _⟩

/-- The reference that an object is born with is dropped once its handle is open; if there is no
handle, the object goes again. -/
theorem Audited.create (h : s.Audited loose) (p : ProcessId) {body : ObjectBody}
    (hbody : body.classOf ≠ .process) :
    let s₁ := (s.allocate body).2
    let o := (s.allocate body).1
    ((s₁.openHandle p o).2.release o).Audited loose ∧
      s.Grows ((s₁.openHandle p o).2.release o) := by
  intro s₁ o
  have hborn : s₁.Audited (o :: loose) :=
    ⟨h.allocate fun q hq => hbody (by rw [hq]; rfl), h.referred.allocate body⟩
  have hroom : s₁.Room o := room_of_object (object?_allocate s body) (by decide : 1 + 1 < UInt32.size)
  obtain ⟨hopen, hgrow⟩ := continues_openHandle s₁ p o hroom _ hborn
  obtain ⟨now, hnow, hclass, -⟩ := hgrow.object o ⟨body, 1⟩ (object?_allocate s body)
  have hplain (q : ProcessId) : now.body ≠ .process q := by
    intro hq
    rw [hq] at hclass
    exact hbody hclass.symm
  obtain ⟨hdone, hrecords, hrest⟩ := hopen.release_plain hnow hplain
  have hold := (grows_allocate h.fresh body).trans hgrow
  refine ⟨⟨hdone, hopen.referred.release o⟩, ?_⟩
  constructor
  · intro q process hq
    rw [process?, hrecords]
    exact hold.record q process hq
  · intro q object hq
    obtain ⟨other, hother, hmore⟩ := hold.object q object hq
    have hne : q ≠ o := by
      rintro rfl
      cases h.fresh.symm.trans hq
    exact ⟨other, (hrest q hne).trans hother, hmore⟩

theorem continues_createObject (s : State) (p : ProcessId) (c : ObjectClass) :
    s.Continues (s.createObject p c).2 := by
  intro loose h
  cases c with
  | process => exact ⟨h, .refl s⟩
  | event => exact h.create p (by simp [ObjectBody.classOf])
  | addressArbiter => exact h.create p (by simp [ObjectBody.classOf])

theorem continues_createProcess (s : State) (name : String) (titleId : UInt64) :
    s.Continues (s.createProcess name titleId).2 := by
  intro loose h
  refine ⟨⟨h.createProcess name titleId, h.referred.createProcess name titleId⟩, ?_⟩
  constructor
  · intro q process hq
    have hne : q ≠ ⟨s.nextProcess⟩ := by
      rintro rfl
      cases h.freshProcess.symm.trans hq
    exact ⟨process, by rwa [process?_createProcess_ne name titleId hne], rfl⟩
  · intro q object hq
    have hne : q ≠ ⟨s.nextObject⟩ := by
      rintro rfl
      cases h.fresh.symm.trans hq
    exact ⟨object, by rwa [object?_createProcess_ne name titleId hne], rfl, Nat.le_refl _⟩

/-- A new memory-change event is claimed by its process and by nobody else. -/
theorem continues_memoryChangeEvent (s : State) (p : ProcessId) :
    s.Continues (s.memoryChangeEvent p).2 := by
  intro loose h
  rw [memoryChangeEvent]
  split
  · exact ⟨h, .refl s⟩
  next process hp =>
    split
    · exact ⟨h, .refl s⟩
    next hnone =>
      have hborn : (s.allocate (.event false true)).2.Audited (⟨s.nextObject⟩ :: loose) :=
        ⟨h.allocate fun _ => ObjectBody.noConfusion, h.referred.allocate _⟩
      have hnew := object?_allocate s (.event false true)
      have hunclaimed : (⟨s.nextObject⟩ : ObjectId) ∉ s.claims :=
        List.count_eq_zero.mp (h.count_eq_zero h.fresh).1
      refine ⟨⟨?_, hborn.referred.of_objects rfl⟩, ?_⟩
      · apply hborn.modifyProcess hp
        · rfl
        · exact h.numbered p process hp
        · rintro e he
          cases he
          exact .inr ⟨⟨_, hnew, rfl⟩, hunclaimed⟩
        · intro q
          show _ + loose.count q = _ + ((⟨s.nextObject⟩ : ObjectId) :: loose).count q
          simp only [Process.claims, hnone, Option.toList_none, Option.toList_some, List.count_append,
            List.count_cons, List.count_nil, allocate]
          omega
      · exact (grows_allocate h.fresh _).trans (grows_modifyProcess _ p fun _ => rfl)

end

section pages
variable (s : State) (p : ProcessId)

theorem continues_notifyLayoutChange : s.Continues (s.notifyLayoutChange p) := by
  rw [notifyLayoutChange]
  split
  · exact .refl s
  · split
    · exact .refl s
    · split
      · exact continues_setSignaled s _ true
      · exact .refl s

theorem continues_mapPage (virtual physical : UInt32) (permissions : Permissions) :
    s.Continues (s.mapPage p virtual physical permissions).2 := by
  rw [mapPage]
  split
  · exact .refl s
  · apply Continues.trans _ (continues_notifyLayoutChange _ p)
    apply continues_modifyProcess <;> exact fun _ => rfl

theorem continues_unmapPage (virtual : UInt32) : s.Continues (s.unmapPage p virtual).2 := by
  rw [unmapPage]
  split
  · exact .refl s
  · split
    · exact .refl s
    · apply Continues.trans _ (continues_notifyLayoutChange _ p)
      apply continues_modifyProcess <;> exact fun _ => rfl

theorem continues_forceRwx : s.Continues (s.forceRwx p) := by
  apply continues_modifyProcess <;> exact fun _ => rfl

end pages

section
variable (s : State) (p : ProcessId)

theorem continues_clearEvent (h : Handle) : s.Continues (s.clearEvent p h).2 := by
  rw [clearEvent]
  split
  · exact continues_setSignaled s _ false
  · exact .refl s

theorem continues_beginExit : s.Continues (s.beginExit p).2 := by
  obtain hsame | ⟨-, hsame⟩ := holdings_beginExit (s := s) p
  · apply Continues.trans _ (.of_holdings hsame)
    apply continues_modifyProcess <;> exact fun _ => rfl
  · rw [hsame]
    exact .refl s

theorem memoryChangeEvent_eq_ok {s s' : State} {p : ProcessId} {e : ObjectId}
    (he : s.memoryChangeEvent p = (.ok e, s')) :
    ∃ process, s'.process? p = some process ∧ process.memoryChangeEvent = some e := by
  rw [memoryChangeEvent] at he
  split at he
  · cases he
  next process hp =>
    split at he
    next hevent =>
      cases he
      exact ⟨process, hp, hevent⟩
    next =>
      cases he
      have hrecord : (s.allocate (.event false true)).2.process? p = some process := hp
      exact ⟨_, (process?_modifyProcess_self _ p _).trans (congrArg (Option.map _) hrecord), rfl⟩

theorem continues_controlTarget (hroom : s.RoomyEvents) (caller : Caller) (op : ControlOp) :
    s.Continues (s.controlTarget caller p op).2 := by
  cases op with
  | listHandles c =>
    rw [controlTarget]
    split <;> exact .refl s
  | forceRwx =>
    rw [controlTarget]
    split
    · exact continues_forceRwx s p
    · exact .refl s
  | memoryChangeEvent =>
    have hevent := continues_memoryChangeEvent s p
    rw [controlTarget]
    split
    · exact .refl s
    · split
      next he => rwa [he] at hevent
      next e ready he =>
        rw [he] at hevent
        intro loose hs
        -- what the record names is an event, of which one more reference can be counted
        obtain ⟨record, hrecord, hnames⟩ := memoryChangeEvent_eq_ok he
        obtain ⟨event, hobject, hclass⟩ := (hevent loose hs).1.event p record e hrecord hnames
        have hready := hroom.memoryChangeEvent p
        rw [he] at hready
        let asked := ready.modifyProcess p fun process =>
          { process with flags := { process.flags with signalOnLayoutChange := true } }
        have hask : ready.Continues asked := by
          apply continues_modifyProcess <;> exact fun _ => rfl
        have hopen : asked.Continues (asked.openHandle caller.process e).2 :=
          continues_openHandle _ _ _ ((hready e event hobject hclass).congr rfl)
        exact hevent.trans (hask.trans hopen) loose hs
  | signalOnExit =>
    rw [controlTarget]
    split
    · apply continues_modifyProcess <;> exact fun _ => rfl
    · exact .refl s
  | physicalAddress virtual => exact .refl s
  | schedule mode filter =>
    cases mode with
    | lock => exact .of_holdings (holdings_lockThreads caller.core p filter)
    | unlock => exact .of_holdings (holdings_unlockThreads p filter)

/-- To give back a reference that was taken before leaves every object what it had. -/
theorem Grows.giveBack {s s' : State} {o : ObjectId} {object : Object}
    (h : (s.addReference o).Grows s') (ho : s.object? o = some object) (hroom : s.Room o) :
    s.Grows (s'.modifyObject o Object.dropped) := by
  have htaken := object?_addReference_self ho
  constructor
  · exact h.record
  · intro q other hq
    by_cases he : o = q
    · subst he
      cases ho.symm.trans hq
      obtain ⟨now, hnow, hclass, hle⟩ := h.object o _ htaken
      rw [Object.references_taken (hroom object ho)] at hle
      have hleft : (s'.modifyObject o Object.dropped).object? o = some now.dropped := by
        simp [hnow]
      refine ⟨_, hleft, hclass, ?_⟩
      rw [Object.references_dropped]
      exact Nat.le_sub_of_add_le hle
    · have hkept : (s.addReference o).object? q = some other := by
        rwa [object?_addReference_ne s (Ne.symm he)]
      obtain ⟨now, hnow, hrest⟩ := h.object q other hkept
      exact ⟨now, by rwa [object?_modifyObject_ne _ he], hrest⟩

theorem resolveProcess_eq_ok {s : State} {p q : ProcessId} {h : Handle} {o : ObjectId}
    (hr : s.resolveProcess p h = .ok (q, o)) :
    ∃ object, s.object? o = some object ∧ object.body = .process q := by
  rw [resolveProcess] at hr
  split at hr
  · cases hr
  next found _ =>
    split at hr
    next references hobject =>
      split at hr
      · cases hr
        exact ⟨_, hobject, rfl⟩
      · cases hr
    · cases hr
    · cases hr

/-- The reference that holds the target meanwhile is never the last one when it is given back. -/
theorem continues_withProcess {α : Type} (hroom : s.Roomy) (h : Handle)
    {use : ProcessId → State → Except Error α × State}
    (huse : ∀ (q : ProcessId) (s : State), s.RoomyEvents → s.Continues (use q s).2) :
    s.Continues (s.withProcess p h use).2 := by
  intro loose hs
  rw [withProcess, acquireProcess]
  cases hr : s.resolveProcess p h with
  | error e => exact ⟨hs, .refl s⟩
  | ok found =>
    obtain ⟨q, o⟩ := found
    obtain ⟨object, ho, hbody⟩ := resolveProcess_eq_ok hr
    obtain ⟨process, hq, hbacks⟩ := hs.backing o object q ho hbody
    have hpositive := hs.referred o object ho
    have hheld : (s.addReference o).RoomyEvents :=
      hroom.events.addReference ho (by simp [hbody, ObjectBody.classOf])
    obtain ⟨hused, hgrow⟩ := huse q _ hheld (o :: loose) (hs.addReference ho (hroom o))
    have hmore := object?_addReference_self ho
    obtain ⟨record, hrecord, hsame⟩ := hgrow.record q process hq
    obtain ⟨now, hnow, -, hle⟩ := hgrow.object o _ hmore
    have hshared : 1 < now.references := by
      rw [Object.references_taken (hroom o object ho)] at hle
      omega
    have hback : ((use q (s.addReference o)).2.releaseProcess q) =
        (use q (s.addReference o)).2.modifyObject o Object.dropped := by
      rw [releaseProcess, hrecord]
      dsimp only
      rw [hsame, hbacks]
      exact release_of_shared hnow hshared
    dsimp only
    rw [hback]
    have hleft : ((use q (s.addReference o)).2.modifyObject o Object.dropped).Referred :=
      release_of_shared hnow hshared ▸ hused.referred.release o
    exact ⟨⟨hused.drop hnow hshared, hleft⟩, hgrow.giveBack ho (hroom o)⟩

theorem continues_control (hroom : s.Roomy) (caller : Caller) (target : Handle) (op : ControlOp) :
    s.Continues (s.control caller target op).2 :=
  continues_withProcess s _ hroom _ fun q s hevents => continues_controlTarget s q hevents caller op

theorem continues_controlRaw (hroom : s.Roomy) (caller : Caller) (target : Handle)
    (code arg : UInt32) : s.Continues (s.controlRaw caller target code arg).2 := by
  rw [controlRaw]
  split
  · exact .refl s
  · exact continues_control s hroom caller target _

theorem continues_titleOf (hroom : s.Roomy) (h : Handle) : s.Continues (s.titleOf p h).2 := by
  apply continues_withProcess s p hroom
  intro q s _
  split <;> exact .refl s

end
end PluginSlot.Kernel.State
