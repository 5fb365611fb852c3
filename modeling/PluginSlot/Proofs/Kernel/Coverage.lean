import Mathlib.Data.List.Flatten
import PluginSlot.Proofs.Kernel.Paging

/-!
References to events are covered. As long as nobody drops references of objects by hand and no count
wraps around, an event has at least as many as records hold, so it exists as long as one does. Processes
are apart: whoever has a handle may take and drop references to them.
-/
namespace PluginSlot.Kernel.State

/-- An event has a reference for each that is held by a record or loose, and every record has an object
of its own and an event of its own. -/
structure Covered (loose : List ObjectId) (s : State) : Prop where
  cover : ∀ o object, s.object? o = some object → object.body.classOf = .event →
    s.claims.count o + loose.count o ≤ object.references
  claimBelow : ∀ o, 0 < s.claims.count o + loose.count o → o.val < s.nextObject
  objectBelow : ∀ o object, s.object? o = some object → o.val < s.nextObject
  ownBelow : ∀ p process, s.process? p = some process → process.object.val < s.nextObject
  own : ∀ p process object, s.process? p = some process → s.object? process.object = some object →
    object.body.classOf = .process
  event : ∀ p process e, s.process? p = some process → process.memoryChangeEvent = some e →
    ∃ object, s.object? e = some object ∧ object.body.classOf = .event
  ownEvent : ∀ p q process other e, s.process? p = some process → s.process? q = some other →
    process.memoryChangeEvent = some e → other.memoryChangeEvent = some e → p = q

section
variable {s s' : State} {p q : ProcessId} {o e : ObjectId} {process : Process} {object : Object}
variable {loose loose' : List ObjectId}

theorem Covered.frame (h : s.Covered loose) (hb : s'.books = s.books) : s'.Covered loose := by
  have hprocesses : s'.processes = s.processes := congrArg Books.processes hb
  have hnext : s'.nextObject = s.nextObject := congrArg Books.nextObject hb
  have hclaims : s'.claims = s.claims := by rw [claims, claims, hprocesses]
  constructor <;> simp only [process?_of_books hb, object?_of_books hb, hclaims, hnext]
  · exact h.cover
  · exact h.claimBelow
  · exact h.objectBelow
  · exact h.ownBelow
  · exact h.own
  · exact h.event
  · exact h.ownEvent

/-- Fewer references may be loose than are covered. -/
theorem Covered.less (h : s.Covered loose)
    (hless : ∀ o, loose'.count o ≤ loose.count o) : s.Covered loose' where
  cover o object ho hclass := by
    have hcover := h.cover o object ho hclass
    have hl := hless o
    omega
  claimBelow o hpos := by
    apply h.claimBelow
    have hl := hless o
    omega
  objectBelow := h.objectBelow
  ownBelow := h.ownBelow
  own := h.own
  event := h.event
  ownEvent := h.ownEvent

theorem Covered.event_claimed (hp : s.process? p = some process)
    (he : process.memoryChangeEvent = some e) : 0 < s.claims.count e :=
  List.count_pos_iff.mpr (mem_claims hp (by simp [Process.claims, he]))

/-- A change of one record. It may be given an event, if nobody has that yet. -/
theorem Covered.modifyProcess (h : s.Covered loose) (hp : s.process? p = some process)
    {f : Process → Process} (hobject : (f process).object = process.object)
    (hevent : ∀ e, (f process).memoryChangeEvent = some e → process.memoryChangeEvent = some e ∨
      (∃ object, s.object? e = some object ∧ object.body.classOf = .event) ∧ e ∉ s.claims)
    (hcount : ∀ o, (f process).claims.count o + loose'.count o ≤
      process.claims.count o + loose.count o) : (s.modifyProcess p f).Covered loose' := by
  have hsum (o : ObjectId) : (s.modifyProcess p f).claims.count o + loose'.count o ≤
      s.claims.count o + loose.count o := by
    have hclaims := count_claims_modifyProcess hp f o
    have hless := hcount o
    omega
  have hold (q : ProcessId) (other : Process) (hq : (s.modifyProcess p f).process? q = some other) :
      ∃ old, s.process? q = some old ∧ other.object = old.object := by
    obtain ⟨rfl, rfl⟩ | ⟨-, hq⟩ := process?_of_modifyProcess hp hq
    · exact ⟨process, hp, hobject⟩
    · exact ⟨other, hq, rfl⟩
  refine ⟨fun o object ho hclass => ?_, fun o hpos => ?_, h.objectBelow, fun q other hq => ?_,
    fun q other object hq ho => ?_, fun q other e hq he => ?_, fun q r other third e hq hr he he' => ?_⟩
  · exact (hsum o).trans (h.cover o object ho hclass)
  · exact h.claimBelow o (Nat.lt_of_lt_of_le hpos (hsum o))
  · obtain ⟨old, hold, hsame⟩ := hold q other hq
    rw [hsame]
    exact h.ownBelow q old hold
  · obtain ⟨old, hold, hsame⟩ := hold q other hq
    exact h.own q old object hold (hsame ▸ ho)
  · obtain ⟨rfl, rfl⟩ | ⟨-, hq⟩ := process?_of_modifyProcess hp hq
    · obtain hwas | ⟨hnew, -⟩ := hevent e he
      · exact h.event q process e hp hwas
      · exact hnew
    · exact h.event q other e hq he
  · -- the event of another record is claimed, so it is not given to this one
    have hclaimed (r : ProcessId) (third : Process) (hr : s.process? r = some third)
        (he : third.memoryChangeEvent = some e) : e ∈ s.claims :=
      List.count_pos_iff.mp (Covered.event_claimed hr he)
    obtain ⟨rfl, rfl⟩ | ⟨-, hqs⟩ := process?_of_modifyProcess hp hq <;>
      obtain ⟨rfl, rfl⟩ | ⟨-, hrs⟩ := process?_of_modifyProcess hp hr
    · rfl
    · obtain hwas | ⟨-, hnew⟩ := hevent e he
      · exact h.ownEvent _ _ _ _ e hp hrs hwas he'
      · exact absurd (hclaimed r third hrs he') hnew
    · obtain hwas | ⟨-, hnew⟩ := hevent e he'
      · exact h.ownEvent _ _ _ _ e hqs hp he hwas
      · exact absurd (hclaimed q other hqs he) hnew
    · exact h.ownEvent _ _ _ _ e hqs hrs he he'

theorem Covered.amend (h : s.Covered loose) (hp : s.process? p = some process)
    {f : Process → Process} (hobject : (f process).object = process.object)
    (hevent : (f process).memoryChangeEvent = process.memoryChangeEvent)
    (hcount : ∀ o, (f process).claims.count o + loose'.count o ≤
      process.claims.count o + loose.count o) : (s.modifyProcess p f).Covered loose' :=
  h.modifyProcess hp hobject (fun _ he => .inl (hevent ▸ he)) hcount

/-- A change of one object, which stays what it is. -/
theorem Covered.modifyObject (h : s.Covered loose) (ho : s.object? o = some object)
    {f : Object → Object} (hclass : (f object).body.classOf = object.body.classOf)
    (hself : object.body.classOf = .event →
      s.claims.count o + loose'.count o ≤ (f object).references)
    (hother : ∀ q, q ≠ o → loose'.count q ≤ loose.count q) :
    (s.modifyObject o f).Covered loose' := by
  refine ⟨fun q other hq hc => ?_, fun q hpos => ?_, fun q other hq => ?_, h.ownBelow,
    fun r other third hr hthird => ?_, fun r other e hr he => ?_, h.ownEvent⟩
  · obtain ⟨rfl, rfl⟩ | ⟨hne, hold⟩ := object?_of_modifyObject ho hq
    · exact hself (hclass.symm.trans hc)
    · exact (Nat.add_le_add_left (hother q hne) _).trans (h.cover q other hold hc)
  · by_cases hq : q = o
    · rw [hq]
      exact h.objectBelow o object ho
    · exact h.claimBelow q (Nat.lt_of_lt_of_le hpos (Nat.add_le_add_left (hother q hq) _))
  · obtain ⟨rfl, -⟩ | ⟨-, hold⟩ := object?_of_modifyObject ho hq
    · exact h.objectBelow q object ho
    · exact h.objectBelow q other hold
  · obtain ⟨hsame, rfl⟩ | ⟨-, hold⟩ := object?_of_modifyObject ho hthird
    · rw [hclass]
      exact h.own r other object hr (hsame ▸ ho)
    · exact h.own r other third hr hold
  · obtain ⟨found, hfound, hc⟩ := h.event r other e hr he
    by_cases hne : o = e
    · subst hne
      cases ho.symm.trans hfound
      exact ⟨f object, by simp [ho], hclass.trans hc⟩
    · exact ⟨found, (object?_modifyObject_ne s hne f).trans hfound, hc⟩

/-- The last reference to an event is held by nobody else. -/
theorem Covered.eraseObject (h : s.Covered loose)
    (hfree : ∀ object, s.object? o = some object → object.body.classOf = .event →
      s.claims.count o = 0) :
    ({ s with objects := s.objects.erase o } : State).Covered loose := by
  have hold (q : ObjectId) (object : Object) (hq : (s.objects.erase o).get? q = some object) :
      s.object? q = some object := (Table.of_get?_erase hq).2
  refine ⟨fun q object hq => h.cover q object (hold q object hq), h.claimBelow,
    fun q object hq => h.objectBelow q object (hold q object hq), h.ownBelow,
    fun p process object hp ho => h.own p process object hp (hold _ object ho),
    fun p process e hp he => ?_, h.ownEvent⟩
  obtain ⟨object, ho, hclass⟩ := h.event p process e hp he
  have hne : o ≠ e := by
    rintro rfl
    exact Nat.ne_of_gt (Covered.event_claimed hp he) (hfree object ho hclass)
  exact ⟨object, (Table.get?_erase_ne _ hne).trans ho, hclass⟩

theorem Covered.dropReference (h : s.Covered (o :: loose)) : (s.dropReference o).2.Covered loose := by
  have hrest : s.Covered loose := h.less fun q => List.count_le_count_cons
  obtain ⟨-, heq⟩ | ⟨object, ho, -, heq⟩ | ⟨object, ho, hlast, heq⟩ := dropReference_cases s o
  · rwa [heq]
  · rw [heq]
    refine hrest.modifyObject ho rfl (fun hclass => ?_) fun _ _ => Nat.le_refl _
    have hcover := h.cover o object ho hclass
    rw [List.count_cons_self] at hcover
    rw [Object.references_dropped]
    omega
  · rw [heq]
    refine hrest.eraseObject fun other hother hclass => ?_
    cases ho.symm.trans hother
    have hcover := h.cover o object ho hclass
    rw [List.count_cons_self] at hcover
    omega

theorem claims_erase_sublist (s : State) (p : ProcessId) :
    ((s.processes.erase p).values.flatMap Process.claims).Sublist s.claims :=
  (s.processes.values_erase_sublist p).flatMap _

/-- The reference to its event is loose when a record is gone. -/
theorem Covered.eraseProcess (h : s.Covered loose) (p : ProcessId) :
    ({ s with processes := s.processes.erase p } : State).Covered
      (((s.process? p).bind (·.memoryChangeEvent)).toList ++ loose) := by
  have hsum (o : ObjectId) : ((s.processes.erase p).values.flatMap Process.claims).count o +
      (((s.process? p).bind (·.memoryChangeEvent)).toList ++ loose).count o ≤
        s.claims.count o + loose.count o := by
    cases hp : s.process? p with
    | none => exact Nat.add_le_add_right ((s.claims_erase_sublist p).count_le o) _
    | some process =>
      have herase := count_claims_erase hp o
      rw [Process.count_claims] at herase
      rw [Option.bind_some, List.count_append]
      omega
  have hold (q : ProcessId) (other : Process) (hq : (s.processes.erase p).get? q = some other) :
      s.process? q = some other := (Table.of_get?_erase hq).2
  exact ⟨fun o object ho hclass => (hsum o).trans (h.cover o object ho hclass),
    fun o hpos => h.claimBelow o (Nat.lt_of_lt_of_le hpos (hsum o)), h.objectBelow,
    fun q other hq => h.ownBelow q other (hold q other hq),
    fun q other object hq => h.own q other object (hold q other hq),
    fun q other e hq => h.event q other e (hold q other hq),
    fun q r other third e hq hr => h.ownEvent q r other third e (hold q other hq) (hold r third hr)⟩

/-- Nobody refers to an object that is still to come. -/
theorem Covered.count_next (h : s.Covered loose) :
    s.claims.count ⟨s.nextObject⟩ + loose.count ⟨s.nextObject⟩ = 0 :=
  Nat.eq_zero_of_not_pos fun hpos => Nat.lt_irrefl _ (h.claimBelow _ hpos)

theorem Covered.ne_next (h : s.Covered loose) (ho : s.object? o = some object) :
    o ≠ ⟨s.nextObject⟩ := by
  rintro rfl
  exact Nat.lt_irrefl _ (h.objectBelow _ object ho)

/-- The reference to a new object is loose. -/
theorem Covered.allocate (h : s.Covered loose) (body : ObjectBody) :
    (s.allocate body).2.Covered ((s.allocate body).1 :: loose) := by
  have hnone := h.count_next
  have hcount (o : ObjectId) : (s.allocate body).2.claims.count o = s.claims.count o := rfl
  refine ⟨fun o object ho _ => ?_, fun o hpos => ?_, fun o object ho => ?_, fun q other hq => ?_,
    fun q other object hq ho => ?_, fun q other e hq he => ?_, h.ownEvent⟩
  · rw [hcount]
    by_cases hnew : o = (s.allocate body).1
    · subst hnew
      cases (object?_allocate s body).symm.trans ho
      rw [List.count_cons_self]
      exact Nat.le_of_eq (by rw [← Nat.add_assoc]; exact congrArg (· + 1) hnone)
    · rw [object?_allocate_ne body hnew] at ho
      rw [List.count_cons_of_ne (Ne.symm hnew)]
      exact h.cover o object ho ‹_›
  · rw [hcount] at hpos
    by_cases hnew : o = (s.allocate body).1
    · rw [hnew]
      exact Nat.lt_succ_self _
    · rw [List.count_cons_of_ne (Ne.symm hnew)] at hpos
      exact Nat.lt_succ_of_lt (h.claimBelow o hpos)
  · obtain ⟨rfl, -⟩ | hold := object?_of_allocate ho
    · exact Nat.lt_succ_self _
    · exact Nat.lt_succ_of_lt (h.objectBelow o object hold)
  · exact Nat.lt_succ_of_lt (h.ownBelow q other hq)
  · rw [object?_allocate_ne body] at ho
    · exact h.own q other object hq ho
    · intro hsame
      exact Nat.ne_of_lt (h.ownBelow q other hq) (congrArg ObjectId.val hsame)
  · obtain ⟨object, ho, hclass⟩ := h.event q other e hq he
    exact ⟨object, (object?_allocate_ne body (h.ne_next ho)).trans ho, hclass⟩

/-- A new record refers to its own object only. -/
theorem count_claims_createProcess (s : State) (name : String) (titleId : UInt64) (o : ObjectId) :
    (s.createProcess name titleId).2.claims.count o ≤
      [(⟨s.nextObject⟩ : ObjectId)].count o + s.claims.count o := by
  let process : Process :=
    ⟨name, titleId, ⟨s.nextObject⟩, .none, .empty, .empty, none, false, false⟩
  have hclaims : (s.createProcess name titleId).2.claims.Perm
      (process.claims ++ (s.processes.erase ⟨s.nextProcess⟩).values.flatMap Process.claims) :=
    (s.processes.values_insert_perm ⟨s.nextProcess⟩ process).flatMap_right _
  rw [hclaims.count_eq, List.count_append]
  exact Nat.add_le_add_left ((s.claims_erase_sublist _).count_le o) _

theorem Covered.createProcess (h : s.Covered loose) (name : String) (titleId : UInt64) :
    (s.createProcess name titleId).2.Covered loose := by
  have hclaims := count_claims_createProcess s name titleId
  have hnew : (s.createProcess name titleId).2.object? ⟨s.nextObject⟩ =
      some ⟨.process ⟨s.nextProcess⟩, 1⟩ := Table.get?_insert_self ..
  have hother (o : ObjectId) (ho : o ≠ ⟨s.nextObject⟩) :
      (s.createProcess name titleId).2.claims.count o ≤ s.claims.count o := by
    have hcount := hclaims o
    rwa [List.count_singleton, if_neg (by simpa using Ne.symm ho), Nat.zero_add] at hcount
  refine ⟨fun o object ho hclass => ?_, fun o hpos => ?_, fun o object ho => ?_, fun q other hq => ?_,
    fun q other object hq ho => ?_, fun q other e hq he => ?_, fun q r other third e hq hr he he' => ?_⟩
  · obtain ⟨-, rfl⟩ | hold := object?_of_createProcess name titleId ho
    · cases hclass
    · exact (Nat.add_le_add_right (hother o (h.ne_next hold)) _).trans (h.cover o object hold hclass)
  · by_cases ho : o = ⟨s.nextObject⟩
    · rw [ho]
      exact Nat.lt_succ_self _
    · refine Nat.lt_succ_of_lt (h.claimBelow o (Nat.lt_of_lt_of_le hpos ?_))
      exact Nat.add_le_add_right (hother o ho) _
  · obtain ⟨rfl, -⟩ | hold := object?_of_createProcess name titleId ho
    · exact Nat.lt_succ_self _
    · exact Nat.lt_succ_of_lt (h.objectBelow o object hold)
  · obtain ⟨-, rfl⟩ | hold := process?_of_createProcess name titleId hq
    · exact Nat.lt_succ_self _
    · exact Nat.lt_succ_of_lt (h.ownBelow q other hold)
  · obtain ⟨-, rfl⟩ | hold := process?_of_createProcess name titleId hq
    · cases hnew.symm.trans ho
      rfl
    · obtain ⟨hsame, -⟩ | hobject := object?_of_createProcess name titleId ho
      · exact absurd (congrArg ObjectId.val hsame).symm (Nat.ne_of_lt (h.ownBelow q other hold))
      · exact h.own q other object hold hobject
  · obtain ⟨-, rfl⟩ | hold := process?_of_createProcess name titleId hq
    · cases he
    · obtain ⟨object, ho, hclass⟩ := h.event q other e hold he
      exact ⟨object, (object?_createProcess_ne name titleId (h.ne_next ho)).trans ho, hclass⟩
  · obtain ⟨-, rfl⟩ | hold := process?_of_createProcess name titleId hq
    · cases he
    · obtain ⟨-, rfl⟩ | hold' := process?_of_createProcess name titleId hr
      · cases he'
      · exact h.ownEvent q r other third e hold hold' he he'

/-- A new event is taken up by the record it is made for. -/
theorem Covered.enroll (h : s.Covered loose) (hp : s.process? p = some process)
    (hnone : process.memoryChangeEvent = none) :
    ((s.allocate (.event false true)).2.announce p (s.allocate (.event false true)).1).Covered
      loose := by
  have hmade := h.allocate (.event false true)
  have hfree : (s.allocate (.event false true)).1 ∉ (s.allocate (.event false true)).2.claims := by
    have hcount := h.count_next
    exact List.count_eq_zero.mp (Nat.le_zero.mp (hcount ▸ Nat.le_add_right _ _))
  refine hmade.modifyProcess hp rfl (fun e he => .inr ?_) fun o => ?_
  · cases he
    exact ⟨⟨_, object?_allocate s _, rfl⟩, hfree⟩
  · simp only [Process.count_claims, hnone, Option.toList_none, Option.toList_some, List.count_cons,
      List.count_nil]
    omega

/-- The object of a process may be released, whoever took the reference. -/
theorem Covered.borrow (h : s.Covered loose) (hp : s.process? p = some process) :
    s.Covered (process.object :: loose) := by
  refine ⟨fun o object ho hclass => ?_, fun o hpos => ?_, h.objectBelow, h.ownBelow, h.own, h.event,
    h.ownEvent⟩
  · have hne : process.object ≠ o := by
      rintro rfl
      cases (h.own p process object hp ho).symm.trans hclass
    rw [List.count_cons_of_ne hne]
    exact h.cover o object ho hclass
  · by_cases ho : process.object = o
    · rw [← ho]
      exact h.ownBelow p process hp
    · rw [List.count_cons_of_ne ho] at hpos
      exact h.claimBelow o hpos

theorem Covered.take (h : s.Covered loose) (ho : s.object? o = some object)
    (hroom : object.body.classOf = .event → s.Room o) : (s.addReference o).Covered (o :: loose) := by
  refine h.modifyObject ho rfl (fun hclass => ?_) fun q hq => ?_
  · have hcover := h.cover o object ho hclass
    rw [List.count_cons_self, Object.references_taken (hroom hclass object ho)]
    exact Nat.succ_le_succ hcover
  · rw [List.count_cons_of_ne (Ne.symm hq)]

/-- Every transfer keeps references covered, if there is room for those that are taken. -/
theorem Covered.transfer {a b : List ObjectId × State} (h : a.2.Covered a.1)
    (ht : Transfer True a b) : b.2.Covered b.1 := by
  cases ht with
  | frame loose hbooks => exact h.frame hbooks
  | amend hp hf hcount => exact h.amend hp hf.object hf.event hcount
  | take loose ho hroom => exact h.take ho (hroom trivial)
  | borrow loose hp => exact h.borrow hp
  | forget loose s o => exact h.less fun q => List.count_le_count_cons
  | drop loose s o => exact h.dropReference
  | eraseProcess loose s p => exact h.eraseProcess p
  | createProcess loose s name titleId => exact h.createProcess name titleId
  | allocate loose s hbody => exact h.allocate _
  | enroll loose hp hnone => exact h.enroll hp hnone

theorem Covered.setSignaled (h : s.Covered loose) (o : ObjectId) (signaled : Bool) :
    (s.modifyObject o (setSignaled signaled)).Covered loose := by
  cases ho : s.object? o with
  | none =>
    rwa [State.modifyObject, Table.modify_of_get?_eq_none ho]
  | some object =>
    refine h.modifyObject ho (classOf_setSignaled signaled object) (fun hclass => ?_)
      fun _ _ => Nat.le_refl _
    rw [references_setSignaled]
    exact h.cover o object ho hclass

theorem Covered.repage (h : s.Covered loose) (p : ProcessId) (pages : Table UInt32 Page) :
    (s.repage p pages).Covered loose := by
  have hpages : (s.modifyProcess p ({ · with pages := pages })).Covered loose := by
    cases hp : s.process? p with
    | none => rwa [State.modifyProcess, Table.modify_of_get?_eq_none hp]
    | some process => exact h.amend hp rfl rfl fun _ => Nat.le_refl _
  rw [State.repage, notifyLayoutChange]
  split
  · exact hpages
  · split
    · exact hpages
    · split
      · exact hpages.setSignaled _ true
      · exact hpages

theorem Covered.forceRwx (h : s.Covered loose) (p : ProcessId) : (s.forceRwx p).Covered loose := by
  cases hp : s.process? p with
  | none => rwa [State.forceRwx, State.modifyProcess, Table.modify_of_get?_eq_none hp]
  | some process => exact h.amend hp rfl rfl fun _ => Nat.le_refl _

/-- No operation uncovers a reference, if there is room for more references to events, but for those
that drop the references of objects by hand. -/
theorem Covered.run (h : s.Covered []) (hroom : s.RoomyEvents) {op : Operation}
    (hretain : ∀ o, op ≠ .retain o) (hrelease : ∀ o, op ≠ .release o) : (op.run s).2.Covered [] := by
  have hkeep (a b : List ObjectId × State) (hstep : Transfer True a b) (h : a.2.Covered a.1) :
      b.2.Covered b.1 := h.transfer hstep
  cases hpage : op.page with
  | some page =>
    obtain ⟨-, hsame⟩ | ⟨-, pages, hrepage⟩ := run_of_page s hpage
    · rwa [hsame]
    · rw [hrepage]
      exact h.repage page.1 pages
  | none =>
    cases hforcing : op.forcing with
    | some asked =>
      exact forcing_keeps (P := fun b => b.2.Covered b.1) hkeep (fun s q h => h.forceRwx q) hforcing h
    | none =>
      obtain hplain | ⟨p, handle, rfl⟩ | ⟨o, rfl⟩ | ⟨o, rfl⟩ := Operation.isPlain_or hpage hforcing
      · exact (transfers_run [] s (fun _ => hroom) hplain).keeps (P := fun b => b.2.Covered b.1) hkeep h
      · obtain hsame | ⟨o, -, hcleared⟩ := clearEvent_cases s p handle
        · rwa [hsame]
        · rw [hcleared]
          exact h.setSignaled o false
      · exact absurd rfl (hretain o)
      · exact absurd rfl (hrelease o)

theorem covered_boot (cores : Nat) : (boot cores).Covered [] := by
  constructor <;> intros <;> contradiction

end

/-- A run before each operation of which there is room for more references to every event. -/
def RoomyEventsRun (cores : Nat) (ops : List Operation) : Prop :=
  ∀ done op, done ++ [op] <+: ops → ((boot cores).runAll done).RoomyEvents

section
variable {cores : Nat} {ops : List Operation} {op : Operation}

theorem RoomyRun.events (h : RoomyRun cores ops) : RoomyEventsRun cores ops :=
  fun done op hstep => (h done op hstep).events

theorem RoomyEventsRun.of_prefix {done : List Operation} (h : RoomyEventsRun cores ops)
    (hdone : done <+: ops) : RoomyEventsRun cores done :=
  fun earlier op hearlier => h earlier op (hearlier.trans hdone)

theorem RoomyEventsRun.last (h : RoomyEventsRun cores (ops ++ [op])) :
    ((boot cores).runAll ops).RoomyEvents := h ops op (List.prefix_refl _)

theorem RoomyEventsRun.init (h : RoomyEventsRun cores (ops ++ [op])) : RoomyEventsRun cores ops :=
  h.of_prefix (List.prefix_append ops [op])

/-- In a run that drops no references by hand, and in which no count of an event wraps around, every
reference to an event is covered. -/
theorem covered_runAll (hroom : RoomyEventsRun cores ops) (hretain : ∀ o, .retain o ∉ ops)
    (hrelease : ∀ o, .release o ∉ ops) : ((boot cores).runAll ops).Covered [] := by
  induction ops using List.reverseRecOn with
  | nil => exact covered_boot cores
  | append_singleton ops op ih =>
    simp only [List.mem_append, List.mem_singleton, not_or] at hretain hrelease
    rw [runAll_concat]
    exact (ih hroom.init (fun o => (hretain o).1) fun o => (hrelease o).1).run hroom.last
      (fun o => Ne.symm (hretain o).2) fun o => Ne.symm (hrelease o).2

end
end PluginSlot.Kernel.State
