import PluginSlot.Kernel.Operation

/-!
Who holds the references of each object. A process record holds one for each of its handles, one
for its memory-change event, and one for itself until it is reaped; whatever else is counted is
loose. Releasing a loose reference can end a record, and sets the references of its handles loose.
-/
namespace PluginSlot.Kernel

namespace HandleTable

/-- Every handle was given out before the next one. -/
def Numbered (t : HandleTable) : Prop := ∀ h o, t.slots.get? h = some o → h.val.toNat < t.next.toNat

theorem numbered_empty : Numbered .empty := fun h o he => by cases he

variable {t u : HandleTable} {h : Handle} {o : ObjectId}

theorem Numbered.insert (ht : t.Numbered) (hi : t.insert o = some (h, u)) : u.Numbered := by
  intro j q hj
  have hnext := toNat_next_insert hi
  obtain ⟨-, rfl, -⟩ := insert_eq_some_iff.mp hi
  rw [slots_insert hi] at hj
  split at hj
  case isTrue he =>
    rw [← he, hnext]
    exact Nat.lt_succ_self _
  case isFalse =>
    have hlt := ht j q hj
    omega

theorem Numbered.remove (ht : t.Numbered) (h : Handle) : (t.remove h).2.Numbered := by
  intro j q hj
  rw [slots_remove] at hj
  split at hj
  case isTrue => cases hj
  case isFalse => exact ht j q hj

theorem isEmpty_iff : t.isEmpty = true ↔ ∀ h, t.slots.get? h = none := by
  obtain ⟨⟨entries, hsorted⟩, next⟩ := t
  cases entries with
  | nil => simp [isEmpty, Table.isEmpty, Table.get?, Table.find]
  | cons e rest =>
    constructor
    · intro hempty
      cases hempty
    · intro hnone
      have hfirst := hnone e.1
      simp [Table.get?, Table.find] at hfirst

theorem Numbered.get?_next (ht : t.Numbered) : t.slots.get? ⟨t.next⟩ = none := by
  cases hg : t.slots.get? ⟨t.next⟩ with
  | none => rfl
  | some q => exact absurd (ht _ q hg) (Nat.lt_irrefl _)

theorem Numbered.values_insert (ht : t.Numbered) (hi : t.insert o = some (h, u)) :
    u.slots.values.Perm (o :: t.slots.values) := by
  obtain ⟨-, -, rfl⟩ := insert_eq_some_iff.mp hi
  exact Table.values_perm_cons (t.slots.entries_insert_perm ht.get?_next o)

theorem values_remove (hg : t.slots.get? h = some o) :
    t.slots.values.Perm (o :: (t.remove h).2.slots.values) :=
  Table.values_perm_cons (t.slots.entries_erase_perm hg)

end HandleTable

/-- The objects that a process record holds a reference to, each as often as it does. -/
def Process.claims (p : Process) : List ObjectId :=
  p.handles.slots.values ++ p.memoryChangeEvent.toList ++ if p.reaped then [] else [p.object]

namespace State

def claims (s : State) : List ObjectId := s.processes.values.flatMap Process.claims

/-- An object that does not exist has no references. -/
def referencesOf (s : State) (o : ObjectId) : Nat := (s.object? o).elim 0 (·.references)

theorem referencesOf_eq {s : State} {o : ObjectId} {object : Object} (h : s.object? o = some object) :
    s.referencesOf o = object.references := by
  simp [referencesOf, h]

/-- One more reference to the object can be counted. -/
def Room (s : State) (o : ObjectId) : Prop :=
  ∀ object, s.object? o = some object → object.references + 1 < UInt32.size

/-- A reference to the object can be taken and given back: its count is neither zero nor as high as it
can be. -/
def Lendable (s : State) (o : ObjectId) : Prop :=
  ∀ object, s.object? o = some object →
    0 < object.references ∧ object.references + 1 < UInt32.size

/-- No object is referred to as often as can be counted. -/
def Roomy (s : State) : Prop := ∀ o, s.Room o

/-- No event is referred to as often as can be counted. -/
def RoomyEvents (s : State) : Prop :=
  ∀ o object, s.object? o = some object → object.body.classOf = .event → s.Room o

/-- Records and objects fit together. -/
structure Filed (s : State) : Prop where
  backed : ∀ p process, s.process? p = some process →
    ∃ object, s.object? process.object = some object ∧ object.body = .process p
  backing : ∀ o object p, s.object? o = some object → object.body = .process p →
    ∃ process, s.process? p = some process ∧ process.object = o
  event : ∀ p process e, s.process? p = some process → process.memoryChangeEvent = some e →
    ∃ object, s.object? e = some object ∧ object.body.classOf = .event
  ownEvent : ∀ p q process other e, s.process? p = some process → s.process? q = some other →
    process.memoryChangeEvent = some e → other.memoryChangeEvent = some e → p = q
  numbered : ∀ p process, s.process? p = some process → process.handles.Numbered
  objectBelow : ∀ o object, s.object? o = some object → o.val < s.nextObject
  processBelow : ∀ p process, s.process? p = some process → p.val < s.nextProcess

/-- Every reference is held by a record or loose. -/
structure Accounted (loose : List ObjectId) (s : State) : Prop extends Filed s where
  balance : ∀ o, s.referencesOf o = s.claims.count o + loose.count o

/-- Every object is referred to. -/
def Referred (s : State) : Prop := ∀ o object, s.object? o = some object → 0 < object.references

/-- Every reference is accounted for, and every object has one. -/
structure Audited (loose : List ObjectId) (s : State) : Prop extends Accounted loose s where
  referred : s.Referred

/-- What handles and references are about; the scheduler has no part in it. -/
structure Books where
  processes : Table ProcessId Process
  objects : Table ObjectId Object
  nextProcess : Nat
  nextObject : Nat

def books (s : State) : Books := ⟨s.processes, s.objects, s.nextProcess, s.nextObject⟩

section
variable {s s' : State} {p : ProcessId} {o : ObjectId} {process : Process} {object : Object}
variable {loose loose' : List ObjectId}

theorem Accounted.frame (h : s.Accounted loose) (hb : s'.books = s.books) : s'.Accounted loose := by
  have hprocesses : s'.processes = s.processes := congrArg Books.processes hb
  have hobjects : s'.objects = s.objects := congrArg Books.objects hb
  have hnextProcess : s'.nextProcess = s.nextProcess := congrArg Books.nextProcess hb
  have hnextObject : s'.nextObject = s.nextObject := congrArg Books.nextObject hb
  have hp (p : ProcessId) : s'.process? p = s.process? p := by rw [process?, process?, hprocesses]
  have ho (o : ObjectId) : s'.object? o = s.object? o := by rw [object?, object?, hobjects]
  have hclaims : s'.claims = s.claims := by rw [claims, claims, hprocesses]
  constructor
  · constructor <;> simp only [hp, ho, hnextProcess, hnextObject]
    · exact h.backed
    · exact h.backing
    · exact h.event
    · exact h.ownEvent
    · exact h.numbered
    · exact h.objectBelow
    · exact h.processBelow
  · simp only [referencesOf, ho, hclaims]
    exact h.balance

theorem Referred.of_objects (h : s.Referred) (ho : s'.objects = s.objects) : s'.Referred := by
  intro o object hobject
  rw [object?, ho] at hobject
  exact h o object hobject

theorem Audited.frame (h : s.Audited loose) (hb : s'.books = s.books) : s'.Audited loose :=
  ⟨h.toAccounted.frame hb, h.referred.of_objects (congrArg Books.objects hb)⟩

theorem Accounted.reorder (h : s.Accounted loose) (hc : ∀ o, loose'.count o = loose.count o) :
    s.Accounted loose' :=
  { h with balance := fun o => by rw [h.balance, hc] }

theorem Accounted.referencesOf_pos (h : s.Accounted loose) (ho : o ∈ s.claims ∨ o ∈ loose) :
    0 < s.referencesOf o := by
  rw [h.balance]
  rcases ho with hm | hm
  · exact Nat.add_pos_left (List.count_pos_iff.mpr hm) _
  · exact Nat.add_pos_right _ (List.count_pos_iff.mpr hm)

/-- What a record holds exists. -/
theorem Accounted.exists_of_mem (h : s.Accounted loose) (ho : o ∈ s.claims ∨ o ∈ loose) :
    ∃ object, s.object? o = some object := by
  have hpos := h.referencesOf_pos ho
  cases hobj : s.object? o with
  | some object => exact ⟨object, rfl⟩
  | none =>
    rw [referencesOf, hobj] at hpos
    exact absurd hpos (Nat.lt_irrefl 0)

theorem mem_claims (hp : s.process? p = some process) (ho : o ∈ process.claims) : o ∈ s.claims := by
  have hm : process ∈ s.processes.values :=
    List.mem_map.mpr ⟨(p, process), (Table.get?_eq_some_iff _ p process).mp hp, rfl⟩
  exact List.mem_flatMap.mpr ⟨process, hm, ho⟩

/-- What is claimed is claimed by a record: by a handle, as its memory-change event, or as its own object
while it is not reaped. -/
theorem exists_of_mem_claims (ho : o ∈ s.claims) :
    ∃ p process, s.process? p = some process ∧ (o ∈ process.handles.slots.values ∨
      process.memoryChangeEvent = some o ∨ process.reaped = false ∧ process.object = o) := by
  obtain ⟨process, hmem, hclaim⟩ := List.mem_flatMap.mp ho
  obtain ⟨⟨p, process⟩, hentry, rfl⟩ := List.mem_map.mp hmem
  refine ⟨p, process, (Table.get?_eq_some_iff _ p process).mpr hentry, ?_⟩
  simp only [Process.claims, List.mem_append, Option.mem_toList] at hclaim
  rcases hclaim with (hhandle | hevent) | hown
  · exact .inl hhandle
  · exact .inr (.inl hevent)
  · split at hown
    · cases hown
    next hlive => exact .inr (.inr ⟨Bool.eq_false_iff.mpr hlive, (List.mem_singleton.mp hown).symm⟩)

theorem count_claims_erase (hp : s.process? p = some process) (o : ObjectId) :
    s.claims.count o = process.claims.count o +
      ((s.processes.erase p).values.flatMap Process.claims).count o :=
  Table.count_flatMap_values (s.processes.entries_erase_perm hp) _ o

theorem count_claims_modifyProcess (hp : s.process? p = some process) (f : Process → Process)
    (o : ObjectId) :
    (s.modifyProcess p f).claims.count o + process.claims.count o =
      s.claims.count o + (f process).claims.count o := by
  have hafter : (s.modifyProcess p f).claims.count o = (f process).claims.count o +
      ((s.processes.erase p).values.flatMap Process.claims).count o :=
    Table.count_flatMap_values (s.processes.entries_modify_perm hp f) _ o
  have hbefore := count_claims_erase hp o
  omega

/-- A change of one record, which may set references loose or take loose ones up. -/
theorem Accounted.modifyProcess (h : s.Accounted loose) (hp : s.process? p = some process)
    {f : Process → Process} (hobject : (f process).object = process.object)
    (hnumbered : (f process).handles.Numbered)
    (hevent : ∀ e, (f process).memoryChangeEvent = some e → process.memoryChangeEvent = some e ∨
      (∃ object, s.object? e = some object ∧ object.body.classOf = .event) ∧ e ∉ s.claims)
    (hclaims : ∀ o, (f process).claims.count o + loose'.count o =
      process.claims.count o + loose.count o) :
    (s.modifyProcess p f).Accounted loose' := by
  have hself : (s.modifyProcess p f).process? p = some (f process) := by simp [hp]
  -- the event of another record is claimed, so it cannot be new
  have hclaimed (q : ProcessId) (other : Process) (e : ObjectId) (hq : s.process? q = some other)
      (he : other.memoryChangeEvent = some e) : e ∈ s.claims :=
    mem_claims hq (by simp [Process.claims, he])
  constructor
  · constructor
    · intro q other hq
      rcases process?_of_modifyProcess hp hq with ⟨rfl, rfl⟩ | ⟨-, hq⟩
      · rw [hobject]
        exact h.backed q process hp
      · exact h.backed q other hq
    · intro o object q ho hbody
      obtain ⟨other, hq, rfl⟩ := h.backing o object q ho hbody
      by_cases he : p = q
      · subst he
        cases hp.symm.trans hq
        exact ⟨f process, hself, hobject⟩
      · exact ⟨other, by rwa [process?_modifyProcess_ne s he], rfl⟩
    · intro q other e hq he
      rcases process?_of_modifyProcess hp hq with ⟨rfl, rfl⟩ | ⟨-, hq⟩
      · rcases hevent e he with hold | ⟨hnew, -⟩
        · exact h.event q process e hp hold
        · exact hnew
      · exact h.event q other e hq he
    · intro q r other third e hq hr he he'
      rcases process?_of_modifyProcess hp hq with ⟨rfl, rfl⟩ | ⟨-, hqs⟩
      · rcases process?_of_modifyProcess hp hr with ⟨rfl, rfl⟩ | ⟨-, hrs⟩
        · rfl
        · rcases hevent e he with hold | ⟨-, hnew⟩
          · exact h.ownEvent _ _ _ _ e hp hrs hold he'
          · exact absurd (hclaimed r third e hrs he') hnew
      · rcases process?_of_modifyProcess hp hr with ⟨rfl, rfl⟩ | ⟨-, hrs⟩
        · rcases hevent e he' with hold | ⟨-, hnew⟩
          · exact h.ownEvent _ _ _ _ e hqs hp he hold
          · exact absurd (hclaimed q other e hqs he) hnew
        · exact h.ownEvent _ _ _ _ e hqs hrs he he'
    · intro q other hq
      rcases process?_of_modifyProcess hp hq with ⟨rfl, rfl⟩ | ⟨-, hq⟩
      · exact hnumbered
      · exact h.numbered q other hq
    · exact h.objectBelow
    · intro q other hq
      rcases process?_of_modifyProcess hp hq with ⟨rfl, rfl⟩ | ⟨-, hq⟩
      · exact h.processBelow q process hp
      · exact h.processBelow q other hq
  · intro o
    have hb : (s.modifyProcess p f).referencesOf o = s.claims.count o + loose.count o := h.balance o
    have hc := count_claims_modifyProcess hp f o
    have hl := hclaims o
    omega

/-- A change of a record that touches none of its references. -/
theorem Accounted.modifyProcess_same (h : s.Accounted loose) (hp : s.process? p = some process)
    {f : Process → Process} (hobject : (f process).object = process.object)
    (hhandles : (f process).handles = process.handles)
    (hevent : (f process).memoryChangeEvent = process.memoryChangeEvent)
    (hreaped : (f process).reaped = process.reaped) : (s.modifyProcess p f).Accounted loose := by
  apply h.modifyProcess hp hobject
  · rw [hhandles]
    exact h.numbered p process hp
  · intro e he
    exact .inl (hevent ▸ he)
  · simp [Process.claims, hobject, hhandles, hevent, hreaped]

/-- A change of one object, which may take up a loose reference or set one loose. -/
theorem Accounted.modifyObject (h : s.Accounted loose) (ho : s.object? o = some object)
    {f : Object → Object} (hbody : ∀ p, (f object).body = .process p ↔ object.body = .process p)
    (hclass : (f object).body.classOf = object.body.classOf)
    (hself : (f object).references + loose.count o = object.references + loose'.count o)
    (hother : ∀ q, q ≠ o → loose'.count q = loose.count q) :
    (s.modifyObject o f).Accounted loose' := by
  have hnow : (s.modifyObject o f).object? o = some (f object) := by simp [ho]
  have hkeep (q : ObjectId) (other : Object) (hq : s.object? q = some other) :
      ∃ now, (s.modifyObject o f).object? q = some now ∧
        (∀ p, now.body = .process p ↔ other.body = .process p) ∧
        now.body.classOf = other.body.classOf := by
    by_cases he : o = q
    · subst he
      cases ho.symm.trans hq
      exact ⟨f object, hnow, hbody, hclass⟩
    · exact ⟨other, by rwa [object?_modifyObject_ne s he], fun _ => Iff.rfl, rfl⟩
  constructor
  · constructor
    · intro p process hp
      obtain ⟨other, hq, hother⟩ := h.backed p process hp
      obtain ⟨now, hn, hb, -⟩ := hkeep _ other hq
      exact ⟨now, hn, (hb p).mpr hother⟩
    · intro q other p hq hp
      rcases object?_of_modifyObject ho hq with ⟨rfl, rfl⟩ | ⟨-, hq⟩
      · exact h.backing q object p ho ((hbody p).mp hp)
      · exact h.backing q other p hq hp
    · intro p process e hp he
      obtain ⟨other, hq, hother⟩ := h.event p process e hp he
      obtain ⟨now, hn, -, hc⟩ := hkeep _ other hq
      exact ⟨now, hn, hc.trans hother⟩
    · exact h.ownEvent
    · exact h.numbered
    · intro q other hq
      rcases object?_of_modifyObject ho hq with ⟨rfl, rfl⟩ | ⟨-, hq⟩
      · exact h.objectBelow q object ho
      · exact h.objectBelow q other hq
    · exact h.processBelow
  · intro q
    have hb := h.balance q
    show (s.modifyObject o f).referencesOf q = s.claims.count q + loose'.count q
    by_cases he : q = o
    · subst he
      rw [referencesOf_eq ho] at hb
      rw [referencesOf_eq hnow]
      omega
    · rw [hother q he, referencesOf, object?_modifyObject_ne s (Ne.symm he)]
      exact hb

theorem Referred.modifyObject (h : s.Referred) {f : Object → Object}
    (hf : ∀ object, s.object? o = some object → 0 < (f object).references) :
    (s.modifyObject o f).Referred := by
  intro q now hq
  obtain ⟨old, hold, ⟨rfl, rfl⟩ | ⟨-, rfl⟩⟩ := exists_of_modifyObject hq
  · exact hf old hold
  · exact h q now hold

theorem object?_addReference_self (ho : s.object? o = some object) :
    (s.addReference o).object? o = some object.taken := by
  simp [State.addReference, ho]

theorem object?_addReference_ne (s : State) {o q : ObjectId} (h : q ≠ o) :
    (s.addReference o).object? q = s.object? q := object?_modifyObject_ne s (Ne.symm h) _

theorem Roomy.events (h : s.Roomy) : s.RoomyEvents := fun o _ _ _ => h o

theorem room_of_object (ho : s.object? o = some object)
    (hroom : object.references + 1 < UInt32.size) : s.Room o := by
  intro other hother
  cases ho.symm.trans hother
  exact hroom

theorem Lendable.room (h : s.Lendable o) : s.Room o := fun object ho => (h object ho).2

theorem Room.congr (h : s.Room o) (ho : s'.object? o = s.object? o) : s'.Room o :=
  fun object hobject => h object (ho.symm.trans hobject)

theorem RoomyEvents.of_objects (h : s.RoomyEvents) (ho : s'.objects = s.objects) :
    s'.RoomyEvents := by
  have hsame (o : ObjectId) : s'.object? o = s.object? o := by rw [object?, object?, ho]
  intro o object hobject hclass
  exact (h o object ((hsame o).symm.trans hobject) hclass).congr (hsame o)

/-- A reference to what is no event leaves the events as they are. -/
theorem RoomyEvents.addReference (h : s.RoomyEvents) (ho : s.object? o = some object)
    (hclass : object.body.classOf ≠ .event) : (s.addReference o).RoomyEvents := by
  intro q other hq hevent
  by_cases he : q = o
  · subst he
    cases (object?_addReference_self ho).symm.trans hq
    exact absurd hevent hclass
  · have hsame := object?_addReference_ne s he
    exact (h q other (hsame.symm.trans hq) hevent).congr hsame

theorem object?_allocate_ne (body : ObjectBody) (ho : o ≠ ⟨s.nextObject⟩) :
    (s.allocate body).2.object? o = s.object? o := Table.get?_insert_ne _ (Ne.symm ho) _

/-- A new object has one reference. -/
theorem RoomyEvents.allocate (h : s.RoomyEvents) (body : ObjectBody) :
    (s.allocate body).2.RoomyEvents := by
  intro q other hq hevent
  by_cases he : q = (s.allocate body).1
  · subst he
    exact room_of_object (object?_allocate s body) (by decide : 1 + 1 < UInt32.size)
  · have hsame := object?_allocate_ne body he
    exact (h q other (hsame.symm.trans hq) hevent).congr hsame

theorem RoomyEvents.memoryChangeEvent (h : s.RoomyEvents) (p : ProcessId) :
    (s.memoryChangeEvent p).2.RoomyEvents := by
  rw [State.memoryChangeEvent]
  split
  · exact h
  · split
    · exact h
    · exact (h.allocate _).of_objects rfl

theorem Accounted.addReference (h : s.Accounted loose) (ho : s.object? o = some object)
    (hroom : s.Room o) : (s.addReference o).Accounted (o :: loose) := by
  have htaken := Object.references_taken (hroom object ho)
  apply h.modifyObject ho
  · exact fun _ => Iff.rfl
  · rfl
  · rw [List.count_cons_self, htaken]
    omega
  · intro q hq
    rw [List.count_cons_of_ne (Ne.symm hq)]

theorem Referred.addReference (h : s.Referred) (hroom : s.Room o) : (s.addReference o).Referred :=
  h.modifyObject fun object ho => by
    rw [Object.references_taken (hroom object ho)]
    exact Nat.succ_pos _

theorem Audited.addReference (h : s.Audited loose) (ho : s.object? o = some object)
    (hroom : s.Room o) : (s.addReference o).Audited (o :: loose) :=
  ⟨h.toAccounted.addReference ho hroom, h.referred.addReference hroom⟩

theorem release_of_shared (ho : s.object? o = some object) (hmore : 1 < object.references) :
    s.release o = s.modifyObject o Object.dropped := by
  rw [release, dropReference_of_shared ho hmore]

/-- A reference that was taken is dropped again. -/
theorem addReference_dropped (hroom : s.Room o) :
    (s.addReference o).objects.modify o Object.dropped = s.objects :=
  (Table.modify_modify ..).trans
    (Table.modify_of_fixed fun object ho => Object.dropped_taken (hroom object ho))

theorem addReference_release (ho : s.object? o = some object) (hpos : 0 < object.references)
    (hroom : s.Room o) : (s.addReference o).release o = s := by
  have hmore := object?_addReference_self ho
  have hshared : 1 < object.taken.references := by
    rw [Object.references_taken (hroom object ho)]
    omega
  rw [release_of_shared hmore hshared, modifyObject, addReference_dropped hroom]
  rfl

end
end State
end PluginSlot.Kernel
