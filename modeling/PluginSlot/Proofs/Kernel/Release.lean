import PluginSlot.Proofs.Kernel.Accounts

/-!
Objects come and go. The last reference to an object ends it, and the last one to a process ends
its record too, which leaves the references of its handles loose.
-/
namespace PluginSlot.Kernel.State

section
variable {s s' : State} {p : ProcessId} {o : ObjectId} {process : Process} {object : Object}
variable {loose : List ObjectId}

/-- Nothing is lost, and what is new fits in. -/
theorem Filed.grow (h : s.Filed)
    (hkeepProcess : ∀ q other, s.process? q = some other → s'.process? q = some other)
    (hkeepObject : ∀ q other, s.object? q = some other → s'.object? q = some other)
    (hprocess : ∀ q other, s'.process? q = some other → s.process? q = some other ∨
      (∃ object, s'.object? other.object = some object ∧ object.body = .process q) ∧
        other.memoryChangeEvent = none ∧ other.handles.Numbered ∧ q.val < s'.nextProcess)
    (hobject : ∀ q other, s'.object? q = some other → s.object? q = some other ∨
      q.val < s'.nextObject ∧ ∀ r, other.body = .process r →
        ∃ process, s'.process? r = some process ∧ process.object = q)
    (hnextProcess : s.nextProcess ≤ s'.nextProcess) (hnextObject : s.nextObject ≤ s'.nextObject) :
    s'.Filed := by
  constructor
  · intro q other hq
    rcases hprocess q other hq with hold | ⟨hnew, -⟩
    · obtain ⟨object, ho, hbody⟩ := h.backed q other hold
      exact ⟨object, hkeepObject _ object ho, hbody⟩
    · exact hnew
  · intro q other r hq hr
    rcases hobject q other hq with hold | ⟨-, hnew⟩
    · obtain ⟨process, hp, hsame⟩ := h.backing q other r hold hr
      exact ⟨process, hkeepProcess r process hp, hsame⟩
    · exact hnew r hr
  · intro q other e hq he
    rcases hprocess q other hq with hold | ⟨-, hnone, -⟩
    · obtain ⟨object, ho, hclass⟩ := h.event q other e hold he
      exact ⟨object, hkeepObject e object ho, hclass⟩
    · cases hnone.symm.trans he
  · intro q r other third e hq hr he he'
    rcases hprocess q other hq with hold | ⟨-, hnone, -⟩
    · rcases hprocess r third hr with hold' | ⟨-, hnone, -⟩
      · exact h.ownEvent q r other third e hold hold' he he'
      · cases hnone.symm.trans he'
    · cases hnone.symm.trans he
  · intro q other hq
    rcases hprocess q other hq with hold | ⟨-, -, hnew, -⟩
    · exact h.numbered q other hold
    · exact hnew
  · intro q other hq
    rcases hobject q other hq with hold | ⟨hnew, -⟩
    · have := h.objectBelow q other hold
      omega
    · exact hnew
  · intro q other hq
    rcases hprocess q other hq with hold | ⟨-, -, -, hnew⟩
    · have := h.processBelow q other hold
      omega
    · exact hnew

/-- Nothing is new, and what is left still has all that belongs to it. -/
theorem Filed.shrink (h : s.Filed)
    (hprocess : ∀ q other, s'.process? q = some other → s.process? q = some other ∧
      s'.object? other.object = s.object? other.object ∧
      ∀ e, other.memoryChangeEvent = some e → s'.object? e = s.object? e)
    (hobject : ∀ q other, s'.object? q = some other → s.object? q = some other ∧
      ∀ r, other.body = .process r → s'.process? r = s.process? r)
    (hnextProcess : s'.nextProcess = s.nextProcess) (hnextObject : s'.nextObject = s.nextObject) :
    s'.Filed := by
  constructor
  · intro q other hq
    obtain ⟨hold, hsame, -⟩ := hprocess q other hq
    rw [hsame]
    exact h.backed q other hold
  · intro q other r hq hr
    obtain ⟨hold, hsame⟩ := hobject q other hq
    rw [hsame r hr]
    exact h.backing q other r hold hr
  · intro q other e hq he
    obtain ⟨hold, -, hsame⟩ := hprocess q other hq
    rw [hsame e he]
    exact h.event q other e hold he
  · intro q r other third e hq hr he he'
    exact h.ownEvent q r other third e (hprocess q other hq).1 (hprocess r third hr).1 he he'
  · intro q other hq
    exact h.numbered q other (hprocess q other hq).1
  · intro q other hq
    rw [hnextObject]
    exact h.objectBelow q other (hobject q other hq).1
  · intro q other hq
    rw [hnextProcess]
    exact h.processBelow q other (hprocess q other hq).1

theorem Accounted.fresh (h : s.Accounted loose) : s.object? ⟨s.nextObject⟩ = none := by
  cases ho : s.object? ⟨s.nextObject⟩ with
  | none => rfl
  | some object => exact absurd (h.objectBelow _ object ho) (Nat.lt_irrefl _)

theorem Accounted.freshProcess (h : s.Accounted loose) : s.process? ⟨s.nextProcess⟩ = none := by
  cases hp : s.process? ⟨s.nextProcess⟩ with
  | none => rfl
  | some other => exact absurd (h.processBelow _ other hp) (Nat.lt_irrefl _)

theorem Accounted.count_eq_zero (h : s.Accounted loose) (ho : s.object? o = none) :
    s.claims.count o = 0 ∧ loose.count o = 0 := by
  have hb := h.balance o
  rw [referencesOf, ho] at hb
  simp only [Option.elim_none] at hb
  omega

/-- A new object has one reference, which is loose. -/
theorem Accounted.allocate (h : s.Accounted loose) {body : ObjectBody}
    (hbody : ∀ p, body ≠ .process p) :
    (s.allocate body).2.Accounted ((s.allocate body).1 :: loose) := by
  have hnew : (s.allocate body).2.object? ⟨s.nextObject⟩ = some ⟨body, 1⟩ := object?_allocate s body
  constructor
  · apply h.toFiled.grow
    · exact fun _ _ hq => hq
    · intro q other hq
      rwa [object?_allocate_ne body]
      rintro rfl
      cases h.fresh.symm.trans hq
    · exact fun _ _ hq => .inl hq
    · intro q other hq
      obtain ⟨rfl, rfl⟩ | hold := object?_of_allocate hq
      · exact .inr ⟨Nat.lt_succ_self _, fun r hr => absurd hr (hbody r)⟩
      · exact .inl hold
    · exact Nat.le_refl _
    · exact Nat.le_succ _
  · intro q
    show (s.allocate body).2.referencesOf q =
      s.claims.count q + ((⟨s.nextObject⟩ : ObjectId) :: loose).count q
    by_cases he : q = ⟨s.nextObject⟩
    · subst he
      have hzero := h.count_eq_zero h.fresh
      rw [referencesOf_eq hnew, List.count_cons_self, hzero.1, hzero.2]
      rfl
    · rw [referencesOf, object?_allocate_ne body he, List.count_cons_of_ne (Ne.symm he)]
      exact h.balance q

theorem Referred.allocate (h : s.Referred) (body : ObjectBody) : (s.allocate body).2.Referred := by
  intro q other hq
  obtain ⟨-, rfl⟩ | hold := object?_of_allocate hq
  · exact Nat.one_pos
  · exact h q other hold

section
variable (name : String) (titleId : UInt64)

theorem object?_createProcess_ne (ho : o ≠ ⟨s.nextObject⟩) :
    (s.createProcess name titleId).2.object? o = s.object? o := Table.get?_insert_ne _ (Ne.symm ho) _

theorem process?_createProcess_ne (hp : p ≠ ⟨s.nextProcess⟩) :
    (s.createProcess name titleId).2.process? p = s.process? p :=
  Table.get?_insert_ne _ (Ne.symm hp) _

theorem process?_of_createProcess (h : (s.createProcess name titleId).2.process? p = some process) :
    ⟨s.nextProcess⟩ = p ∧
        process = ⟨name, titleId, ⟨s.nextObject⟩, .none, .empty, .empty, none, false, false⟩ ∨
      s.process? p = some process := Table.of_get?_insert h

theorem object?_of_createProcess (h : (s.createProcess name titleId).2.object? o = some object) :
    ⟨s.nextObject⟩ = o ∧ object = ⟨.process ⟨s.nextProcess⟩, 1⟩ ∨ s.object? o = some object :=
  Table.of_get?_insert h

/-- A new process holds the one reference to its object itself. -/
theorem Accounted.createProcess (h : s.Accounted loose) :
    (s.createProcess name titleId).2.Accounted loose := by
  let process : Process :=
    ⟨name, titleId, ⟨s.nextObject⟩, .none, .empty, .empty, none, false, false⟩
  have hprocess : (s.createProcess name titleId).2.process? ⟨s.nextProcess⟩ = some process :=
    Table.get?_insert_self ..
  have hobject : (s.createProcess name titleId).2.object? ⟨s.nextObject⟩ =
      some ⟨.process ⟨s.nextProcess⟩, 1⟩ := Table.get?_insert_self ..
  constructor
  · apply h.toFiled.grow
    · intro q other hq
      rwa [process?_createProcess_ne name titleId]
      rintro rfl
      cases h.freshProcess.symm.trans hq
    · intro q other hq
      rwa [object?_createProcess_ne name titleId]
      rintro rfl
      cases h.fresh.symm.trans hq
    · intro q other hq
      obtain ⟨rfl, rfl⟩ | hold := process?_of_createProcess name titleId hq
      · exact .inr ⟨⟨_, hobject, rfl⟩, rfl, HandleTable.numbered_empty, Nat.lt_succ_self _⟩
      · exact .inl hold
    · intro q other hq
      obtain ⟨rfl, rfl⟩ | hold := object?_of_createProcess name titleId hq
      · refine .inr ⟨Nat.lt_succ_self _, fun r hr => ?_⟩
        cases hr
        exact ⟨process, hprocess, rfl⟩
      · exact .inl hold
    · exact Nat.le_succ _
    · exact Nat.le_succ _
  · intro q
    have hclaims : (s.createProcess name titleId).2.claims.count q =
        process.claims.count q + s.claims.count q :=
      Table.count_flatMap_values (s.processes.entries_insert_perm h.freshProcess process) _ q
    have hself : process.claims = [⟨s.nextObject⟩] := rfl
    rw [hclaims, hself]
    by_cases he : q = ⟨s.nextObject⟩
    · subst he
      have hzero := h.count_eq_zero h.fresh
      rw [referencesOf_eq hobject, List.count_cons_self, List.count_nil, hzero.1, hzero.2]
      rfl
    · rw [referencesOf, object?_createProcess_ne name titleId he, List.count_cons_of_ne (Ne.symm he),
        List.count_nil, Nat.zero_add]
      exact h.balance q

theorem Referred.createProcess (h : s.Referred) : (s.createProcess name titleId).2.Referred := by
  intro q other hq
  obtain ⟨-, rfl⟩ | hold := object?_of_createProcess name titleId hq
  · exact Nat.one_pos
  · exact h q other hold

end

/-- The last reference to an object takes the object with it, so to drop one leaves no object without. -/
theorem Referred.dropReference (h : s.Referred) (o : ObjectId) : (s.dropReference o).2.Referred := by
  obtain ⟨-, hsame⟩ | ⟨object, ho, hmore, hsame⟩ | ⟨_, -, -, hsame⟩ := dropReference_cases s o
  all_goals rw [hsame]
  · exact h
  · refine h.modifyObject fun other hother => ?_
    cases ho.symm.trans hother
    rw [Object.references_dropped]
    omega
  · exact fun q other hq => h q other (Table.of_get?_erase hq).2

theorem Referred.release (h : s.Referred) (o : ObjectId) : (s.release o).Referred :=
  release_keeps (fun _ o hs => hs.dropReference o) (fun _ _ hs => hs) h o

theorem Referred.foldl_release (h : s.Referred) (os : List ObjectId) :
    (os.foldl State.release s).Referred := by
  induction os generalizing s with
  | nil => exact h
  | cons o os ih => exact ih (h.release o)

/-- The last reference to an object is claimed by no record. -/
theorem Accounted.unclaimed (h : s.Accounted (o :: loose)) (ho : s.object? o = some object)
    (hone : object.references ≤ 1) : s.claims.count o = 0 ∧ loose.count o = 0 := by
  have hb := h.balance o
  rw [referencesOf_eq ho, List.count_cons_self] at hb
  omega

/-- The last reference to an object that stands for no process takes the object with it. -/
theorem Accounted.erase (h : s.Accounted (o :: loose)) (ho : s.object? o = some object)
    (hbody : ∀ p, object.body ≠ .process p) (hone : object.references ≤ 1) :
    State.Accounted loose { s with objects := s.objects.erase o } := by
  obtain ⟨hclaims, hloose⟩ := h.unclaimed ho hone
  have hkeep (q : ObjectId) (hq : q ≠ o) : (s.objects.erase o).get? q = s.object? q :=
    s.objects.get?_erase_ne (Ne.symm hq)
  constructor
  · apply h.toFiled.shrink
    · intro q other hq
      refine ⟨hq, hkeep _ ?_, fun e he => hkeep e ?_⟩
      · intro he
        obtain ⟨now, hn, hnow⟩ := h.backed q other hq
        rw [he, ho] at hn
        cases hn
        exact hbody q hnow
      · rintro rfl
        have hm : e ∈ s.claims := mem_claims hq (by simp [Process.claims, he])
        exact absurd hm (List.count_eq_zero.mp hclaims)
    · intro q other hq
      exact ⟨(Table.of_get?_erase hq).2, fun _ _ => rfl⟩
    · rfl
    · rfl
  · intro q
    show ((s.objects.erase o).get? q).elim 0 (·.references) = s.claims.count q + loose.count q
    by_cases he : q = o
    · subst he
      rw [Table.get?_erase_self, hclaims, hloose]
      rfl
    · have hbq := h.balance q
      rw [List.count_cons_of_ne (Ne.symm he)] at hbq
      rw [hkeep q he]
      exact hbq

/-- The last reference to a process takes its record with it. The record was reaped, and what it held
is loose. -/
theorem Accounted.retire (h : s.Accounted (o :: loose)) (ho : s.object? o = some object)
    (hbody : object.body = .process p) (hone : object.references ≤ 1) :
    ∃ process, s.process? p = some process ∧ process.object = o ∧ process.reaped = true ∧
      State.Accounted (process.claims ++ loose)
        { s with objects := s.objects.erase o, processes := s.processes.erase p } := by
  obtain ⟨process, hp, hobject⟩ := h.backing o object p ho hbody
  obtain ⟨hclaims, hloose⟩ := h.unclaimed ho hone
  have hunclaimed : ∀ q other, s.process? q = some other → o ∉ other.claims := by
    intro q other hq hm
    exact absurd (mem_claims hq hm) (List.count_eq_zero.mp hclaims)
  have hreaped : process.reaped = true := by
    cases hr : process.reaped with
    | true => rfl
    | false => exact absurd (by simp [Process.claims, hr, hobject]) (hunclaimed p process hp)
  refine ⟨process, hp, hobject, hreaped, ?_⟩
  have hkeep (q : ObjectId) (hq : q ≠ o) : (s.objects.erase o).get? q = s.object? q :=
    s.objects.get?_erase_ne (Ne.symm hq)
  constructor
  · apply h.toFiled.shrink
    · intro q other hq
      have hne : p ≠ q := by
        rintro rfl
        cases (s.processes.get?_erase_self p).symm.trans hq
      have hold : s.process? q = some other := (s.processes.get?_erase_ne hne).symm.trans hq
      refine ⟨hold, hkeep _ ?_, fun e he => hkeep e ?_⟩
      · intro he
        obtain ⟨now, hn, hnow⟩ := h.backed q other hold
        rw [he, ho] at hn
        cases hn
        cases hbody.symm.trans hnow
        exact hne rfl
      · rintro rfl
        exact hunclaimed q other hold (by simp [Process.claims, he])
    · intro q other hq
      obtain ⟨hne, hold⟩ := Table.of_get?_erase hq
      refine ⟨hold, fun r hr => s.processes.get?_erase_ne ?_⟩
      rintro rfl
      obtain ⟨third, hthird, hsame⟩ := h.backing q other p hold hr
      cases hp.symm.trans hthird
      exact hne (hsame.symm.trans hobject)
    · rfl
    · rfl
  · intro q
    have hcount := count_claims_erase hp q
    show ((s.objects.erase o).get? q).elim 0 (·.references) =
      ((s.processes.erase p).values.flatMap Process.claims).count q + (process.claims ++ loose).count q
    rw [List.count_append]
    by_cases he : q = o
    · subst he
      rw [Table.get?_erase_self, Option.elim_none]
      omega
    · have hbq := h.balance q
      rw [List.count_cons_of_ne (Ne.symm he), referencesOf] at hbq
      rw [hkeep q he]
      omega

theorem Accounted.drop (h : s.Accounted (o :: loose)) (ho : s.object? o = some object)
    (hmore : 1 < object.references) :
    (s.modifyObject o Object.dropped).Accounted loose := by
  apply h.modifyObject ho
  · exact fun _ => Iff.rfl
  · rfl
  · rw [List.count_cons_self, Object.references_dropped]
    omega
  · intro q hq
    rw [List.count_cons_of_ne (Ne.symm hq)]

/-- To drop a reference to an object that stands for no process ends no record. -/
theorem Accounted.dropReference (h : s.Accounted (o :: loose)) (ho : s.object? o = some object)
    (hbody : ∀ p, object.body ≠ .process p) :
    (s.dropReference o).1 = none ∧ (s.dropReference o).2.Accounted loose ∧
      (s.dropReference o).2.processes = s.processes := by
  by_cases hmore : 1 < object.references
  · rw [dropReference_of_shared ho hmore]
    exact ⟨rfl, h.drop ho hmore, rfl⟩
  · have hone := Nat.le_of_not_lt hmore
    rw [dropReference_of_last ho hone]
    refine ⟨?_, h.erase ho hbody hone, rfl⟩
    split
    next p hp => exact absurd hp (hbody p)
    next => rfl

theorem object?_dropReference_ne (s : State) {q : ObjectId} (hq : q ≠ o) :
    (s.dropReference o).2.object? q = s.object? q := by
  obtain ⟨-, h⟩ | ⟨_, -, -, h⟩ | ⟨_, -, -, h⟩ := dropReference_cases s o
  · rw [h]
  · rw [h, object?_modifyObject_ne s (Ne.symm hq)]
  · rw [h]
    exact Table.get?_erase_ne _ (Ne.symm hq)

/-- A release of what is no process concerns that object only. -/
theorem Accounted.release_plain (h : s.Accounted (o :: loose)) (ho : s.object? o = some object)
    (hbody : ∀ p, object.body ≠ .process p) :
    (s.release o).Accounted loose ∧ (s.release o).processes = s.processes ∧
      ∀ q, q ≠ o → (s.release o).object? q = s.object? q := by
  obtain ⟨hnone, hafter, hsame⟩ := h.dropReference ho hbody
  have hrelease : s.release o = (s.dropReference o).2 := by
    rw [State.release]
    split
    next hd => rw [hd]
    next hd =>
      rw [hd] at hnone
      cases hnone
  rw [hrelease]
  exact ⟨hafter, hsame, fun q hq => object?_dropReference_ne s hq⟩

/-- A loose reference is released. Either all records stay, or the record of the reaped process goes that
the object stands for, and the references of its handles are loose. -/
theorem Accounted.release (h : s.Accounted (o :: loose)) :
    (s.release o).Accounted loose ∧ (s.release o).processes = s.processes ∨
    ∃ p process, s.process? p = some process ∧ process.reaped = true ∧ process.object = o ∧
      (s.release o).Accounted (process.handles.slots.values ++ loose) ∧
      (s.release o).processes = s.processes.erase p := by
  obtain ⟨object, ho⟩ := h.exists_of_mem (.inr (List.mem_cons_self (a := o) (l := loose)))
  by_cases hmore : 1 < object.references
  · rw [release_of_shared ho hmore]
    exact .inl ⟨h.drop ho hmore, rfl⟩
  · have hone := Nat.le_of_not_lt hmore
    by_cases hbody : ∃ p, object.body = .process p
    · obtain ⟨p, hbody⟩ := hbody
      obtain ⟨process, hp, hobject, hreaped, hafter⟩ := h.retire ho hbody hone
      refine .inr ⟨p, process, hp, hreaped, hobject, ?_⟩
      have hclaims : process.claims =
          process.handles.slots.values ++ process.memoryChangeEvent.toList := by
        simp [Process.claims, hreaped]
      rw [hclaims] at hafter
      have hlook : State.process? { s with objects := s.objects.erase o } p = some process := hp
      cases hevent : process.memoryChangeEvent with
      | none =>
        have hrelease : s.release o =
            { s with objects := s.objects.erase o, processes := s.processes.erase p } := by
          simp only [State.release, dropReference_of_last ho hone, hbody, hlook, Option.bind_some,
            hevent]
        rw [hrelease]
        exact ⟨by simpa [hevent] using hafter, rfl⟩
      | some e =>
        have hrelease : s.release o = (State.dropReference
            { s with objects := s.objects.erase o, processes := s.processes.erase p } e).2 := by
          simp only [State.release, dropReference_of_last ho hone, hbody, hlook, Option.bind_some,
            hevent]
        rw [hrelease]
        obtain ⟨record, he, hclass⟩ := h.event p process e hp hevent
        have hplain : ∀ q, record.body ≠ .process q := by
          intro q hq
          rw [hq] at hclass
          cases hclass
        have hne : o ≠ e := by
          rintro rfl
          cases ho.symm.trans he
          exact hplain p hbody
        have hleft : State.object?
            { s with objects := s.objects.erase o, processes := s.processes.erase p } e = some record :=
          (s.objects.get?_erase_ne hne).trans he
        have hloose : State.Accounted (e :: (process.handles.slots.values ++ loose))
            { s with objects := s.objects.erase o, processes := s.processes.erase p } := by
          apply hafter.reorder
          intro q
          simp only [hevent, Option.toList_some, List.count_cons, List.count_append, List.count_nil]
          omega
        obtain ⟨-, hdone, hsame⟩ := hloose.dropReference hleft hplain
        exact ⟨hdone, hsame⟩
    · obtain ⟨hafter, hsame, -⟩ := h.release_plain ho fun p hp => hbody ⟨p, hp⟩
      exact .inl ⟨hafter, hsame⟩

end
end PluginSlot.Kernel.State
