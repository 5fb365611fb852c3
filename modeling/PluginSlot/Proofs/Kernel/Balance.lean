import Mathlib.Data.List.Induction
import PluginSlot.Proofs.History
import PluginSlot.Proofs.Kernel.BookSteps
import PluginSlot.Proofs.Kernel.Stranding

/-!
The references of every object are those that records hold, in every run, but for what is stranded
when the record of a reaped process goes with handles still open.
-/
namespace PluginSlot.Kernel.State

/-- How many handles name an object, over all records. -/
def handlesTo (s : State) (o : ObjectId) : Nat :=
  (s.processes.values.flatMap (·.handles.slots.values)).countP (· = o)

/-- The object is the memory-change event of a record. -/
def isEvent (s : State) (o : ObjectId) : Bool :=
  s.processes.values.any (·.memoryChangeEvent = some o)

/-- The object stands for a process that is not reaped. -/
def isLive (s : State) (o : ObjectId) : Bool :=
  s.processes.values.any fun process => process.object = o && !process.reaped

/-- Every object is referred to as often as it counts, and what is referred to exists. -/
structure Balanced (s : State) : Prop where
  references : ∀ o object, s.object? o = some object →
    object.references = s.handlesTo o + (s.isEvent o).toNat + (s.isLive o).toNat
  named : ∀ p process h o, s.process? p = some process → (h, o) ∈ process.handles.entries →
    (s.object? o).isSome
  event : ∀ p process o, s.process? p = some process → process.memoryChangeEvent = some o →
    (s.object? o).isSome
  backed : ∀ p process, s.process? p = some process → (s.object? process.object).isSome

theorem balanced_iff_entries (s : State) : s.Balanced ↔
    (∀ e ∈ s.objects.entries,
      e.2.references = s.handlesTo e.1 + (s.isEvent e.1).toNat + (s.isLive e.1).toNat) ∧
    ∀ e ∈ s.processes.entries, (∀ named ∈ e.2.handles.entries, (s.object? named.2).isSome) ∧
      (∀ o ∈ e.2.memoryChangeEvent.toList, (s.object? o).isSome) ∧ (s.object? e.2.object).isSome := by
  constructor
  · intro h
    constructor
    · intro e he
      exact h.references e.1 e.2 ((Table.get?_eq_some_iff _ _ _).mpr he)
    · intro e he
      have hp : s.process? e.1 = some e.2 := (Table.get?_eq_some_iff _ _ _).mpr he
      refine ⟨fun named hn => h.named e.1 e.2 named.1 named.2 hp hn, ?_, h.backed e.1 e.2 hp⟩
      intro o ho
      exact h.event e.1 e.2 o hp (Option.mem_toList.mp ho)
  · rintro ⟨hobjects, hrecords⟩
    have hrecord (p : ProcessId) (process : Process) (hp : s.process? p = some process) :=
      hrecords (p, process) ((Table.get?_eq_some_iff _ _ _).mp hp)
    constructor
    · intro o object ho
      exact hobjects (o, object) ((Table.get?_eq_some_iff _ _ _).mp ho)
    · intro p process j o hp hj
      exact (hrecord p process hp).1 (j, o) hj
    · intro p process o hp ho
      exact (hrecord p process hp).2.1 o (Option.mem_toList.mpr ho)
    · intro p process hp
      exact (hrecord p process hp).2.2

instance (s : State) : Decidable s.Balanced := decidable_of_iff' _ s.balanced_iff_entries

section
variable {s : State} {loose : List ObjectId}

theorem count_named_flatMap (records : List Process) (o : ObjectId) :
    (records.flatMap fun p => p.handles.slots.values ++ p.memoryChangeEvent.toList).countP (· = o) =
      (records.flatMap (·.handles.slots.values)).countP (· = o) +
        records.countP (·.memoryChangeEvent = some o) := by
  induction records with
  | nil => rfl
  | cons process records ih =>
    have hevent : process.memoryChangeEvent.toList.countP (· = o) =
        if process.memoryChangeEvent = some o then 1 else 0 := by
      cases process.memoryChangeEvent <;> simp [List.countP_singleton]
    simp only [List.flatMap_cons, List.countP_cons, List.countP_append, hevent, ih,
      decide_eq_true_eq]
    omega

theorem count_claims_flatMap (records : List Process) (o : ObjectId) :
    (records.flatMap Process.claims).count o =
      (records.flatMap fun p => p.handles.slots.values ++ p.memoryChangeEvent.toList).countP (· = o) +
        records.countP fun process => process.object = o && !process.reaped := by
  induction records with
  | nil => rfl
  | cons process records ih =>
    have hcount (os : List ObjectId) : os.count o = os.countP (· = o) :=
      List.countP_congr fun q _ => by simp
    have hown : (if process.reaped then [] else [process.object]).countP (· = o) =
        if process.object = o && !process.reaped then 1 else 0 := by
      cases process.reaped <;> simp [List.countP_singleton]
    simp only [hcount] at ih ⊢
    simp only [List.flatMap_cons, List.countP_cons, List.countP_append, Process.claims, hown, ih]
    omega

theorem isLive_iff {o : ObjectId} : s.isLive o = true ↔
    ∃ p process, s.process? p = some process ∧ process.object = o ∧ process.reaped = false := by
  simp only [isLive, List.any_eq_true, Bool.and_eq_true, decide_eq_true_eq, Bool.not_eq_true']
  constructor
  · rintro ⟨process, hm, ho, hreaped⟩
    obtain ⟨⟨p, process⟩, he, rfl⟩ := List.mem_map.mp hm
    exact ⟨p, process, (Table.get?_eq_some_iff _ _ _).mpr he, ho, hreaped⟩
  · rintro ⟨p, process, hp, ho, hreaped⟩
    have he := (Table.get?_eq_some_iff _ _ _).mp hp
    exact ⟨process, List.mem_map.mpr ⟨(p, process), he, rfl⟩, ho, hreaped⟩

/-- Records claim what they name, and their own objects until they are reaped. -/
theorem Filed.count_claims (h : s.Filed) (o : ObjectId) :
    s.claims.count o = s.namedObjects.countP (· = o) + (s.isLive o).toNat := by
  have hlive : (s.processes.values.countP fun process => process.object = o && !process.reaped) =
      (s.isLive o).toNat := by
    apply Table.countP_values_of_unique
    intro p q process other hp hq he he'
    simp only [Bool.and_eq_true, decide_eq_true_eq] at he he'
    obtain ⟨object, ho, hbody⟩ := h.backed p process hp
    obtain ⟨object', ho', hbody'⟩ := h.backed q other hq
    rw [he.1] at ho
    rw [he'.1, ho] at ho'
    cases ho'
    exact ObjectBody.process.inj (hbody.symm.trans hbody')
  rw [claims, count_claims_flatMap, hlive]
  rfl

theorem Filed.count_named (h : s.Filed) (o : ObjectId) :
    s.namedObjects.countP (· = o) = s.handlesTo o + (s.isEvent o).toNat := by
  have hevent : s.processes.values.countP (·.memoryChangeEvent = some o) = (s.isEvent o).toNat := by
    apply Table.countP_values_of_unique
    intro p q process other hp hq he he'
    exact h.ownEvent p q process other o hp hq (of_decide_eq_true he) (of_decide_eq_true he')
  rw [namedObjects, count_named_flatMap, hevent]
  rfl

/-- The checker expects what records claim. -/
theorem Filed.expectedReferences_eq (h : s.Filed) {o : ObjectId} {object : Object}
    (ho : s.object? o = some object) : s.expectedReferences o = s.claims.count o := by
  rw [h.count_claims, expectedReferences, ho]
  congr 1
  obtain ⟨body, count⟩ := object
  cases hlive : s.isLive o with
  | true =>
    obtain ⟨p, process, hp, rfl, hreaped⟩ := isLive_iff.mp hlive
    obtain ⟨object, hobject, hbody⟩ := h.backed p process hp
    cases ho.symm.trans hobject
    cases hbody
    simp [hp, hreaped]
  | false =>
    cases body with
    | process p =>
      obtain ⟨process, hp, hobject⟩ := h.backing o _ p ho rfl
      have hreaped : process.reaped = true := by
        by_contra hne
        have := isLive_iff.mpr ⟨p, process, hp, hobject, by simpa using hne⟩
        cases hlive.symm.trans this
      simp [hp, hreaped]
    | event signaled oneShot => rfl
    | addressArbiter => rfl

/-- A loose reference shows in the count of its object. -/
theorem Accounted.eq_nil_of_references (h : s.Accounted loose)
    (hall : ∀ o object, s.object? o = some object → object.references = s.claims.count o) :
    loose = [] := by
  by_contra hne
  obtain ⟨o, ho⟩ := List.exists_mem_of_ne_nil _ hne
  obtain ⟨object, hobject⟩ := h.exists_of_mem (.inr ho)
  have hcount := hall o object hobject
  have hbalance := h.balance o
  have hpos := List.count_pos_iff.mpr ho
  rw [referencesOf_eq hobject] at hbalance
  omega

/-- Everything balances exactly if nothing is loose. -/
theorem Accounted.balanced_iff (h : s.Accounted loose) : s.Balanced ↔ loose = [] := by
  constructor
  · intro hb
    apply h.eq_nil_of_references
    intro o object ho
    rw [h.count_claims, h.count_named]
    exact hb.references o object ho
  · rintro rfl
    have hexists (o : ObjectId) (ho : o ∈ s.claims) : (s.object? o).isSome :=
      Option.isSome_iff_exists.mpr (h.exists_of_mem (.inl ho))
    constructor
    · intro o object ho
      have hall := h.balance o
      rwa [referencesOf_eq ho, h.count_claims, h.count_named, List.count_nil, Nat.add_zero] at hall
    · intro p process j o hp hj
      have hm : o ∈ process.handles.slots.values := List.mem_map.mpr ⟨(j, o), hj, rfl⟩
      exact hexists o (mem_claims hp (by simp [Process.claims, hm]))
    · intro p process o hp ho
      exact hexists o (mem_claims hp (by simp [Process.claims, ho]))
    · intro p process hp
      obtain ⟨object, ho, -⟩ := h.backed p process hp
      simp [ho]

/-- Where everything balances, what records claim exists. -/
theorem Balanced.exists_of_mem {o : ObjectId} (h : s.Balanced) (ho : o ∈ s.claims) :
    (s.object? o).isSome := by
  obtain ⟨p, process, hp, hhandle | hevent | ⟨-, rfl⟩⟩ := exists_of_mem_claims ho
  · obtain ⟨⟨j, o⟩, hj, rfl⟩ := List.mem_map.mp hhandle
    exact h.named p process j o hp hj
  · exact h.event p process o hp hevent
  · exact h.backed p process hp

theorem Filed.accounted (h : s.Filed) (hb : s.Balanced) : s.Accounted [] := by
  refine ⟨h, fun o => ?_⟩
  rw [List.count_nil, Nat.add_zero, referencesOf]
  cases ho : s.object? o with
  | none =>
    refine (List.count_eq_zero.mpr fun hclaim => ?_).symm
    have hsome := hb.exists_of_mem hclaim
    rw [ho] at hsome
    cases hsome
  | some object =>
    rw [h.count_claims, h.count_named]
    exact hb.references o object ho

/-- What the checker counts does not wrap around, because the count that it checks is no less. -/
theorem Accounted.count_eq_expectedCount_iff (h : s.Accounted loose) {o : ObjectId} {object : Object}
    (ho : s.object? o = some object) :
    object.count = s.expectedCount o ↔ object.references = s.claims.count o := by
  have hbalance := h.balance o
  rw [referencesOf_eq ho] at hbalance
  have hbound : object.references < UInt32.size := object.count.toNat_lt_size
  have hexpected : (s.expectedCount o).toNat = s.claims.count o := by
    rw [expectedCount, h.expectedReferences_eq ho]
    exact UInt32.toNat_ofNat_of_lt (by omega)
  rw [← UInt32.toNat_inj, hexpected]
  rfl

/-- The checker finds something exactly if something does not balance. -/
theorem Accounted.balanceViolations_eq_nil_iff (h : s.Accounted loose) :
    s.balanceViolations = [] ↔ s.Balanced := by
  have hclean : s.balanceViolations = [] ↔
      ∀ o object, s.object? o = some object → object.references = s.claims.count o := by
    simp only [balanceViolations, List.filterMap_eq_nil_iff, ite_eq_left_iff, reduceCtorEq, imp_false,
      not_not, Prod.forall, ← Table.get?_eq_some_iff]
    constructor
    · intro hall o object ho
      exact (h.count_eq_expectedCount_iff ho).mp (hall o object ho)
    · intro hall o object ho
      exact (h.count_eq_expectedCount_iff ho).mpr (hall o object ho)
  rw [hclean, h.balanced_iff]
  constructor
  · exact h.eq_nil_of_references
  · rintro rfl o object ho
    have hbalance := h.balance o
    rwa [referencesOf_eq ho, List.count_nil, Nat.add_zero] at hbalance

theorem audited_boot (cores : Nat) : (boot cores).Audited [] := by
  refine ⟨⟨?_, fun o => rfl⟩, fun o object ho => ?_⟩
  · constructor <;> intros <;> contradiction
  · cases ho

end

/-- No step of the run finds an object that is referred to as often as can be counted. -/
def RoomyRun (cores : Nat) (ops : List Operation) : Prop :=
  ∀ done op, done ++ [op] <+: ops → ((boot cores).runAll done).Roomy

theorem RoomyRun.of_prefix {cores : Nat} {ops done : List Operation} (h : RoomyRun cores ops)
    (hdone : done <+: ops) : RoomyRun cores done :=
  fun earlier op hstep => h earlier op (hstep.trans hdone)

/-- Half as many operations as can be counted exhaust no count. -/
theorem roomyRun_of_length (cores : Nat) {ops : List Operation}
    (h : 2 * ops.length < UInt32.size) : RoomyRun cores ops := by
  intro done op hstep o object ho
  have hcount := within_runAll cores done o object ho
  have hlength : done.length + 1 ≤ ops.length := by simpa using hstep.length_le
  omega

/-- After a run, what is loose is what its steps have stranded. -/
theorem exists_audited (cores : Nat) (ops : List Operation) (h : ∀ op ∈ ops, op.isBare = false)
    (hroom : RoomyRun cores ops) :
    ∃ lost, ((boot cores).runAll ops).Audited lost ∧
      (lost = [] ↔ ∀ done op, done ++ [op] <+: ops → ¬op.Strands ((boot cores).runAll done)) := by
  induction ops using List.reverseRecOn with
  | nil =>
    refine ⟨[], audited_boot cores, ?_⟩
    simp
  | append_singleton ops op ih =>
    obtain ⟨hlast, hearlier⟩ := (forall_step_concat ops op).mp hroom
    obtain ⟨lost, hbefore, hlost⟩ := ih (fun op hop => h op (by simp [hop])) hearlier
    obtain ⟨⟨stranded, hafter, hstranded⟩, -⟩ := settles hbefore hlast op (h op (by simp))
    refine ⟨stranded ++ lost, by rwa [runAll_concat], ?_⟩
    rw [List.append_eq_nil_iff, hlost, forall_step_concat, ← hstranded, not_not]

/-- In a run that takes and drops no references by hand, and in which no count is exhausted, every
object is referred to as often as it counts, and what is referred to exists, exactly if no step ended
the record of a reaped process that had handles open. -/
theorem runAll_balanced_iff (cores : Nat) (ops : List Operation)
    (h : ∀ op ∈ ops, op.isBare = false) (hroom : RoomyRun cores ops) :
    ((boot cores).runAll ops).Balanced ↔
      ∀ done op, done ++ [op] <+: ops → ¬op.Strands ((boot cores).runAll done) := by
  obtain ⟨lost, hafter, hlost⟩ := exists_audited cores ops h hroom
  rw [hafter.balanced_iff, hlost]

/-- The checker agrees in all such runs. -/
theorem runAll_balanceViolations_eq_nil_iff (cores : Nat) (ops : List Operation)
    (h : ∀ op ∈ ops, op.isBare = false) (hroom : RoomyRun cores ops) :
    ((boot cores).runAll ops).balanceViolations = [] ↔ ((boot cores).runAll ops).Balanced := by
  obtain ⟨lost, hafter, -⟩ := exists_audited cores ops h hroom
  exact hafter.balanceViolations_eq_nil_iff

/-- A reaped process is given an event, and its record goes with the last handle to it. The event
keeps the reference of a handle that no longer exists. -/
theorem not_balanced_of_late_event :
    ¬((boot 1).runAll [.createProcess "loader" 1, .createProcess "host" 2,
      .openProcess ⟨1⟩ ⟨2⟩, .destroyProcess ⟨2⟩, .createObject ⟨2⟩ .event,
      .closeHandle ⟨1⟩ ⟨0x100⟩]).Balanced := by
  decide

/-- The same event does no harm if its handle is closed first: no step of that run strands it. -/
theorem runAll_balanced_closed :
    let ops : List Operation := [.createProcess "loader" 1, .createProcess "host" 2,
      .openProcess ⟨1⟩ ⟨2⟩, .destroyProcess ⟨2⟩, .createObject ⟨2⟩ .event,
      .closeHandle ⟨2⟩ ⟨0x100⟩, .closeHandle ⟨1⟩ ⟨0x100⟩]
    (∀ op ∈ ops, op.isBare = false) ∧ RoomyRun 1 ops ∧ ((boot 1).runAll ops).Balanced ∧
      ∀ done op, done ++ [op] <+: ops → ¬op.Strands ((boot 1).runAll done) := by
  intro ops
  have hops : ∀ op ∈ ops, op.isBare = false := by simp [ops, Operation.isBare]
  have hroom : RoomyRun 1 ops := roomyRun_of_length 1 (by decide)
  have hbalanced : ((boot 1).runAll ops).Balanced := by decide
  exact ⟨hops, hroom, hbalanced, (runAll_balanced_iff 1 ops hops hroom).mp hbalanced⟩

end PluginSlot.Kernel.State
