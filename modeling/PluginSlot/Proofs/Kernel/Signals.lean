import PluginSlot.Proofs.Kernel.Events
import PluginSlot.Proofs.Kernel.Remains

/-!
The memory-change event of a process. It is made when it is first asked for and stays with the record
of its process; it is signaled by a page that is mapped or unmapped, and until somebody clears it.
-/
namespace PluginSlot.Kernel

/-- The operation maps or unmaps a page of the process, and succeeds. -/
def Operation.Remaps (op : Operation) (p : ProcessId) (s : State) : Prop :=
  (∃ page, op.page = some (p, page)) ∧ (op.run s).1 = .done

/-- The operation clears the event, by a handle that names it. -/
def Operation.Clears (op : Operation) (e : ObjectId) (s : State) : Prop :=
  ∃ q h, op = .clearEvent q h ∧ s.lookup q h = .ok e

namespace State

section
variable {s : State} {op : Operation} {p : ProcessId} {e : ObjectId}

theorem not_remaps_of_page_none (h : op.page = none) : ¬op.Remaps p s := by
  rintro ⟨⟨page, he⟩, -⟩
  cases h.symm.trans he

theorem not_clears_of_page {page : ProcessId × Nat} (h : op.page = some page) : ¬op.Clears e s := by
  rintro ⟨q, handle, rfl, -⟩
  cases h

/-- A page that another process gets or loses, or that cannot be mapped or unmapped, leaves the event
alone. -/
theorem Covered.object?_run_of_page (h : s.Covered []) (he : s.eventOf p = some e)
    {page : ProcessId × Nat} (hpage : op.page = some page)
    (hother : (op.run s).1 ≠ .done ∨ page.1 ≠ p) : (op.run s).2.object? e = s.object? e := by
  obtain ⟨-, hsame⟩ | ⟨hdone, pages, hrepage⟩ := run_of_page s hpage
  · rw [hsame]
  · rw [hrepage]
    refine object?_repage_of_ne pages fun hq => hother.elim (absurd hdone) fun hne => hne ?_
    obtain ⟨process, hp, hevent⟩ := eventOf_eq_some.mp he
    obtain ⟨other, hother, hevent'⟩ := eventOf_eq_some.mp hq
    exact h.ownEvent _ _ _ _ e hother hp hevent' hevent

/-- The state of the event of a process after one operation. -/
theorem Covered.signaled_run (h : s.Covered []) (hroom : s.RoomyEvents) (hreg : s.Registered)
    (hretain : ∀ o, op ≠ .retain o) (hrelease : ∀ o, op ≠ .release o)
    (he : (op.run s).2.eventOf p = some e) :
    (op.run s).2.Signaled e ↔
      s.eventOf p = some e ∧ (op.Remaps p s ∨ s.Signaled e ∧ ¬op.Clears e s) := by
  have hexists (hwas : s.eventOf p = some e) : ∃ object, s.object? e = some object ∧
      object.body.classOf = .event := by
    obtain ⟨process, hp, hevent⟩ := eventOf_eq_some.mp hwas
    exact h.event p process e hp hevent
  cases hpage : op.page with
  | some page =>
    have hclears := not_clears_of_page (e := e) (s := s) hpage
    have hwas : s.eventOf p = some e := by
      obtain ⟨-, hsame⟩ | ⟨-, pages, hrepage⟩ := run_of_page s hpage
      · rwa [hsame] at he
      · rwa [hrepage, eventOf_repage] at he
    by_cases hremaps : op.Remaps p s
    · obtain ⟨⟨number, hown⟩, hdone⟩ := hremaps
      cases hpage.symm.trans hown
      obtain ⟨hnot, -⟩ | ⟨-, pages, hrepage⟩ := run_of_page s hpage
      · exact absurd hdone hnot
      · obtain ⟨object, ho, -⟩ := hexists hwas
        rw [hrepage]
        exact iff_of_true (hreg.signaled_repage hwas ho pages) ⟨hwas, .inl ⟨⟨number, hown⟩, hdone⟩⟩
    · have hother : (op.run s).1 ≠ .done ∨ page.1 ≠ p := by
        by_contra hboth
        obtain ⟨hdone, rfl⟩ := by simpa using hboth
        exact hremaps ⟨⟨page.2, hpage⟩, hdone⟩
      have hsame := signaled_congr (h.object?_run_of_page hwas hpage hother)
      simp [hsame, hwas, hremaps, hclears]
  | none =>
    have hremaps := not_remaps_of_page_none (p := p) (s := s) hpage
    by_cases hclear : ∃ q handle, op = .clearEvent q handle
    · obtain ⟨q, handle, rfl⟩ := hclear
      have hwas : s.eventOf p = some e := by
        obtain hsame | ⟨o, -, hcleared⟩ := clearEvent_cases s q handle
        · rwa [hsame] at he
        · rwa [hcleared, eventOf_modifyObject] at he
      by_cases hclears : (Operation.clearEvent q handle).Clears e s
      · have hoff : ¬((Operation.clearEvent q handle).run s).2.Signaled e := by
          obtain ⟨_, _, heq, hl⟩ := hclears
          cases heq
          obtain ⟨object, ho, hclass⟩ := hexists hwas
          exact not_signaled_clearEvent hl ho hclass
        simp [hoff, hremaps, hclears]
      · have hsame : ((Operation.clearEvent q handle).run s).2.Signaled e ↔ s.Signaled e := by
          obtain hsame | ⟨o, hl, hcleared⟩ := clearEvent_cases s q handle
          · rw [hsame]
          · refine signaled_congr ?_
            rw [hcleared]
            refine object?_modifyObject_ne s ?_ _
            rintro rfl
            exact hclears ⟨q, handle, rfl, hl⟩
        simp [hsame, hwas, hremaps, hclears]
    · have hclears : ¬op.Clears e s := fun ⟨q, handle, heq, _⟩ => hclear ⟨q, handle, heq⟩
      have hsignals := keepsSignals_run s hpage fun q handle heq => hclear ⟨q, handle, heq⟩
      obtain hwas | hnew := (keepsEvents_run s op).eventOf he
      · obtain ⟨now, hnow, hevent⟩ := eventOf_eq_some.mp he
        obtain ⟨object, ho, -⟩ := (h.run hroom hretain hrelease).event p now e hnow hevent
        obtain ⟨old, hold, -⟩ := hexists hwas
        have hsame := hsignals.signaled_iff (h.objectBelow e old hold) ho
        simp [hsame, hwas, hremaps, hclears]
      · have hnone : s.object? e = none := Option.eq_none_iff_forall_ne_some.mpr fun object ho =>
          Nat.not_lt.mpr hnew (h.objectBelow e object ho)
        refine iff_of_false (hsignals.not_signaled hnone) ?_
        rintro ⟨hwas, -⟩
        obtain ⟨object, ho, -⟩ := hexists hwas
        cases hnone.symm.trans ho

end

/-- The event was there, then a page of its process was mapped or unmapped, and from then on nobody
cleared it. -/
def Stirred (cores : Nat) (ops : List Operation) (p : ProcessId) (e : ObjectId) : Prop :=
  Since (fun done op => ((boot cores).runAll done).eventOf p = some e ∧
      op.Remaps p ((boot cores).runAll done))
    (fun done op => op.Clears e ((boot cores).runAll done)) ops

section
variable {cores : Nat} {ops : List Operation} {op : Operation} {p : ProcessId} {e : ObjectId}

theorem Stirred.owns (h : Stirred cores ops p e) : ((boot cores).runAll ops).Owns p e := by
  obtain ⟨done, first, rest, rfl, ⟨hevent, -⟩, -⟩ := h
  have howns := ((registered_boot cores).runAll done).owns hevent
  rw [runAll_append]
  exact (keepsEvents_runAll _ (first :: rest)).owns howns

/-- The event of a process is signaled exactly if a page was mapped or unmapped since it was made and
was last cleared. -/
theorem signaled_runAll (hroom : RoomyEventsRun cores ops) (hretain : ∀ o, .retain o ∉ ops)
    (hrelease : ∀ o, .release o ∉ ops)
    (he : ((boot cores).runAll ops).eventOf p = some e) :
    ((boot cores).runAll ops).Signaled e ↔ Stirred cores ops p e := by
  induction ops using List.reverseRecOn with
  | nil => cases he
  | append_singleton ops op ih =>
    simp only [List.mem_append, List.mem_singleton, not_or] at hretain hrelease
    have hcovered := covered_runAll hroom.init (fun o => (hretain o).1) fun o => (hrelease o).1
    rw [runAll_concat] at he ⊢
    rw [hcovered.signaled_run hroom.last ((registered_boot cores).runAll ops)
      (fun o => Ne.symm (hretain o).2) (fun o => Ne.symm (hrelease o).2) he, Stirred, since_concat]
    by_cases hwas : ((boot cores).runAll ops).eventOf p = some e
    · rw [ih hroom.init (fun o => (hretain o).1) (fun o => (hrelease o).1) hwas, Stirred]
      simp [hwas]
    · have hstill : ¬Stirred cores ops p e := fun h => by
        obtain ⟨process, hp, -⟩ := eventOf_eq_some.mp he
        exact hwas ((keepsEvents_run _ op).eventOf_of_owns h.owns hp)
      rw [Stirred] at hstill
      simp [hwas, hstill]

end

/-- A handle that a process was given to its memory-change event names the event that it has, as long as
it has a record. -/
theorem Registered.names_event {s : State} (hreg : s.Registered) {next : Operation} {p : ProcessId}
    {h : Handle} (hasks : next.asker = some p)
    (hgiven : (next.run s).1 = .control (.handle h)) (rest : List Operation) {process : Process}
    (hp : ((next.run s).2.runAll rest).process? p = some process) :
    ∃ e, (next.run s).2.Names p h e ∧ process.memoryChangeEvent = some e := by
  obtain ⟨error, hfailed⟩ | hhas := hreg.failed_or_hasEvent hasks
  · cases hgiven.symm.trans hfailed
  obtain ⟨old, hold, hkept, -⟩ | ⟨hnew, -⟩ := (keepsEvents_runAll _ rest).record p process hp
  · obtain ⟨caller, target, rfl, hrun⟩ := run_of_asker s hasks
    rw [hrun] at hgiven hold ⊢
    have hanswer : (s.control caller target .memoryChangeEvent).1 = .ok (.handle h) := by
      change Outcome.ofExcept .control (s.control caller target .memoryChangeEvent).1 = _ at hgiven
      cases hr : (s.control caller target .memoryChangeEvent).1 with
      | error error =>
        rw [hr] at hgiven
        cases hgiven
      | ok output =>
        rw [hr] at hgiven
        cases hgiven
        rfl
    obtain ⟨held, record, _, e, heq, -, hafter, hrecord, hevent, hslot⟩ := hreg.grants hanswer
    cases heq
    -- the record is still there, so it was not released
    have hleft : (held.releaseProcess caller.process).process? caller.process = some old :=
      hafter ▸ hold
    cases hrecord.symm.trans (process?_of_releaseProcess hleft)
    exact ⟨e, ⟨old, hold, hslot⟩, hkept e hevent⟩
  · exact absurd hhas.1 (Nat.not_lt.mpr hnew)

/-- In every run in which nobody takes or drops references by hand, and in which no step finds an event
that is referred to as often as can be counted: a process that was given a handle
to its memory-change event, and still has a record, has an event that exists, and every handle it was
given named this event. The event is signaled exactly if a page of the process was mapped or unmapped
since the event was made and since it was last cleared; a page that could not be mapped or unmapped,
or that belongs to another process, does not change it. -/
theorem runAll_memoryChangeEvent (cores : Nat) {ops done : List Operation} {next : Operation}
    {p : ProcessId} {process : Process} {h : Handle} (hroom : RoomyEventsRun cores ops)
    (hretain : ∀ o, .retain o ∉ ops) (hrelease : ∀ o, .release o ∉ ops) (hstep : done ++ [next] <+: ops)
    (hasks : next.asker = some p)
    (hgiven : (next.run ((boot cores).runAll done)).1 = .control (.handle h))
    (hp : ((boot cores).runAll ops).process? p = some process) :
    let s := (boot cores).runAll ops
    ∃ e signaled oneShot count, process.memoryChangeEvent = some e ∧
      s.object? e = some ⟨.event signaled oneShot, count⟩ ∧
      (∀ done next h, done ++ [next] <+: ops → next.asker = some p →
        (next.run ((boot cores).runAll done)).1 = .control (.handle h) →
          ((boot cores).runAll (done ++ [next])).Names p h e) ∧
      (signaled = true ↔ Stirred cores ops p e) ∧
      ∀ (op : Operation) (page : ProcessId × Nat), op.page = some page →
        (op.run s).1 ≠ .done ∨ page.1 ≠ p → (op.run s).2.object? e = s.object? e := by
  intro s
  have hnamed (done : List Operation) (next : Operation) (h : Handle) (hstep : done ++ [next] <+: ops)
      (hasks : next.asker = some p)
      (hgiven : (next.run ((boot cores).runAll done)).1 = .control (.handle h)) :
      ∃ e, ((boot cores).runAll (done ++ [next])).Names p h e ∧ process.memoryChangeEvent = some e := by
    obtain ⟨rest, rfl⟩ := hstep
    rw [runAll_concat]
    refine ((registered_boot cores).runAll done).names_event hasks hgiven rest ?_
    rwa [← runAll_concat, ← runAll_append]
  obtain ⟨e, -, hevent⟩ := hnamed done next h hstep hasks hgiven
  have he : s.eventOf p = some e := eventOf_eq_some.mpr ⟨process, hp, hevent⟩
  have hcovered : s.Covered [] := covered_runAll hroom hretain hrelease
  obtain ⟨object, ho, hclass⟩ := hcovered.event p process e hp hevent
  obtain ⟨signaled, oneShot, hbody⟩ := body_of_classOf_event hclass
  refine ⟨e, signaled, oneShot, object.count, hevent, ?_, fun done next h hstep hasks hgiven => ?_,
    ?_, fun op page hpage hother => hcovered.object?_run_of_page he hpage hother⟩
  · rw [ho, hbody]
  · obtain ⟨_, hnames, hsame⟩ := hnamed done next h hstep hasks hgiven
    cases hevent.symm.trans hsame
    exact hnames
  · rw [← signaled_runAll hroom hretain hrelease he]
    constructor
    · rintro rfl
      exact ⟨oneShot, object.count, ho.trans (congrArg some hbody)⟩
    · rintro ⟨_, _, hnow⟩
      cases (ho.trans (congrArg some hbody)).symm.trans hnow
      rfl

/-- A process asks for its event and maps a page, which signals it. The event is cleared, and a page that
is not mapped cannot be unmapped, so it stays clear. -/
theorem runAll_memoryChangeEvent_cleared :
    let ops : List Operation := [.createProcess "host" 1,
      .control ⟨⟨1⟩, ⟨1⟩, ⟨0⟩⟩ .currentProcess .memoryChangeEvent,
      .mapPage ⟨1⟩ 0x7000000 0x20000000 .all, .clearEvent ⟨1⟩ ⟨0x100⟩, .unmapPage ⟨1⟩ 0x7001000]
    RoomyEventsRun 1 ops ∧ ((boot 1).runAll (ops.take 3)).object? ⟨2⟩ = some ⟨.event true true, 2⟩ ∧
      Stirred 1 (ops.take 3) ⟨1⟩ ⟨2⟩ ∧
      ((boot 1).runAll ops).object? ⟨2⟩ = some ⟨.event false true, 2⟩ ∧ ¬Stirred 1 ops ⟨1⟩ ⟨2⟩ := by
  intro ops
  have hroom : RoomyEventsRun 1 ops := (roomyRun_of_length 1 (by decide)).events
  have hanswer : (((boot 1).runAll (ops.take 1)).control ⟨⟨1⟩, ⟨1⟩, ⟨0⟩⟩ .currentProcess
      .memoryChangeEvent).1 = .ok (.handle ⟨0x100⟩) := by decide
  have hgiven : ((Operation.control ⟨⟨1⟩, ⟨1⟩, ⟨0⟩⟩ .currentProcess .memoryChangeEvent).run
      ((boot 1).runAll (ops.take 1))).1 = .control (.handle ⟨0x100⟩) :=
    congrArg (Outcome.ofExcept .control) hanswer
  have hmapped : ((boot 1).runAll (ops.take 3)).object? ⟨2⟩ = some ⟨.event true true, 2⟩ := by decide
  have hcleared : ((boot 1).runAll ops).object? ⟨2⟩ = some ⟨.event false true, 2⟩ := by decide
  have hevent : ((boot 1).runAll (ops.take 3)).eventOf ⟨1⟩ = some ⟨2⟩ ∧
      ((boot 1).runAll ops).eventOf ⟨1⟩ = some ⟨2⟩ := by decide
  obtain ⟨process, hp, he⟩ := eventOf_eq_some.mp hevent.1
  obtain ⟨process', hp', he'⟩ := eventOf_eq_some.mp hevent.2
  obtain ⟨e, _, _, _, hown, ho, -, hiff, -⟩ := @runAll_memoryChangeEvent 1 (ops.take 3) _ _ _ _ _
    (hroom.of_prefix (List.take_prefix 3 ops)) (by simp [ops]) (by simp [ops]) (List.prefix_append _ _) rfl
    hgiven hp
  obtain ⟨e', _, _, _, hown', ho', -, hiff', -⟩ := @runAll_memoryChangeEvent 1 ops _ _ _ _ _ hroom
    (by simp [ops]) (by simp [ops]) (List.prefix_append _ _) rfl hgiven hp'
  cases he.symm.trans hown
  cases he'.symm.trans hown'
  cases hmapped.symm.trans ho
  cases hcleared.symm.trans ho'
  exact ⟨hroom, hmapped, hiff.mp rfl, hcleared, fun h => Bool.false_ne_true (hiff'.mpr h)⟩

end State
end PluginSlot.Kernel
