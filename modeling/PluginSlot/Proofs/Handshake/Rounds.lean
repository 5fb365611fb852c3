import PluginSlot.Proofs.Handshake.Interleaving
import Mathlib.Data.List.Induction
import Mathlib.Data.List.Infix

/-!
Rounds of the handshake. The loader sets the reply back before it posts an event and not again until its
next event, so no reply to the event is overwritten, and a wait that comes to see it ends well. A reply
does not say which event it is for, though, and one that the loader no longer waited for counts for the
event that it posted next.
-/
namespace PluginSlot.Handshake

/-- The plugin gives its reply. -/
def Happening.answers : Happening → Bool
  | plugin (.stored .reply _) => true
  | _ => false

/-- The plugin obtains an event. -/
def Happening.obtains : Happening → Bool
  | plugin (.loaded .event value) => value ≠ ok
  | _ => false

theorem Happening.answers_iff {l : Happening} :
    l.answers = true ↔ ∃ value, l = .plugin (.stored .reply value) := by
  constructor
  · intro h
    unfold answers at h
    split at h
    · exact ⟨_, rfl⟩
    · cases h
  · rintro ⟨value, rfl⟩
    rfl

theorem Happening.obtains_iff {l : Happening} :
    l.obtains = true ↔ ∃ value, value ≠ ok ∧ l = .plugin (.loaded .event value) := by
  constructor
  · intro h
    unfold obtains at h
    split at h
    · exact ⟨_, of_decide_eq_true h, rfl⟩
    · cases h
  · rintro ⟨value, hvalue, rfl⟩
    exact decide_eq_true hvalue

section words
variable {s t : Exchange} {l : Happening} {ls : List Happening}

/-- Unless the loader begins another round, the reply is what the plugin makes it. -/
theorem Step.reply_eq (h : Step s l t) (hl : ∀ event, l ≠ .notifies event)
    (hs : ∀ event, s.loader ≠ .arming event) : (∀ event, t.loader ≠ .arming event) ∧
      t.words.reply = if l.answers then ok else s.words.reply := by
  cases h with
  | notify _ event => exact absurd rfl (hl event)
  | awaitReply => exact ⟨nofun, rfl⟩
  | awaitEvent | reply => exact ⟨hs, rfl⟩
  | loader h =>
    generalize s.loader = stage at h hs
    cases h.loaderTurn with
    | arm event => exact absurd rfl (hs event)
    | _ => exact ⟨nofun, rfl⟩
  | @plugin a _ _ h =>
    refine ⟨hs, ?_⟩
    obtain ⟨rfl, rfl⟩ | ⟨hstored, rfl⟩ := h.words_plugin
    · rfl
    · have hsilent : (Happening.plugin a).answers = false := by
        refine Bool.eq_false_iff.mpr fun hanswers => ?_
        obtain ⟨value, ha⟩ := Happening.answers_iff.mp hanswers
        exact hstored _ _ (Happening.plugin.inj ha)
      rw [hsilent]
      rfl

theorem Run.reply_eq (h : Run s ls t) (hls : ∀ event, .notifies event ∉ ls)
    (hs : ∀ event, s.loader ≠ .arming event) : (∀ event, t.loader ≠ .arming event) ∧
      t.words.reply = if ls.any Happening.answers then ok else s.words.reply := by
  induction h with
  | nil => exact ⟨hs, rfl⟩
  | @cons s t u l ls hstep _ ih =>
    have hl : ∀ event, l ≠ .notifies event := fun event h => hls event (h ▸ .head _)
    obtain ⟨ht, hreply⟩ := hstep.reply_eq hl hs
    obtain ⟨hu, hreplies⟩ := ih (fun event h => hls event (.tail _ h)) ht
    refine ⟨hu, ?_⟩
    rw [hreplies, hreply, List.any_cons]
    cases l.answers <;> cases ls.any Happening.answers <;> rfl

/-- The event stays posted until the loader posts another. -/
theorem Step.event_eq (h : Step s l t) (hl : ∀ event, l ≠ .notifies event)
    (hs : ∀ event, s.loader ≠ .arming event ∧ s.loader ≠ .posting event) :
    (∀ event, t.loader ≠ .arming event ∧ t.loader ≠ .posting event) ∧
      t.words.event = s.words.event := by
  cases h with
  | notify _ event => exact absurd rfl (hl event)
  | awaitReply => exact ⟨fun _ => ⟨nofun, nofun⟩, rfl⟩
  | awaitEvent | reply => exact ⟨hs, rfl⟩
  | loader h =>
    generalize s.loader = stage at h hs
    cases h.loaderTurn with
    | arm event => exact absurd rfl (hs event).1
    | post event => exact absurd rfl (hs event).2
    | _ => exact ⟨fun _ => ⟨nofun, nofun⟩, rfl⟩
  | plugin h =>
    refine ⟨hs, ?_⟩
    obtain ⟨-, rfl⟩ | ⟨-, rfl⟩ := h.words_plugin <;> rfl

/-- The loader has posted its event. -/
theorem Step.posted {event : Int32} (h : Step s (.loader (.stored .event event)) t) :
    (∀ other, t.loader ≠ .arming other ∧ t.loader ≠ .posting other) ∧ t.words.event = event := by
  cases h with
  | loader h =>
    generalize s.loader = stage at h
    cases h.loaderTurn
    exact ⟨fun _ => ⟨nofun, nofun⟩, rfl⟩

/-- Whatever event the plugin finds meanwhile is the one that is posted. -/
theorem Run.event_of_loaded (h : Run s ls t) (hls : ∀ event, .notifies event ∉ ls)
    (hs : ∀ event, s.loader ≠ .arming event ∧ s.loader ≠ .posting event) {value : Int32}
    (hvalue : .plugin (.loaded .event value) ∈ ls) : value = s.words.event := by
  induction h with
  | nil => cases hvalue
  | @cons s t u l ls hstep _ ih =>
    have hl : ∀ event, l ≠ .notifies event := fun event h => hls event (h ▸ .head _)
    obtain ⟨ht, hevent⟩ := hstep.event_eq hl hs
    obtain rfl | hvalue := List.mem_cons.mp hvalue
    · cases hstep with
      | plugin h => exact h.of_loaded
    · rw [← hevent]
      exact ih (fun event h => hls event (.tail _ h)) ht hvalue

end words

section acknowledgment
variable {s₀ s : Exchange} {before during after : List Happening} {event : Int32}

/-- The loader has seen the reply, or is about to. -/
def LoaderStage.satisfied (stage : LoaderStage) : Prop :=
  stage = .waited (.ok .acknowledged) ∨ stage = .checking

theorem Advance.satisfied_of_read {words words' : Words} {stage stage' : LoaderStage} {a : Access}
    (h : Advance LoaderStage.move? words stage a words' stage') (hread : a.read? = some .reply)
    (hreply : words.reply ≥ ok) : stage'.satisfied := by
  cases h.loaderTurn with
  | find | findLate => exact .inl rfl
  | reach => exact .inr rfl
  | miss hlow | sleep hlow | missLate hlow => exact absurd hreply hlow
  | _ => cases hread

/-- A loader that has seen the reply forgets it only by reading anew, or with the next round. -/
theorem Step.satisfied {s t : Exchange} {l : Happening} (h : Step s l t)
    (hs : s.loader.satisfied)
    (hl : (∀ event, l ≠ .notifies event) ∧ ∀ a, l = .loader a → a.read? ≠ some .reply) :
    t.loader.satisfied := by
  cases h with
  | notify _ event => exact absurd rfl (hl.1 event)
  | awaitReply => exact .inr rfl
  | awaitEvent | reply | plugin => exact hs
  | loader h =>
    obtain hs | hs := hs
    all_goals
      rw [hs] at h
      cases h.loaderTurn
    all_goals exact absurd rfl (hl.2 _ rfl)

/-- No reply is lost. If the plugin replies after it has found the event that was posted last, and before
the last look that a wait takes at the reply, then the wait ends with the acknowledgment, whatever the
platform answers to it. -/
theorem acknowledged_of_answered {read : Access} {answer : Except Platform.Error Ack}
    (hrun : Run s₀
      (before ++ .loader (.stored .event event) :: (during ++ .loader read :: after)) s)
    (hlatest : ∀ other, .notifies other ∉ during ++ after)
    (hanswered : [.plugin (.loaded .event event), .plugin (.stored .reply ok)].Sublist during)
    (hread : read.read? = some .reply)
    (hlast : ∀ a, .loader a ∈ after → a.read? ≠ some .reply)
    (hended : s.loader = .waited answer) : answer = .ok .acknowledged := by
  obtain ⟨s₁, -, hrun⟩ := run_append_iff.mp hrun
  obtain ⟨s₂, hpost, hrun⟩ := run_cons_iff.mp hrun
  obtain ⟨s₃, hduring, hrun⟩ := run_append_iff.mp hrun
  obtain ⟨s₄, hreading, hafter⟩ := run_cons_iff.mp hrun
  have hreply : s₃.words.reply = ok := by
    obtain ⟨-, hreply⟩ := hduring.reply_eq
      (fun other h => hlatest other (List.mem_append_left _ h)) fun other => (hpost.posted.1 other).1
    have hany : during.any Happening.answers = true :=
      List.any_eq_true.mpr ⟨_, hanswered.subset (.tail _ (.head _)), rfl⟩
    rw [hreply, hany]
    rfl
  have hseen : s₄.loader.satisfied := by
    cases hreading with
    | loader h => exact h.satisfied_of_read hread (by rw [hreply]; decide)
  have hdone : s.loader.satisfied := by
    refine hafter.keeps (I := fun s => s.loader.satisfied) (fun l hl => ⟨fun other h => ?_, ?_⟩)
      (fun hs hl hstep => hstep.satisfied hs hl) hseen
    · exact hlatest other (List.mem_append_right _ (h ▸ hl))
    · rintro a rfl
      exact hlast a hl
  rw [hended] at hdone
  obtain h | h := hdone
  · exact LoaderStage.waited.inj h
  · cases h

/-- The plugin finds the event and replies between the last two looks of a wait, which has timed out. -/
def lastMinute : List Happening :=
  [.loader (.signalled (.ok ())), .awaitsReply, .loader (.loaded .reply awaiting),
    .loader (.gaveUp .timeout), .awaitsEvent, .plugin (.loaded .event aboutToSwap), .replies,
    .plugin (.stored .reply ok)]

theorem acknowledged_of_answered_lastMinute :
    ∃ s answer, Run .initial ([.notifies aboutToSwap, .loader (.stored .reply awaiting)] ++
        .loader (.stored .event aboutToSwap) ::
          (lastMinute ++ .loader (.loaded .reply ok) :: [.plugin (.signalled (.ok ()))])) s ∧
      s.loader = .waited answer ∧ answer = .ok .acknowledged := by
  have hrun : Run .initial ([.notifies aboutToSwap, .loader (.stored .reply awaiting)] ++
      .loader (.stored .event aboutToSwap) ::
        (lastMinute ++ .loader (.loaded .reply ok) :: [.plugin (.signalled (.ok ()))]))
      ⟨⟨aboutToSwap, ok⟩, .waited (.ok .acknowledged), .replied (.ok ())⟩ := by
    refine .cons (.notify rfl _) (.cons (.loader (.store rfl)) (.cons (.loader (.store rfl)) ?_))
    refine .cons (.loader (.signal rfl _)) (.cons (.awaitReply rfl) (.cons (.loader (.load rfl)) ?_))
    refine .cons (.loader (.giveUp rfl _)) (.cons (.awaitEvent rfl) (.cons (.plugin (.load rfl)) ?_))
    refine .cons (.reply rfl) (.cons (.plugin (.store rfl)) (.cons (.loader (.load rfl)) ?_))
    exact .cons (.plugin (.signal rfl _)) .nil
  refine ⟨_, _, hrun, rfl, acknowledged_of_answered hrun ?_ ?_ rfl ?_ rfl⟩
  · simp [lastMinute]
  · refine .cons _ (.cons _ (.cons _ (.cons _ (.cons _ (.cons_cons _ (.cons _ (.cons_cons _ ?_)))))))
    exact List.Sublist.refl _
  · simp

end acknowledgment

section falsehood
variable {s₀ s : Exchange} {trace before arming during : List Happening} {event : Int32}

/-- The plugin replies once to each event that it obtains, if at all, and however late. -/
def Frugal (trace : List Happening) : Prop :=
  ∀ done, done <+: trace → done.countP Happening.answers ≤ done.countP Happening.obtains

instance (trace : List Happening) : Decidable (Frugal trace) :=
  decidable_of_iff (∀ done ∈ trace.inits,
      done.countP Happening.answers ≤ done.countP Happening.obtains)
    (forall_congr' fun done => imp_congr_left (List.mem_inits done trace))

theorem Happening.not_obtains_of_answers {l : Happening} (h : l.answers = true) :
    l.obtains = false := by
  obtain ⟨value, rfl⟩ := answers_iff.mp h
  rfl

/-- If there are more replies than events obtained at first, one comes after an event obtained later. -/
theorem Frugal.exists_obtained {earlier later : List Happening} (h : Frugal (earlier ++ later))
    (hmany : earlier.countP Happening.obtains < (earlier ++ later).countP Happening.answers) :
    ∃ done l rest, later = done ++ l :: rest ∧ l.obtains = true ∧
      ∃ reply ∈ rest, reply.answers = true := by
  induction later using List.reverseRecOn with
  | nil =>
    rw [List.append_nil] at h hmany
    exact absurd (h earlier List.prefix_rfl) (by omega)
  | append_singleton later l ih =>
    have hprefix : earlier ++ later <+: earlier ++ (later ++ [l]) :=
      ⟨[l], List.append_assoc ..⟩
    cases hl : l.answers with
    | false =>
      have hearlier : Frugal (earlier ++ later) := fun done hdone => h done (hdone.trans hprefix)
      obtain ⟨done, found, rest, rfl, hfound, reply, hreply, hanswers⟩ := ih hearlier (by
        simpa [← List.append_assoc, hl] using hmany)
      exact ⟨done, found, rest ++ [l], by simp, hfound, reply, List.mem_append_left _ hreply,
        hanswers⟩
    | true =>
      have hcount := h _ List.prefix_rfl
      have hobtained : 0 < later.countP Happening.obtains := by
        simp only [List.countP_append, List.countP_singleton, l.not_obtains_of_answers hl] at hmany hcount
        simp at hcount
        omega
      obtain ⟨found, hmem, hfound⟩ := List.countP_pos_iff.mp hobtained
      obtain ⟨done, rest, rfl⟩ := List.append_of_mem hmem
      exact ⟨done, found, rest ++ [l], by simp, hfound, l, by simp, hl⟩

theorem Run.ok_of_answered {t : Exchange} {ls : List Happening} (h : Run s ls t) {value : Int32}
    (hvalue : .plugin (.stored .reply value) ∈ ls) : value = ok := by
  induction h with
  | nil => cases hvalue
  | cons hstep _ ih =>
    obtain rfl | hvalue := List.mem_cons.mp hvalue
    · cases hstep with
      | plugin h =>
        obtain ⟨hstored, -⟩ | ⟨hstored, -⟩ := h.words_plugin
        · cases hstored
          rfl
        · exact absurd rfl (hstored _ _)
    · exact ih hvalue

/-- The loader goes on waiting for a reply that is not there. -/
def Exchange.unanswered (s : Exchange) : Prop :=
  (∀ event, s.loader ≠ .arming event) ∧ s.words.reply = awaiting ∧
    s.loader ≠ .waited (.ok .acknowledged)

theorem Step.unanswered {t : Exchange} {l : Happening} (h : Step s l t) (hs : s.unanswered)
    (hl : (∀ event, l ≠ .notifies event) ∧ l.answers = false) : t.unanswered := by
  obtain ⟨hstage, hreply, hwaited⟩ := hs
  obtain ⟨hstage', hreply'⟩ := h.reply_eq hl.1 hstage
  rw [hl.2, hreply] at hreply'
  refine ⟨hstage', hreply', ?_⟩
  have hlow : ¬ s.words.reply ≥ ok := by rw [hreply]; decide
  cases h with
  | notify | awaitReply => exact nofun
  | awaitEvent | reply | plugin => exact hwaited
  | loader h =>
    generalize s.loader = stage at h
    cases h.loaderTurn with
    | find hhigh | findLate hhigh => exact absurd hhigh hlow
    | _ => exact nofun

/-- The loader has set the reply back. -/
theorem Step.armed {t : Exchange} (h : Step s (.loader (.stored .reply awaiting)) t) :
    t.unanswered := by
  cases h with
  | loader h =>
    generalize s.loader = stage at h
    cases h.loaderTurn
    exact ⟨nofun, rfl, nofun⟩

theorem Run.exists_answer {t : Exchange} {ls : List Happening} (h : Run s ls t) (hs : s.unanswered)
    (hls : ∀ other, .notifies other ∉ ls) (hended : t.loader = .waited (.ok .acknowledged)) :
    ∃ l ∈ ls, l.answers = true := by
  by_contra hnone
  refine (h.keeps (I := Exchange.unanswered) (fun l hl => ⟨fun other heq => ?_, ?_⟩)
    (fun hs hl hstep => hstep.unanswered hs hl) hs).2.2 hended
  · exact hls other (heq ▸ hl)
  · exact Bool.eq_false_iff.mpr fun hanswers => hnone ⟨l, hl, hanswers⟩

/-- An event that the plugin obtains and then replies to is the one that is posted. -/
theorem Run.found_answered {t : Exchange} {done rest : List Happening} {found reply : Happening}
    (h : Run s (done ++ found :: rest) t) (hls : ∀ other, .notifies other ∉ done ++ found :: rest)
    (hs : ∀ event, s.loader ≠ .arming event ∧ s.loader ≠ .posting event)
    (hfound : found.obtains = true) (hreply : reply ∈ rest) (hanswers : reply.answers = true) :
    [.plugin (.loaded .event s.words.event), .plugin (.stored .reply ok)].Sublist
      (done ++ found :: rest) := by
  obtain ⟨value, -, rfl⟩ := Happening.obtains_iff.mp hfound
  obtain ⟨answer, rfl⟩ := Happening.answers_iff.mp hanswers
  obtain rfl : value = s.words.event := h.event_of_loaded hls hs (by simp)
  obtain rfl : answer = ok := h.ok_of_answered (by simp [hreply])
  have hrest := (List.singleton_sublist.mpr hreply).cons_cons
    (.plugin (.loaded .event s.words.event))
  exact hrest.trans (List.sublist_append_right _ _)

/-- An acknowledgment is not made up: the plugin has replied since the loader set the reply back. It has
replied after finding the event, too, unless all its replies can be put down to events that it had
obtained before this one was posted. -/
theorem answered_of_acknowledged
    (htrace : trace = before ++ .loader (.stored .reply awaiting) ::
      (arming ++ .loader (.stored .event event) :: during))
    (hrun : Run s₀ trace s) (hround : ∀ other, .notifies other ∉ arming ++ during)
    (hfrugal : Frugal trace) (hended : s.loader = .waited (.ok .acknowledged)) :
    (∃ l ∈ arming ++ during, l.answers = true) ∧
      ([.plugin (.loaded .event event), .plugin (.stored .reply ok)].Sublist during ∨
        trace.countP Happening.answers ≤ (before ++ arming).countP Happening.obtains) := by
  subst htrace
  obtain ⟨s₁, -, hsince⟩ := run_append_iff.mp hrun
  obtain ⟨s₂, harm, hsince⟩ := run_cons_iff.mp hsince
  obtain ⟨s₃, -, hposting⟩ := run_append_iff.mp hsince
  obtain ⟨s₄, hpost, hduring⟩ := run_cons_iff.mp hposting
  constructor
  · obtain ⟨l, hl, hanswers⟩ := hsince.exists_answer harm.armed
      (fun other h => hround other (by simpa using h)) hended
    refine ⟨l, ?_, hanswers⟩
    obtain hl | rfl | hl : l ∈ arming ∨ l = .loader (.stored .event event) ∨ l ∈ during := by
      simpa using hl
    · exact List.mem_append_left _ hl
    · cases hanswers
    · exact List.mem_append_right _ hl
  · refine or_iff_not_imp_right.mpr fun hmany => ?_
    have hwhole : before ++ .loader (.stored .reply awaiting) ::
        (arming ++ .loader (.stored .event event) :: during) =
        (before ++ .loader (.stored .reply awaiting) ::
          (arming ++ [.loader (.stored .event event)])) ++ during := by simp
    have hearlier : (before ++ Happening.loader (.stored .reply awaiting) ::
        (arming ++ [Happening.loader (.stored .event event)])).countP Happening.obtains =
          (before ++ arming).countP Happening.obtains := by
      simp [Happening.obtains]
    rw [hwhole] at hfrugal hmany
    obtain ⟨done, found, rest, rfl, hfound, reply, hreply, hanswers⟩ :=
      hfrugal.exists_obtained (by omega)
    obtain ⟨hstage, rfl⟩ := hpost.posted
    exact hduring.found_answered (fun other h => hround other (List.mem_append_right _ h)) hstage hfound
      hreply hanswers

/-- In the first round the plugin finds its event, and the loader gives up waiting for the reply. -/
def overslept : List Happening :=
  [.notifies aboutToSwap, .loader (.stored .reply awaiting), .loader (.stored .event aboutToSwap),
    .loader (.signalled (.ok ())), .awaitsEvent, .plugin (.loaded .event aboutToSwap), .awaitsReply,
    .loader (.loaded .reply awaiting), .loader (.gaveUp .timeout), .loader (.loaded .reply awaiting)]

theorem run_overslept (ls : List Happening) (h : Run
      ⟨⟨aboutToSwap, awaiting⟩, .waited (.ok .timedOut), .obtained (.ok aboutToSwap)⟩ ls s) :
    Run .initial (overslept ++ ls) s := by
  refine .cons (.notify rfl _) (.cons (.loader (.store rfl)) (.cons (.loader (.store rfl)) ?_))
  refine .cons (.loader (.signal rfl _)) (.cons (.awaitEvent rfl) (.cons (.plugin (.load rfl)) ?_))
  refine .cons (.awaitReply rfl) (.cons (.loader (.load rfl)) (.cons (.loader (.giveUp rfl _)) ?_))
  exact .cons (.loader (.load rfl)) h

/-- The plugin finds the event of the second round too, and replies to both. -/
def caughtUp : List Happening :=
  [.loader (.signalled (.ok ())), .awaitsEvent, .plugin (.loaded .event aboutToExit), .replies,
    .plugin (.stored .reply ok), .plugin (.signalled (.ok ())), .replies,
    .plugin (.stored .reply ok), .plugin (.signalled (.ok ())), .awaitsReply,
    .loader (.loaded .reply ok)]

theorem answered_of_acknowledged_caughtUp :
    ∃ s, Run .initial (overslept ++ [.notifies aboutToExit] ++ .loader (.stored .reply awaiting) ::
        ([] ++ .loader (.stored .event aboutToExit) :: caughtUp)) s ∧
      s.loader = .waited (.ok .acknowledged) ∧
      [.plugin (.loaded .event aboutToExit), .plugin (.stored .reply ok)].Sublist caughtUp := by
  have hrun : Run .initial (overslept ++ [.notifies aboutToExit] ++
      .loader (.stored .reply awaiting) :: ([] ++ .loader (.stored .event aboutToExit) :: caughtUp))
      ⟨⟨aboutToExit, ok⟩, .waited (.ok .acknowledged), .replied (.ok ())⟩ := by
    refine run_overslept _ ?_
    refine .cons (.notify rfl _) (.cons (.loader (.store rfl)) (.cons (.loader (.store rfl)) ?_))
    refine .cons (.loader (.signal rfl _)) (.cons (.awaitEvent rfl) (.cons (.plugin (.load rfl)) ?_))
    refine .cons (.reply rfl) (.cons (.plugin (.store rfl)) (.cons (.plugin (.signal rfl _)) ?_))
    refine .cons (.reply rfl) (.cons (.plugin (.store rfl)) (.cons (.plugin (.signal rfl _)) ?_))
    exact .cons (.awaitReply rfl) (.cons (.loader (.load rfl)) .nil)
  have hround : ∀ other, .notifies other ∉ [] ++ caughtUp := by simp [caughtUp]
  obtain ⟨-, hfound | hlate⟩ := answered_of_acknowledged rfl hrun hround (by decide) rfl
  · exact ⟨_, hrun, rfl, hfound⟩
  · exact absurd hlate (by decide)

/-- The plugin replies to the event of the first round when that of the second has been posted. -/
def lateReply : List Happening :=
  [.loader (.signalled (.ok ())), .replies, .plugin (.stored .reply ok), .plugin (.signalled (.ok ())),
    .awaitsReply, .loader (.loaded .reply ok)]

/-- A late reply counts for the next event, which the plugin has not seen. -/
theorem acknowledged_of_lateReply :
    ∃ trace s, trace = overslept ++ [.notifies aboutToExit, .loader (.stored .reply awaiting)] ++
        .loader (.stored .event aboutToExit) :: lateReply ∧
      Run .initial trace s ∧ Frugal trace ∧
      trace.countP Happening.answers = trace.countP Happening.obtains ∧
      (∀ other, .notifies other ∉ lateReply) ∧ s.loader = .waited (.ok .acknowledged) ∧
      ∀ value, .plugin (.loaded .event value) ∉ lateReply := by
  refine ⟨_, ⟨⟨aboutToExit, ok⟩, .waited (.ok .acknowledged), .replied (.ok ())⟩, rfl, ?_, by decide,
    by decide, by simp [lateReply], rfl, by simp [lateReply]⟩
  refine run_overslept _ ?_
  refine .cons (.notify rfl _) (.cons (.loader (.store rfl)) (.cons (.loader (.store rfl)) ?_))
  refine .cons (.loader (.signal rfl _)) (.cons (.reply rfl) (.cons (.plugin (.store rfl)) ?_))
  exact .cons (.plugin (.signal rfl _)) (.cons (.awaitReply rfl) (.cons (.loader (.load rfl)) .nil))

end falsehood
end PluginSlot.Handshake
