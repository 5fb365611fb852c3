import PluginSlot.Proofs.Loader.Chronicle
import PluginSlot.Proofs.Loader.Return

/-!
The loader asks the plugin, and goes its way whatever it is told. Two courses that differ in the plugin
and in how the talk with it ends are followed side by side: they do the same, but for the records of the
talk itself.
-/
namespace PluginSlot
open Platform Loader

/-- The answer depends on the plugin, or on how long it takes, or does not matter to anybody. -/
def Platform.Call.isTalk : Call → Bool
  | .signal _ _ _ | .wait _ _ _ _ _ | .now | .debug _ => true
  | _ => false

/-- Somebody who answers these calls. The reply is in his hands at all times. -/
structure Partner (τ : Type) extends Platform τ where
  reply : Platform.Call → τ → Int32 → Int32

/-- The partner, and the rest of the world with the calls that it has answered, oldest first. -/
structure Company (σ τ : Type) where
  world : σ
  calls : List Platform.Call
  partner : τ

namespace Loader
variable {σ τ α β : Type}

/-- The partner hears of every call. -/
def beside (p : Platform σ) (q : Partner τ) : Handler Loader (Company σ τ) := fun c m =>
  let told := q.answer c m.platform.partner
  let words := { m.words with reply := q.reply c m.platform.partner m.words.reply }
  if c.isTalk then
    (told.1, { m with words := words, platform := { m.platform with partner := told.2 } })
  else
    let (a, s) := p.answer c m.platform.world
    (a, { m with words := words, platform := ⟨s, m.platform.calls ++ [c], told.2⟩ })

/-- What the partner has no say in. -/
structure Affairs (σ : Type) where
  /-- All but the journal. -/
  loader : Loader
  event : Int32
  status : UInt32
  world : σ
  calls : List Platform.Call

def affairs (m : Machine Loader (Company σ τ)) : Affairs σ where
  loader := withoutJournal m.client
  event := m.words.event
  status := m.status
  world := m.platform.world
  calls := m.platform.calls

def Affairs.post (v : Affairs σ) (event : Int32) : Affairs σ := { v with event := event }

/-- All but the record of a handshake that failed. -/
def Event.isBusiness (event : Event) : Bool := !event.isHandshake

theorem Event.isBusiness_of_isHandshake (event : Event) (h : event.isHandshake = true) :
    event.isBusiness = false := by
  rw [isBusiness, h]
  rfl

/-- Two courses of a computation come to the same. -/
structure Agrees (h k : Handler Loader (Company σ τ)) (x : Act Loader (Company σ τ) α)
    (m n : Machine Loader (Company σ τ)) : Prop where
  result : (x h m).1 = (x k n).1
  affairs : affairs (x h m).2 = affairs (x k n).2
  entries : ∃ es fs : List Entry, eventsOf Event.isBusiness es = eventsOf Event.isBusiness fs ∧
    (x h m).2.client.journal = m.client.journal.recordAll es ∧
    (x k n).2.client.journal = n.client.journal.recordAll fs

/-- The computation comes to the same whoever the partner is. -/
def Indifferent (p : Platform σ) (q r : Partner τ) (x : Act Loader (Company σ τ) α) : Prop :=
  ∀ m n, affairs m = affairs n → Agrees (beside p q) (beside p r) x m n

section rules
variable {p : Platform σ} {q r : Partner τ} {x : Act Loader (Company σ τ) α}
  {g : α → Act Loader (Company σ τ) β}

theorem discreet_beside : Discreet (beside p q) := by
  intro c m
  rw [beside]
  split <;> rfl

theorem affairs_call {c : Call} (hc : c.isTalk = true) :
    (Act.call c : Act Loader (Company σ τ) _).Keeps (beside p q) affairs := by
  intro m
  rw [Act.call, beside, if_pos hc]
  rfl

theorem beside_of_not_talk {c : Call} (hc : c.isTalk = false) (m : Machine Loader (Company σ τ)) :
    (beside p q c m).1 = (p.answer c m.platform.world).1 ∧ affairs (beside p q c m).2 =
      { affairs m with
        world := (p.answer c m.platform.world).2, calls := m.platform.calls ++ [c] } := by
  rw [beside, if_neg (by rw [hc]; decide)]
  exact ⟨rfl, rfl⟩

/-- Nothing is entered. -/
theorem Indifferent.of_keeps (hresult : ∀ m n, affairs m = affairs n →
      (x (beside p q) m).1 = (x (beside p r) n).1 ∧
      affairs (x (beside p q) m).2 = affairs (x (beside p r) n).2)
    (hq : x.Keeps (beside p q) fun m => m.client.journal)
    (hr : x.Keeps (beside p r) fun m => m.client.journal) : Indifferent p q r x :=
  fun m n hmn => ⟨(hresult m n hmn).1, (hresult m n hmn).2, [], [], rfl, hq m, hr n⟩

theorem Indifferent.pure (a : α) :
    Indifferent p q r (Pure.pure a : Act Loader (Company σ τ) α) :=
  .of_keeps (fun _ _ hmn => ⟨rfl, hmn⟩) (.pure a) (.pure a)

theorem Indifferent.bind (hx : Indifferent p q r x) (hg : ∀ a, Indifferent p q r (g a)) :
    Indifferent p q r (x >>= g) := by
  intro m n hmn
  obtain ⟨hresult, haffairs, es, fs, hown, hes, hfs⟩ := hx m n hmn
  obtain ⟨hresult', haffairs', es', fs', hown', hes', hfs'⟩ :=
    hg (x (beside p r) n).1 _ _ haffairs
  have hfirst : (x >>= g) (beside p q) m =
      g (x (beside p r) n).1 (beside p q) (x (beside p q) m).2 := by
    rw [Act.bind_run, hresult]
  refine ⟨?_, ?_, es ++ es', fs ++ fs', ?_, ?_, ?_⟩
  · rw [hfirst, Act.bind_run, hresult']
  · rw [hfirst, Act.bind_run, haffairs']
  · rw [eventsOf_append, eventsOf_append, hown, hown']
  · rw [hfirst, hes', hes, Journal.recordAll_append]
  · rw [Act.bind_run, hfs', hfs, Journal.recordAll_append]

/-- What follows may depend on the loader, but not on its journal. -/
theorem Indifferent.client {g : Loader → Act Loader (Company σ τ) β}
    (hg : ∀ l, Indifferent p q r (g l)) (hj : ∀ l j, g { l with journal := j } = g l) :
    Indifferent p q r (Act.client >>= g) := by
  intro m n hmn
  have hsame : g n.client = g m.client := by
    rw [← hj n.client (.new 0), ← hj m.client (.new 0)]
    exact congrArg (fun v => g v.loader) hmn.symm
  have hagrees := hg m.client m n hmn
  have hrun : (Act.client >>= g) (beside p r) n = g m.client (beside p r) n :=
    congrFun (congrFun hsame _) _
  refine ⟨hagrees.result.trans ?_, hagrees.affairs.trans ?_, ?_⟩
  · rw [hrun]
  · rw [hrun]
  · obtain ⟨es, fs, hown, hes, hfs⟩ := hagrees.entries
    exact ⟨es, fs, hown, hes, hrun ▸ hfs⟩

/-- A change of the loader that has nothing to do with the journal. -/
theorem indifferent_modify {e : Loader → Loader}
    (he : ∀ l j, e { l with journal := j } = { e l with journal := j }) :
    Indifferent p q r (Act.modifyClient e) := by
  have hjournal (l : Loader) : (e l).journal = l.journal := by
    have hsame := congrArg Loader.journal (he l l.journal)
    exact hsame
  refine .of_keeps (fun m n hmn => ⟨rfl, ?_⟩) (fun m => hjournal m.client) fun m => hjournal m.client
  have hloader : withoutJournal (e m.client) = withoutJournal (e n.client) :=
    calc withoutJournal (e m.client)
      _ = e (withoutJournal m.client) := (he _ _).symm
      _ = e (withoutJournal n.client) := congrArg (fun v => e v.loader) hmn
      _ = withoutJournal (e n.client) := he _ _
  show { affairs m with loader := withoutJournal (e m.client) } =
    { affairs n with loader := withoutJournal (e n.client) }
  rw [hmn, hloader]

theorem indifferent_call {c : Call} (hc : c.isTalk = false) :
    Indifferent p q r (Act.call c : Act Loader (Company σ τ) _) := by
  refine .of_keeps (fun m n hmn => ?_) (fun m => congrArg (·.journal) (discreet_beside c m))
    fun m => congrArg (·.journal) (discreet_beside c m)
  obtain ⟨hm, hm'⟩ := beside_of_not_talk (p := p) (q := q) hc m
  obtain ⟨hn, hn'⟩ := beside_of_not_talk (p := p) (q := r) hc n
  have hworld : m.platform.world = n.platform.world := congrArg Affairs.world hmn
  have hcalls : m.platform.calls = n.platform.calls := congrArg Affairs.calls hmn
  refine ⟨?_, ?_⟩
  · rw [Act.call, Act.call, hm, hn, hworld]
  · rw [Act.call, Act.call, hm', hn', hmn, hworld, hcalls]

theorem indifferent_debug (line : String) :
    Indifferent p q r (Act.debug line : Act Loader (Company σ τ) _) :=
  .of_keeps (fun m n hmn => ⟨rfl, (affairs_call (p := p) (q := q) rfl m).trans
      (hmn.trans (affairs_call (p := p) (q := r) rfl n).symm)⟩)
    (fun m => congrArg (·.journal) (discreet_beside (p := p) (q := q) _ m))
    fun m => congrArg (·.journal) (discreet_beside (p := p) (q := r) _ m)

theorem indifferent_status : Indifferent p q r (Act.status : Act Loader (Company σ τ) _) :=
  .of_keeps (fun _ _ hmn => ⟨congrArg Affairs.status hmn, hmn⟩) (fun _ => rfl) fun _ => rfl

theorem indifferent_setStatus (value : UInt32) :
    Indifferent p q r (Act.setStatus value : Act Loader (Company σ τ) _) := by
  intro m n hmn
  have hcall := indifferent_call (p := p) (q := q) (r := r) (c := .writeStatus value) rfl m n hmn
  refine ⟨rfl, ?_, hcall.entries⟩
  exact congrArg (fun v : Affairs σ => { v with status := value }) hcall.affairs

theorem indifferent_setEvent (event : Int32) :
    Indifferent p q r (Act.setWord .event event : Act Loader (Company σ τ) _) :=
  .of_keeps (fun _ _ hmn => ⟨rfl, congrArg (·.post event) hmn⟩) (fun _ => rfl) fun _ => rfl

theorem affairs_record (event : Event) :
    (record event : Act Loader (Company σ τ) _).Keeps (beside p q) affairs :=
  fun m => affairs_call (p := p) (c := .now) rfl m

/-- The times may differ. -/
theorem indifferent_record (event : Event) :
    Indifferent p q r (record event : Act Loader (Company σ τ) _) := by
  intro m n hmn
  refine ⟨rfl, ?_, _, _, ?_, journal_record discreet_beside event m,
    journal_record discreet_beside event n⟩
  · rw [affairs_record event m, affairs_record event n, hmn]
  · rfl

theorem indifferent_onBlock (op : Region.Block → α × Region.Block) :
    Indifferent p q r (onBlock op : Act Loader (Company σ τ) α) :=
  .client (fun _ => .bind (indifferent_modify fun _ _ => rfl) fun _ => .pure _) fun _ _ => rfl

theorem indifferent_onBlockAct {op : Region.Block → Act Loader (Company σ τ) (α × Region.Block)}
    (hop : ∀ b, Indifferent p q r (op b)) : Indifferent p q r (onBlockAct op) :=
  .client (fun l => .bind (hop l.block) fun _ => .bind (indifferent_modify fun _ _ => rfl) fun _ =>
    .pure _) fun _ _ => rfl

end rules

section talk
variable {p : Platform σ} {q r : Partner τ} {h : Handler Loader (Company σ τ)} {event : Int32}
  {x : Act Loader (Company σ τ) α} {g : α → Act Loader (Company σ τ) β}

/-- Of all that the partner has no say in, only the event is changed. -/
def Posts (h : Handler Loader (Company σ τ)) (event : Int32) (x : Act Loader (Company σ τ) α) : Prop :=
  ∀ m, affairs (x h m).2 = (affairs m).post event

theorem Posts.bind (hx : Posts h event x) (hg : ∀ a, (g a).Keeps h affairs) :
    Posts h event (x >>= g) := fun m => (hg _ _).trans (hx m)

theorem affairs_signal (arbiter : Kernel.Handle) (word : Handshake.SharedWord) :
    (Handshake.signal arbiter word : Act Loader (Company σ τ) _).Keeps (beside p q) affairs :=
  fun m => affairs_call (p := p) (c := .signal arbiter word (m.words.get word)) rfl m

theorem affairs_debug (line : String) :
    (Act.debug line : Act Loader (Company σ τ) _).Keeps (beside p q) affairs := affairs_call rfl

theorem affairs_waitForReply (arbiter : Kernel.Handle) (timeout : UInt64) :
    (Handshake.waitForReply arbiter timeout : Act Loader (Company σ τ) _).Keeps (beside p q)
      affairs := by
  refine .bind (fun _ => rfl) fun words => ?_
  split
  · exact .pure _
  · refine .bind (.bind (fun _ => rfl) fun words => ?_) fun answer => ?_
    · exact .bind (affairs_call rfl) fun answer => .bind (fun _ => rfl) fun _ => .pure _
    · split <;> exact .pure _

theorem posts_notify (arbiter : Kernel.Handle) (event : Int32) :
    Posts (beside p q) event (Handshake.notify arbiter event : Act Loader (Company σ τ) _) :=
  fun m => affairs_signal (p := p) arbiter .event { m with words := ⟨event, Handshake.awaiting⟩ }

theorem posts_shakeHands (arbiter : Kernel.Handle) (event : Int32) (kind : HandshakeKind) :
    Posts (beside p q) event (shakeHands arbiter event kind : Act Loader (Company σ τ) _) := by
  refine .bind (.bind (posts_notify arbiter event) fun answer => ?_) fun answer => ?_
  · cases answer with
    | error e => exact .pure _
    | ok _ => exact .bind (fun _ => rfl) fun _ => affairs_waitForReply _ _
  · split
    · exact .pure _
    · exact .bind (affairs_debug _) fun _ => affairs_record _
    · exact .bind (affairs_debug _) fun _ => affairs_record _

/-- A talk comes to the same, because nobody listens to how it ends. -/
theorem indifferent_talk {x : Act Loader (Company σ τ) Unit} (event : Int32)
    (hx : ∀ q : Partner τ, Posts (beside p q) event x)
    (hentries : ∀ q : Partner τ, Enters (beside p q) Event.isHandshake x) :
    Indifferent p q r x := by
  intro m n hmn
  obtain ⟨es, hes, hm⟩ := hentries q m
  obtain ⟨fs, hfs, hn⟩ := hentries r n
  refine ⟨rfl, ?_, es, fs, ?_, hm, hn⟩
  · rw [hx q m, hx r n, hmn]
  · rw [eventsOf_eq_nil Event.isBusiness_of_isHandshake hes,
      eventsOf_eq_nil Event.isBusiness_of_isHandshake hfs]

theorem indifferent_shakeHands (arbiter : Kernel.Handle) (event : Int32) (kind : HandshakeKind) :
    Indifferent p q r (shakeHands arbiter event kind : Act Loader (Company σ τ) _) :=
  indifferent_talk event (fun _ => posts_shakeHands _ _ _) fun _ =>
    enters_shakeHands discreet_beside _ _ _

/-- The plugin is told that it may go on, and nobody waits for it. -/
theorem indifferent_resume (line : String) (arbiter : Kernel.Handle) (event : Int32) :
    Indifferent p q r (do debugPlatform line (← Handshake.notify arbiter event) :
      Act Loader (Company σ τ) Unit) := by
  refine indifferent_talk event (fun q => .bind (posts_notify arbiter event) fun answer => ?_) fun q =>
    .bind (enters_notify discreet_beside _ _) fun answer => enters_debugPlatform discreet_beside _ _
  cases answer with
  | error e => exact affairs_debug _
  | ok _ => exact .pure _

end talk

section program
variable {p : Platform σ} {q r : Partner τ} (target : Kernel.Handle)

theorem indifferent_transition (state : SlotState) :
    Indifferent p q r (transition state : Act Loader (Company σ τ) _) := by
  refine .client (fun l => ?_) fun _ _ => rfl
  refine .bind (indifferent_modify fun _ _ => rfl) fun _ => ?_
  exact .bind (indifferent_setStatus _) fun _ => indifferent_record _

theorem indifferent_debugRegion (line : String) (a : Except Region.Error Unit) :
    Indifferent p q r (debugRegion line a : Act Loader (Company σ τ) _) := by
  cases a with
  | error e => exact indifferent_debug _
  | ok _ => exact .pure _

theorem indifferent_debugPlatform (line : String) (a : Except Platform.Error α) :
    Indifferent p q r (debugPlatform line a : Act Loader (Company σ τ) _) := by
  cases a with
  | error e => exact indifferent_debug _
  | ok _ => exact .pure _

theorem indifferent_mount :
    Indifferent p q r (onBlockAct (·.mount target) : Act Loader (Company σ τ) _) := by
  refine indifferent_onBlockAct fun b => ?_
  rw [Region.Block.mount]
  split
  · exact .bind (indifferent_call rfl) fun answer => by cases answer <;> exact .pure _
  · exact .pure _

theorem indifferent_unmount :
    Indifferent p q r (onBlockAct (·.unmount target) : Act Loader (Company σ τ) _) := by
  refine indifferent_onBlockAct fun b => ?_
  rw [Region.Block.unmount]
  split
  · exact .bind (indifferent_call rfl) fun answer => by cases answer <;> exact .pure _
  · exact .pure _

theorem indifferent_writeOut :
    Indifferent p q r (onBlockAct (·.writeOut) : Act Loader (Company σ τ) _) := by
  refine indifferent_onBlockAct fun b => ?_
  rw [Region.Block.writeOut]
  split
  · split
    · exact .pure _
    · split
      · exact .pure _
      · exact .bind (indifferent_call rfl) fun answer => by cases answer <;> exact .pure _
  · exact .pure _

theorem indifferent_readBack :
    Indifferent p q r (onBlockAct (·.readBack) : Act Loader (Company σ τ) _) := by
  refine indifferent_onBlockAct fun b => ?_
  rw [Region.Block.readBack]
  split
  · refine .bind (indifferent_call rfl) fun answer => ?_
    cases answer with
    | error e => exact .pure _
    | ok data =>
      dsimp only
      split <;> exact .pure _
  · exact .pure _

theorem indifferent_teardown :
    Indifferent p q r (teardown target : Act Loader (Company σ τ) _) := by
  refine .client (fun l => ?_) fun _ _ => rfl
  split
  · exact indifferent_debug _
  · dsimp only
    split
    case' isTrue =>
      refine .bind (indifferent_unmount target) fun a => ?_
      refine .bind (indifferent_debugRegion _ a) fun _ => ?_
    all_goals
      refine .bind (indifferent_onBlock _) fun a => .bind (indifferent_debugRegion _ a) fun _ => ?_
      refine .bind (indifferent_call rfl) fun closed => ?_
      refine .bind (indifferent_debugPlatform _ closed) fun _ => ?_
      refine .bind (indifferent_modify fun _ _ => rfl) fun _ => ?_
      refine .bind (indifferent_setEvent _) fun _ => ?_
      exact .bind (indifferent_transition _) fun _ => indifferent_record _

theorem indifferent_runTasks (tasks : List Task) :
    Indifferent p q r (runTasks tasks : Act Loader (Company σ τ) _) := by
  induction tasks with
  | nil => exact .pure _
  | cons task tasks ih =>
    cases task with
    | teardown target => exact .bind (indifferent_teardown target) fun _ => ih

theorem indifferent_runPendingTasks :
    Indifferent p q r (runPendingTasks : Act Loader (Company σ τ) _) := by
  refine .client (fun l => ?_) fun _ _ => rfl
  refine .bind (indifferent_modify fun _ _ => rfl) fun _ => ?_
  exact .bind (indifferent_runTasks _) fun _ => .pure _

theorem indifferent_unexpected (word : UInt32) :
    Indifferent p q r (unexpected word : Act Loader (Company σ τ) _) :=
  .bind (indifferent_debug _) fun _ => .bind (indifferent_record _) fun _ => .pure _

theorem indifferent_onExit (word : UInt32) :
    Indifferent p q r (onExit word : Act Loader (Company σ τ) _) := by
  have hqueue (l : Loader) : Indifferent p q r (do
      Act.modifyClient fun now =>
        { now with exitPending := true, tasks := (now.tasks.push (.teardown l.target)).2 }
      record (.teardownQueued l.target)
      pure (.ok ()) : Act Loader (Company σ τ) (Except Error Unit)) :=
    .bind (indifferent_modify fun _ _ => rfl) fun _ => .bind (indifferent_record _) fun _ => .pure _
  refine .client (fun l => ?_) fun _ _ => rfl
  split
  · exact indifferent_unexpected _
  · split
    · exact .pure _
    · dsimp only
      split
      · exact .bind (indifferent_shakeHands _ _ _) fun _ => hqueue l
      · exact hqueue l

theorem indifferent_swapOut : Indifferent p q r (swapOut : Act Loader (Company σ τ) _) := by
  refine .client (fun l => ?_) fun l _ => bind_congr fun answer => by cases answer <;> rfl
  refine .bind (indifferent_call rfl) fun answer => ?_
  cases answer
  all_goals
    refine .bind (indifferent_debug _) fun _ => ?_
    refine .bind (indifferent_unmount _) fun a => .bind (indifferent_debugRegion _ a) fun _ => ?_
    refine .bind indifferent_writeOut fun written => ?_
    cases written with
    | ok _ =>
      refine .bind (indifferent_onBlock _) fun a => .bind (indifferent_debugRegion _ a) fun _ => ?_
      exact indifferent_transition _
    | error e =>
      refine .bind (indifferent_debug _) fun _ => ?_
      exact .bind (indifferent_transition _) fun _ => indifferent_record _

theorem indifferent_restore :
    Indifferent p q r (restore target : Act Loader (Company σ τ) _) := by
  refine .client (fun l => ?_) fun _ _ => rfl
  dsimp only
  split
  case' isTrue => refine .bind indifferent_readBack fun restored => ?_
  case' isFalse => refine .bind (.pure _) fun restored => ?_
  all_goals
    cases restored with
    | error e => exact .pure _
    | ok _ => exact indifferent_mount target

theorem indifferent_swapIn : Indifferent p q r (swapIn : Act Loader (Company σ τ) _) := by
  refine .client (fun l => ?course) fun l _ => bind_congr fun restored => ?journal
  case journal =>
    cases restored with
    | error e => rfl
    | ok _ => exact bind_congr fun unlocked => by cases unlocked <;> rfl
  case course =>
    refine .bind (indifferent_restore _) fun restored => ?_
    cases restored with
    | error e =>
      exact .bind (indifferent_debug _) fun _ => .bind (indifferent_record _) fun _ => .pure _
    | ok _ =>
      refine .bind (indifferent_call rfl) fun unlocked => ?_
      cases unlocked
      all_goals
        refine .bind (indifferent_debug _) fun _ => ?_
        exact .bind (indifferent_transition _) fun _ => .pure _

theorem indifferent_onSwap (word : UInt32) :
    Indifferent p q r (onSwap word : Act Loader (Company σ τ) _) := by
  refine .client (fun l => ?_) fun _ _ => rfl
  split
  · exact .bind (indifferent_debug _) fun _ => indifferent_unexpected _
  · split
    · exact indifferent_unexpected _
    · refine .bind (indifferent_shakeHands _ _ _) fun _ => ?_
      exact .bind indifferent_swapOut fun _ => .pure _
    · refine .bind indifferent_swapIn fun back => ?_
      split
      · have hresume : Indifferent p q r (do
            debugPlatform "[plgldr] resume signal failed: "
              (← Handshake.notify l.arbiter Handshake.ok) : Act Loader (Company σ τ) Unit) :=
          indifferent_resume _ _ _
        exact hresume.bind fun _ => .pure (Except.ok ())
      · exact .pure _

theorem indifferent_handleNotification :
    Indifferent p q r (handleNotification : Act Loader (Company σ τ) _) := by
  have hrest (result : Except Error Unit) : Indifferent p q r (do
        Act.call (.publish lifecycleHandled)
        let _ ← runPendingTasks
        pure result : Act Loader (Company σ τ) (Except Error Unit)) :=
    .bind (indifferent_call rfl) fun _ => .bind indifferent_runPendingTasks fun _ => .pure _
  refine .bind indifferent_status fun word => .bind (indifferent_setStatus _) fun _ => ?_
  dsimp only
  split
  · exact .bind (.pure _) hrest
  · split
    · exact .bind (indifferent_onExit word) hrest
    · split
      · exact .bind (indifferent_onSwap word) hrest
      · exact .bind (indifferent_unexpected word) hrest

end program

/-- A notification is handled the same way whatever the plugin replies and however the handshake ends.
What two courses leave behind differs in the reply, and in the journal by no more than the records of
handshakes. -/
theorem handleNotification_agrees (p : Platform σ) (q r : Partner τ) (l : Loader)
    (words : Handshake.Words) (status : UInt32) (s : σ) (t u : τ) :
    Agrees (beside p q) (beside p r) handleNotification ⟨l, words, status, s, [], t⟩
      ⟨l, words, status, s, [], u⟩ := indifferent_handleNotification _ _ rfl

end Loader
end PluginSlot
