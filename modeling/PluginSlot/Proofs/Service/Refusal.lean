import PluginSlot.Proofs.Loader.Lifecycle
import PluginSlot.Proofs.Service.Answers

/-!
Requests that are refused. One that has the shape of no command, or whose parameters cannot be read,
leaves the loader as it was, but for the record of the request and an error that waited to be shown.
-/
namespace PluginSlot
open Platform (Act Call Handler Machine Stub)
open Loader Wire

namespace Loader.Error

/-- What is wrong is the request itself. -/
def isRefusal : Error → Bool
  | malformedRequest | tooLarge => true
  | _ => false

theorem code_ne_tooLarge {e : Error} (h : e ≠ .tooLarge) : e.code ≠ Code.tooLarge := by
  cases e with
  | tooLarge => exact absurd rfl h
  | platform e =>
    cases e with
    | kernel e => cases e <;> decide
    | _ => decide
  | _ => decide

/-- The codes of a refusal are nobody else's. -/
theorem isRefusal_of_code {e : Error}
    (h : e.code = Error.malformedRequest.code ∨ e.code = Error.tooLarge.code) : e.isRefusal = true := by
  obtain h | h := h
  · by_cases he : e = .malformedRequest
    · rw [he]
      rfl
    · exact absurd h (code_ne_malformedRequest he)
  · by_cases he : e = .tooLarge
    · rw [he]
      rfl
    · exact absurd h (code_ne_tooLarge he)

theorem isRefusal_ofPlatform (e : Platform.Error) : (ofPlatform e).isRefusal = false := by
  unfold ofPlatform
  split <;> rfl

end Loader.Error

namespace Service
variable {σ α β : Type}

/-- The request names no command, or it has another header, or other numbers of parameters and
descriptors, than the command it names. -/
def Request.Misshapen (r : Request) : Prop :=
  ∀ c : Command, c.id = (Header.decode r.header).command →
    r.header ≠ c.requestHeader ∨ r.params.length ≠ c.normalWords.toNat ∨
      r.descriptors.length * 2 ≠ c.translateWords.toNat

theorem Request.Misshapen.hasShape_eq_false {r : Request} (h : r.Misshapen) {c : Command}
    (hc : c.id = (Header.decode r.header).command) : r.hasShape c = false := by
  simp only [Request.hasShape, Bool.and_eq_false_iff, decide_eq_false_iff_not, or_assoc]
  exact h c hc

/-- If the computation refuses the request, it has done nothing. -/
def Cautious (x : Act Loader σ (Except Error α)) : Prop :=
  ∀ h m e, (x h m).1 = .error e → e.isRefusal = true → (x h m).2 = m

/-- The request itself is not what is wrong. -/
def Accepted (a : Except Error α) : Prop := ∀ e, a = .error e → e.isRefusal = false

theorem Accepted.ok (a : α) : Accepted (.ok a : Except Error α) := nofun

theorem Accepted.error {e : Error} (he : e.isRefusal = false) :
    Accepted (.error e : Except Error α) := by
  rintro _ ⟨⟩
  exact he

section rules
variable {x : Act Loader σ (Except Error α)}

theorem Cautious.of_accepted (hx : Gives x Accepted) : Cautious x := by
  intro h m e hanswer he
  rw [hx h m e hanswer] at he
  cases he

theorem Cautious.pure (a : Except Error α) : Cautious (Pure.pure a : Act Loader σ _) :=
  fun _ _ _ _ _ => rfl

/-- To look at the loader is to do nothing. -/
theorem Cautious.client {g : Loader → Act Loader σ (Except Error α)} (hg : ∀ l, Cautious (g l)) :
    Cautious (Act.client >>= g) := fun h m => hg m.client h m

end rules

theorem accepted_load (target : Kernel.Handle) : Gives (load target : Act Loader σ _) Accepted := by
  refine .last fun _ => .last fun l => ?_
  split
  · exact .last fun _ => .last fun _ => .pure (.error rfl)
  · split
    · refine .last fun answer => ?_
      cases answer with
      | error e => exact .pure (.error (Error.isRefusal_ofPlatform e))
      | ok _ => exact .pure (.ok _)
    · refine .last fun _ => .last fun _ => .last fun answer => ?_
      cases answer with
      | ok noFlash => exact .last fun _ => .pure (.ok _)
      | error e => exact .last fun _ => .pure (.error rfl)

section commands
variable (r : Request)

theorem cautious_loadPlugin : Cautious (loadPlugin r : Act Loader σ _) := by
  rw [loadPlugin]
  split
  · exact .pure _
  · refine .of_accepted (.bind (accepted_load _) fun answer hanswer => ?_)
    cases answer with
    | error e => exact .pure (.error (hanswer e rfl))
    | ok _ => exact .pure (.ok _)

theorem cautious_setLoadParameters : Cautious (setLoadParameters r : Act Loader σ _) := by
  rw [setLoadParameters]
  split
  · exact .pure _
  · exact .of_accepted (.last fun _ => .pure (.ok _))

theorem cautious_displayMenu : Cautious (displayMenu r : Act Loader σ _) := by
  rw [displayMenu]
  split
  · exact .pure _
  · refine .of_accepted (.last fun answer => ?_)
    cases answer with
    | error e => exact .pure (.error (Error.isRefusal_ofPlatform e))
    | ok shown => exact .pure (.ok _)

theorem cautious_displayMessage : Cautious (displayMessage r : Act Loader σ _) := by
  rw [displayMessage]
  split
  · exact .pure _
  · exact .of_accepted (.last fun _ => .pure (.ok _))

theorem cautious_displayError : Cautious (displayError r : Act Loader σ _) := by
  rw [displayError]
  split
  · exact .pure _
  · exact .of_accepted (.last fun _ => .pure (.ok _))

theorem cautious_getPluginPath : Cautious (getPluginPath r : Act Loader σ _) := by
  rw [getPluginPath]
  split
  · exact .pure _
  · refine .client fun l => ?_
    split <;> exact .pure _

/-- The commands that set swap and code-load parameters begin by dropping the old ones; all others read
their parameters first. -/
theorem cautious_perform {c : Command} (hc : c.id ≤ 11) : Cautious (perform r c : Act Loader σ _) := by
  cases c with
  | loadPlugin => exact cautious_loadPlugin r
  | isEnabled => exact .of_accepted (.last fun _ => .pure (.ok _))
  | setEnabled => exact .of_accepted (.last fun _ => .pure (.ok _))
  | setLoadParameters => exact cautious_setLoadParameters r
  | displayMenu => exact cautious_displayMenu r
  | displayMessage => exact cautious_displayMessage r
  | displayError => exact cautious_displayError r
  | getVersion => exact .pure _
  | getArbiter => exact .client fun _ => .pure _
  | getPluginPath => exact cautious_getPluginPath r
  | setUiBlock => exact .of_accepted (.last fun _ => .pure (.ok _))
  | setSwapParameters | setExeLoadParameters => exact absurd hc (by decide)

end commands

theorem CommandResult.result_ok {c : Command} {response : Response}
    (h : CommandResult c (.ok response)) : response.result = Code.success := by
  cases h <;> rfl

theorem result_failure (c : Command) (e : Error) : (Response.failure c e).result = e.code := by
  cases e <;> rfl

theorem failure_ne_success (c : Command) (e : Error) :
    (Response.failure c e).result ≠ Code.success := by
  rw [result_failure]
  intro hcode
  have hfailure := e.isFailure_code
  rw [hcode] at hfailure
  cases hfailure

section respond
variable {r : Request} (h : Handler Loader σ) (m : Machine Loader σ)

theorem respond_of_misshapen (hr : r.Misshapen) :
    ((respond r h m).1.result = Code.unknownCommand ∨
      (respond r h m).1.result = Code.malformedRequest) ∧
    ∃ line, (respond r h m).2 = (h (.debug line) m).2 := by
  rw [respond]
  cases hid : Command.ofId? (Header.decode r.header).command with
  | none => exact ⟨.inl rfl, _, rfl⟩
  | some c =>
    have hshape := hr.hasShape_eq_false (Command.ofId?_eq_some hid)
    show ((performChecked r c h m).1.result = _ ∨ (performChecked r c h m).1.result = _) ∧
      ∃ line, (performChecked r c h m).2 = _
    rw [performChecked, hshape]
    exact ⟨.inr rfl, _, rfl⟩

/-- A request that is refused has done nothing but maybe write a line about it. -/
theorem respond_of_refused (hr : r.Misshapen ∨ (Header.decode r.header).command ≤ 11 ∧
      ((respond r h m).1.result = Error.malformedRequest.code ∨
        (respond r h m).1.result = Error.tooLarge.code)) :
    (respond r h m).2 = m ∨ ∃ line, (respond r h m).2 = (h (.debug line) m).2 := by
  obtain hr | ⟨hcommand, hresult⟩ := hr
  · exact .inr (respond_of_misshapen h m hr).2
  rw [respond] at hresult ⊢
  cases hid : Command.ofId? (Header.decode r.header).command with
  | none => exact .inr ⟨_, rfl⟩
  | some c =>
    have hc : c.id ≤ 11 := Command.ofId?_eq_some hid ▸ hcommand
    rw [hid] at hresult
    change (performChecked r c h m).1.result = _ ∨ (performChecked r c h m).1.result = _ at hresult
    show (performChecked r c h m).2 = m ∨ ∃ line, (performChecked r c h m).2 = _
    rw [performChecked] at hresult ⊢
    split at hresult
    case isFalse hshape =>
      rw [if_neg hshape]
      exact .inr ⟨_, rfl⟩
    case isTrue hshape =>
      rw [if_pos hshape]
      have hperform := cautious_perform r hc h m
      have hanswer := result_perform r c h m
      rw [Act.bind_run] at hresult ⊢
      generalize perform r c h m = performed at hperform hanswer hresult ⊢
      obtain ⟨answer, m'⟩ := performed
      cases answer with
      | ok response =>
        have hsuccess : response.result = Code.success := hanswer.result_ok
        obtain hresult | hresult := hresult
        · exact absurd (hsuccess.symm.trans hresult) (by decide)
        · exact absurd (hsuccess.symm.trans hresult) (by decide)
      | error e =>
        change (Response.failure c e).result = _ ∨ (Response.failure c e).result = _ at hresult
        rw [result_failure] at hresult
        exact .inl (hperform e rfl (Error.isRefusal_of_code hresult))

end respond

/-- The calls that were made, oldest first. -/
def calls : List Sighting → List Call
  | [] => []
  | .begun _ :: earlier => calls earlier
  | .called _ c _ :: earlier => calls earlier ++ [c]

/-- The call that shows an error. -/
def showing (e : PendingError) : Call := .showError e.title e.code e.body

/-- A request was answered after these calls, and left this loader behind; then it was recorded, and an
error that waited to be shown was shown. -/
structure Handled (r : Request) (result : ResultCode) (before after : Machine Loader (σ × List Sighting))
    (l : Loader) (made : List Call) : Prop where
  loader : ∃ time, after.client = { l with
    pendingError := none
    journal := (l.journal.record time (.command (Header.decode r.header).command result)).2 }
  words : after.words = before.words
  status : after.status = before.status
  calls : calls after.platform.2 =
    calls before.platform.2 ++ made ++ .now :: l.pendingError.toList.map showing

/-- Of a request that was refused there is left a record, and maybe a line about it. An error that
waited to be shown has been shown. -/
structure Untouched (r : Request) (result : ResultCode)
    (before after : Machine Loader (σ × List Sighting)) : Prop where
  loader : ∃ time, after.client = { before.client with
    pendingError := none
    journal := (before.client.journal.record time
      (.command (Header.decode r.header).command result)).2 }
  words : after.words = before.words
  status : after.status = before.status
  calls : ∃ lines : List String, calls after.platform.2 = calls before.platform.2 ++
    lines.map .debug ++ .now :: before.client.pendingError.toList.map showing

section handle
variable {p : Platform σ} {m : Machine Loader (σ × List Sighting)}

/-- With nothing put off there is nothing to do. -/
theorem runPendingTasks_of_idle {h : Handler Loader σ} {m : Machine Loader σ}
    (hm : m.client.tasks = .empty) : runPendingTasks h m = (0, m) := by
  have hsame : { m.client with tasks := .empty } = m.client := by rw [← hm]
  show ((m.client.tasks.drain.1.length, (runTasks m.client.tasks.drain.1 h
    { m with client := { m.client with tasks := .empty } }).2) : Nat × Machine Loader σ) = (0, m)
  rw [hsame, hm]
  rfl

theorem record_effect (event : Event) (m : Machine Loader (σ × List Sighting)) :
    ∃ time platform, (record event (watch p) m).2 =
        { m with
          client := { m.client with journal := (m.client.journal.record time event).2 }
          platform := platform } ∧
      calls platform.2 = calls m.platform.2 ++ [.now] := ⟨_, _, rfl, rfl⟩

/-- An error that waits to be shown is shown, and waits no more. -/
theorem showPendingError_effect (m : Machine Loader (σ × List Sighting)) :
    ∃ platform, (showPendingError (watch p) m).2 =
        { m with client := { m.client with pendingError := none }, platform := platform } ∧
      calls platform.2 = calls m.platform.2 ++ m.client.pendingError.toList.map showing := by
  rw [showPendingError, Act.bind_run, Act.client]
  cases hpending : m.client.pendingError with
  | none =>
    have hsame : { m.client with pendingError := none } = m.client := by rw [← hpending]
    refine ⟨m.platform, ?_, (List.append_nil _).symm⟩
    rw [hsame]
    rfl
  | some e => exact ⟨_, rfl, rfl⟩

/-- What comes after the response to a request is the record, and the error that waits. -/
theorem handled_of_recorded {before : Machine Loader (σ × List Sighting)} {r : Request} {made : List Call}
    (response : Response) (hwords : m.words = before.words) (hstatus : m.status = before.status)
    (hidle : m.client.tasks = .empty)
    (hcalls : calls m.platform.2 = calls before.platform.2 ++ made) :
    Handled r response.result before
      ((do
        record (.command (Header.decode r.header).command response.result)
        showPendingError
        let _ ← runPendingTasks
        pure response : Act Loader (σ × List Sighting) Response) (watch p) m).2 m.client made := by
  obtain ⟨time, platform, hrecord, hclock⟩ := record_effect (p := p)
    (.command (Header.decode r.header).command response.result) m
  rw [Act.bind_run, hrecord, Act.bind_run]
  generalize hrecorded : Machine.mk _ m.words m.status platform = recorded
  obtain ⟨shown, hshow, hshown⟩ := showPendingError_effect (p := p) recorded
  rw [hshow]
  show Handled r response.result before (runPendingTasks (watch p) _).2 m.client made
  rw [runPendingTasks_of_idle]
  · subst hrecorded
    refine ⟨⟨time, rfl⟩, hwords, hstatus, hshown.trans ?_⟩
    show calls platform.2 ++ m.client.pendingError.toList.map showing = _
    rw [hclock, hcalls, ← List.append_cons]
  · subst hrecorded
    exact hidle

theorem untouched_of_recorded {before : Machine Loader (σ × List Sighting)} {r : Request}
    (response : Response) (hclient : m.client = before.client) (hwords : m.words = before.words)
    (hstatus : m.status = before.status) (hidle : before.client.tasks = .empty)
    (hcalls : ∃ lines : List String,
      calls m.platform.2 = calls before.platform.2 ++ lines.map .debug) :
    Untouched r response.result before
      ((do
        record (.command (Header.decode r.header).command response.result)
        showPendingError
        let _ ← runPendingTasks
        pure response : Act Loader (σ × List Sighting) Response) (watch p) m).2 := by
  obtain ⟨lines, hlines⟩ := hcalls
  have hhandled := handled_of_recorded (p := p) (r := r) response hwords hstatus (hclient ▸ hidle) hlines
  rw [hclient] at hhandled
  exact ⟨hhandled.loader, hwords ▸ hhandled.words, hhandled.status, lines, by simpa using hhandled.calls⟩

/-- What the response and the loader are after the response, they are in the end. -/
theorem handled_handle {r : Request} {response : Response} {m' : Machine Loader (σ × List Sighting)}
    {made : List Call} (hrespond : respond r (watch p) m = (response, m')) (hwords : m'.words = m.words)
    (hstatus : m'.status = m.status) (hidle : m'.client.tasks = .empty)
    (hcalls : calls m'.platform.2 = calls m.platform.2 ++ made) :
    (handle r (watch p) m).1 = response ∧
      Handled r response.result m (handle r (watch p) m).2 m'.client made := by
  rw [handle, Act.bind_run, hrespond]
  exact ⟨rfl, handled_of_recorded response hwords hstatus hidle hcalls⟩

/-- A request that is refused leaves everything as it was, but for the record of it. -/
theorem untouched_handle (r : Request) (hidle : m.client.tasks = .empty)
    (hr : r.Misshapen ∨ (Header.decode r.header).command ≤ 11 ∧
      ((handle r (watch p) m).1.result = Error.malformedRequest.code ∨
        (handle r (watch p) m).1.result = Error.tooLarge.code)) :
    Untouched r (handle r (watch p) m).1.result m (handle r (watch p) m).2 := by
  have hrespond := respond_of_refused (watch p) m hr
  rw [handle, Act.bind_run]
  generalize respond r (watch p) m = responded at hrespond ⊢
  obtain ⟨response, m'⟩ := responded
  obtain rfl | ⟨line, rfl⟩ := hrespond
  · exact untouched_of_recorded response rfl rfl rfl hidle ⟨[], (List.append_nil _).symm⟩
  · exact untouched_of_recorded response rfl rfl rfl hidle ⟨[line], rfl⟩

end handle

section career
variable (p : Platform σ) (config : Config) (s : σ)

/-- The loader as it is when a request begins. -/
def facing (ops : List Operation) (r : Request) : Machine Loader (σ × List Sighting) :=
  { career p config s ops with
    platform := ((career p config s ops).platform.1,
      .begun (.request r) :: (career p config s ops).platform.2) }

@[simp]
theorem client_facing (ops : List Operation) (r : Request) :
    (facing p config s ops r).client = (career p config s ops).client := rfl

theorem handled_career {ops : List Operation} {r : Request} {response : Response}
    {m : Machine Loader (σ × List Sighting)} (made : List Call)
    (hrespond : respond r (watch p) (facing p config s ops r) = (response, m))
    (hwords : m.words = (career p config s ops).words)
    (hstatus : m.status = (career p config s ops).status)
    (htasks : m.client.tasks = (career p config s ops).client.tasks)
    (hcalls : calls m.platform.2 = calls (career p config s ops).platform.2 ++ made) :
    (follow p (.request r) (career p config s ops)).1 = .response response ∧
      Handled r response.result (career p config s ops) (career p config s (ops ++ [.request r]))
        m.client made := by
  have hidle := htasks.trans (filed_idle_career p config s ops).2.tasks
  obtain ⟨hresponse, hhandled⟩ := handled_handle hrespond hwords hstatus hidle hcalls
  rw [career_concat]
  exact ⟨congrArg Outcome.response hresponse,
    hhandled.loader, hhandled.words, hhandled.status, hhandled.calls⟩

/-- Requests that are refused change nothing, whatever has happened before. -/
theorem untouched_career (ops : List Operation) (r : Request) : ∃ response,
    (follow p (.request r) (career p config s ops)).1 = .response response ∧
    (r.Misshapen →
      response.result = Code.unknownCommand ∨ response.result = Code.malformedRequest) ∧
    (r.Misshapen ∨ (Header.decode r.header).command ≤ 11 ∧
        (response.result = Error.malformedRequest.code ∨
          response.result = Error.tooLarge.code) →
      Untouched r response.result (career p config s ops)
        (career p config s (ops ++ [.request r]))) := by
  have hidle := (filed_idle_career p config s ops).2.tasks
  rw [career_concat]
  refine ⟨_, rfl, fun hr => (respond_of_misshapen (watch p) _ hr).1, fun hr => ?_⟩
  have huntouched := untouched_handle (p := p)
    (m := { career p config s ops with
      platform := ((career p config s ops).platform.1,
        .begun (.request r) :: (career p config s ops).platform.2) }) r hidle hr
  exact ⟨huntouched.loader, huntouched.words, huntouched.status, huntouched.calls⟩

/-- A buffer of four bytes is too small for the path of the plugin. -/
theorem untouched_career_path :
    ∃ response, (follow Stub.platform (.request ⟨0x000A0002, [], [.buffer [0, 0, 0, 0]]⟩)
        (career Stub.platform .default .initial [.setEnabled true, .load ⟨0x102⟩])).1 =
          .response response ∧
      response.result = Code.tooLarge ∧
      Untouched ⟨0x000A0002, [], [.buffer [0, 0, 0, 0]]⟩ Code.tooLarge
        (career Stub.platform .default .initial [.setEnabled true, .load ⟨0x102⟩])
        (career Stub.platform .default .initial [.setEnabled true, .load ⟨0x102⟩,
          .request ⟨0x000A0002, [], [.buffer [0, 0, 0, 0]]⟩]) := by
  obtain ⟨response, hresponse, -, huntouched⟩ := untouched_career Stub.platform .default .initial
    [.setEnabled true, .load ⟨0x102⟩] ⟨0x000A0002, [], [.buffer [0, 0, 0, 0]]⟩
  have hrefused : (follow Stub.platform (.request ⟨0x000A0002, [], [.buffer [0, 0, 0, 0]]⟩)
      (career Stub.platform .default .initial [.setEnabled true, .load ⟨0x102⟩])).1 =
        .response (.failure .getPluginPath .tooLarge) := by decide +kernel
  obtain rfl : response = .failure .getPluginPath .tooLarge := by
    rw [hrefused] at hresponse
    exact (Outcome.response.inj hresponse).symm
  exact ⟨_, hrefused, rfl, huntouched (.inr ⟨by decide, .inr rfl⟩)⟩

end career
end Service
end PluginSlot
