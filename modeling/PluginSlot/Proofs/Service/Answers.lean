import PluginSlot.Proofs.Loader.Chronicle
import PluginSlot.Proofs.Service.InRange

/-!
The service answers every request whatsoever, with a response whose header agrees with what it carries,
and records it once.
-/
namespace PluginSlot
open Platform (Act Handler Machine handler)
open Loader Wire

namespace Loader.Error

theorem code_ne_unknownCommand {e : Error} (h : e ≠ .notImplemented) :
    e.code ≠ Code.unknownCommand := by
  cases e with
  | notImplemented => exact absurd rfl h
  | platform e =>
    cases e with
    | kernel e => cases e <;> decide
    | _ => decide
  | _ => decide

theorem code_ne_malformedRequest {e : Error} (h : e ≠ .malformedRequest) :
    e.code ≠ Code.malformedRequest := by
  cases e with
  | malformedRequest => exact absurd rfl h
  | platform e =>
    cases e with
    | kernel e => cases e <;> decide
    | _ => decide
  | _ => decide

end Loader.Error

theorem Wire.Command.id_ne_zero (c : Command) : c.id ≠ 0 := by
  cases c <;> decide

namespace Service
variable {σ α β : Type}

/-- The response fits the request, and its header fits what it carries. -/
structure Response.Answers (response : Response) (r : Request) : Prop where
  normal : (Header.decode response.header).normal.toNat = 1 + response.values.length
  translate : (Header.decode response.header).translate.toNat = 2 * response.descriptors.length
  /-- The response names no command if the request could not be taken for one. -/
  unnamed : (Header.decode response.header).command = 0 ↔
    response.result = Code.unknownCommand ∨ response.result = Code.malformedRequest
  named : (Header.decode response.header).command ≠ 0 →
    (Header.decode response.header).command = (Header.decode r.header).command
  failure : response.result ≠ Code.success →
    isFailure response.result = true ∧ response.values = [] ∧ response.descriptors = []

section responses
variable {r : Request} {c : Command} {e : Error}

theorem answers_unnamed {result : ResultCode} (hfailure : isFailure result = true)
    (h : result = Code.unknownCommand ∨ result = Code.malformedRequest) :
    (Response.status 0 result).Answers r := by
  have hheader : Header.decode (Response.status 0 result).header = ⟨0, 1, 0⟩ :=
    Header.decode_makeHeader ..
  constructor
  · rw [hheader]; rfl
  · rw [hheader]; rfl
  · rw [hheader]; exact iff_of_true rfl h
  · rw [hheader]; exact fun hid => absurd rfl hid
  · exact fun _ => ⟨hfailure, rfl, rfl⟩

section named
variable (hc : c.id = (Header.decode r.header).command)
include hc

theorem answers_refused (he : e ≠ .notImplemented) (hm : e ≠ .malformedRequest) :
    (Response.status c.id e.code).Answers r := by
  have hheader : Header.decode (Response.status c.id e.code).header = ⟨c.id, 1, 0⟩ :=
    Header.decode_makeHeader ..
  constructor
  · rw [hheader]; rfl
  · rw [hheader]; rfl
  · rw [hheader]
    exact iff_of_false c.id_ne_zero
      (not_or.mpr ⟨e.code_ne_unknownCommand he, e.code_ne_malformedRequest hm⟩)
  · rw [hheader]; exact fun _ => hc
  · exact fun _ => ⟨e.isFailure_code, rfl, rfl⟩

theorem answers_done {response : Response} {normal translate : UInt8}
    (hheader : Header.decode response.header = ⟨c.id, normal, translate⟩)
    (hresult : response.result = Code.success)
    (hnormal : normal.toNat = 1 + response.values.length)
    (htranslate : translate.toNat = 2 * response.descriptors.length) : response.Answers r := by
  constructor
  · rw [hheader]; exact hnormal
  · rw [hheader]; exact htranslate
  · rw [hheader, hresult]
    exact iff_of_false c.id_ne_zero (by decide)
  · rw [hheader]; exact fun _ => hc
  · exact fun hfailed => absurd hresult hfailed

end named

/-- What a command comes to. None is refused as unknown. -/
inductive CommandResult (c : Command) : Except Error Response → Prop where
  | done : CommandResult c (.ok (.ok c))
  | value (value : UInt32) : CommandResult c (.ok (.withValue c value))
  | descriptor (d : Descriptor) : CommandResult c (.ok (.withDescriptor c d))
  | refused {e : Error} (he : e ≠ .notImplemented) : CommandResult c (.error e)

theorem CommandResult.answers {a : Except Error Response} (h : CommandResult c a)
    (hc : c.id = (Header.decode r.header).command) : (match a with
      | .ok response => response
      | .error e => Response.failure c e).Answers r := by
  cases h with
  | done =>
    have hheader : Header.decode (Response.ok c).header = ⟨c.id, 1, 0⟩ :=
      Header.decode_makeHeader ..
    exact answers_done hc hheader rfl rfl rfl
  | value value =>
    have hheader : Header.decode (Response.withValue c value).header = ⟨c.id, 2, 0⟩ :=
      Header.decode_makeHeader ..
    exact answers_done hc hheader rfl rfl rfl
  | descriptor d =>
    have hheader : Header.decode (Response.withDescriptor c d).header = ⟨c.id, 1, 2⟩ :=
      Header.decode_makeHeader ..
    exact answers_done hc hheader rfl rfl rfl
  | @refused e he =>
    by_cases hm : e = .malformedRequest
    · subst hm
      exact answers_unnamed (Error.isFailure_code _) (.inr rfl)
    · have hfailure : Response.failure c e = .status c.id e.code := by
        cases e with
        | malformedRequest => exact absurd rfl hm
        | _ => rfl
      show (Response.failure c e).Answers r
      rw [hfailure]
      exact answers_refused hc he hm

end responses

section readings
variable (r : Request)

/-- What is refused is not refused as an unknown command. -/
def Known (a : Except Error α) : Prop := ∀ e, a = .error e → e ≠ .notImplemented

theorem Known.ok (a : α) : Known (.ok a : Except Error α) := nofun

theorem Known.error {e : Error} (he : e ≠ .notImplemented) : Known (.error e : Except Error α) := by
  rintro _ ⟨⟩
  exact he

theorem Known.bind {a : Except Error α} {f : α → Except Error β} (ha : Known a)
    (hf : ∀ x, Known (f x)) : Known (a >>= f) := by
  cases a with
  | error e => exact .error (ha e rfl)
  | ok x => exact hf x

theorem known_orMalformed (a : Option α) : Known (Request.orMalformed a) := by
  cases a with
  | none => exact .error nofun
  | some a => exact .ok a

theorem known_ofParameter (a : Except ParameterError α) : Known (a.mapError Error.ofParameter) := by
  cases a with
  | error e => cases e <;> exact .error nofun
  | ok a => exact .ok a

theorem known_buffer (i : Nat) : Known (r.buffer i) := by
  rw [Request.buffer]
  split
  · exact .ok _
  · exact .error nofun

theorem known_handle (i : Nat) : Known (r.handle i) := by
  rw [Request.handle]
  split
  · exact .ok _
  · exact .error nofun

theorem known_text (i : Nat) : Known (r.text i) :=
  .bind (known_buffer r i) fun _ => known_orMalformed _

theorem known_texts (i : Nat) : Known (r.texts i) :=
  .bind (known_buffer r i) fun _ => known_orMalformed _

theorem known_words (i : Nat) : Known (r.words i) := by
  refine .bind (known_buffer r i) fun bytes => ?_
  split
  · exact .error nofun
  · split
    · exact .error nofun
    · exact .ok _

theorem known_wordIn (i : Nat) : Known (r.wordIn i) := by
  refine .bind (known_buffer r i) fun bytes => ?_
  split
  · exact .ok _
  · exact .error nofun

theorem known_loadParameters : Known r.loadParameters :=
  .bind (known_text r 0) fun _ => .bind (known_words r 1) fun _ => known_ofParameter _

theorem known_box : Known r.box :=
  .bind (known_text r 0) fun _ => .bind (known_text r 1) fun _ => .ok _

theorem known_swapSettings (filename : String) : Known (r.swapSettings filename) :=
  .bind (known_wordIn r 0) fun _ => .bind (known_text r 1) fun _ => known_ofParameter _

theorem known_menu : Known r.menu := by
  refine .bind (known_text r 0) fun title => .bind (known_buffer r 1) fun states => ?_
  refine .bind (known_texts r 2) fun labels => .bind (known_texts r 3) fun hints => ?_
  split
  · exact .error nofun
  · exact .ok _

theorem ofPlatform_ne_notImplemented (e : Platform.Error) : Error.ofPlatform e ≠ .notImplemented := by
  unfold Error.ofPlatform
  split <;> exact nofun

end readings

/-- What a computation returns, in whatever state it starts. -/
def Gives (x : Act Loader σ α) (Q : α → Prop) : Prop := ∀ h m, Q (x h m).1

theorem Gives.pure {a : α} {Q : α → Prop} (ha : Q a) : Gives (Pure.pure a : Act Loader σ α) Q :=
  fun _ _ => ha

theorem Gives.bind {x : Act Loader σ α} {g : α → Act Loader σ β} {P : α → Prop} {Q : β → Prop}
    (hx : Gives x P) (hg : ∀ a, P a → Gives (g a) Q) : Gives (x >>= g) Q :=
  fun h m => hg _ (hx h m) _ _

/-- It does not matter what comes first. -/
theorem Gives.last {x : Act Loader σ α} {g : α → Act Loader σ β} {Q : β → Prop}
    (hg : ∀ a, Gives (g a) Q) : Gives (x >>= g) Q := fun _ _ => hg _ _ _

theorem known_load (target : Kernel.Handle) : Gives (load target : Act Loader σ _) Known := by
  refine .last fun _ => .last fun l => ?_
  split
  · exact .last fun _ => .last fun _ => .pure (.error nofun)
  · split
    · refine .last fun answer => ?_
      cases answer with
      | error e => exact .pure (.error (ofPlatform_ne_notImplemented e))
      | ok _ => exact .pure (.ok _)
    · refine .last fun _ => .last fun _ => .last fun answer => ?_
      cases answer with
      | ok noFlash => exact .last fun _ => .pure (.ok _)
      | error e => exact .last fun _ => .pure (.error nofun)

section commands
variable (r : Request)

theorem result_loadPlugin :
    Gives (loadPlugin r : Act Loader σ _) (CommandResult .loadPlugin) := by
  rw [loadPlugin]
  have hhandle := known_handle r 0
  cases hread : r.handle 0 with
  | error e => exact .pure (.refused (hhandle e hread))
  | ok target =>
    refine .bind (known_load target) fun answer hanswer => ?_
    cases answer with
    | error e => exact .pure (.refused (hanswer e rfl))
    | ok _ => exact .pure .done

theorem result_setLoadParameters :
    Gives (setLoadParameters r : Act Loader σ _) (CommandResult .setLoadParameters) := by
  rw [setLoadParameters]
  cases hread : r.loadParameters with
  | error e => exact .pure (.refused (known_loadParameters r e hread))
  | ok p => exact .last fun _ => .pure .done

theorem result_displayMenu :
    Gives (displayMenu r : Act Loader σ _) (CommandResult .displayMenu) := by
  rw [displayMenu]
  cases hread : r.menu with
  | error e => exact .pure (.refused (known_menu r e hread))
  | ok m =>
    refine .last fun answer => ?_
    cases answer with
    | error e => exact .pure (.refused (ofPlatform_ne_notImplemented e))
    | ok shown => exact .pure (.descriptor _)

theorem result_displayMessage :
    Gives (displayMessage r : Act Loader σ _) (CommandResult .displayMessage) := by
  rw [displayMessage]
  cases hread : r.box with
  | error e => exact .pure (.refused (known_box r e hread))
  | ok b => exact .last fun _ => .pure .done

theorem result_displayError :
    Gives (displayError r : Act Loader σ _) (CommandResult .displayError) := by
  rw [displayError]
  cases hread : r.box with
  | error e => exact .pure (.refused (known_box r e hread))
  | ok b => exact .last fun _ => .pure .done

theorem result_getPluginPath :
    Gives (getPluginPath r : Act Loader σ _) (CommandResult .getPluginPath) := by
  rw [getPluginPath]
  cases hread : r.buffer 0 with
  | error e => exact .pure (.refused (known_buffer r 0 e hread))
  | ok bytes =>
    refine .last fun l => ?_
    split
    · exact .pure (.refused (by decide))
    · exact .pure (.descriptor _)

theorem result_setSwapParameters :
    Gives (setSwapParameters r : Act Loader σ _) (CommandResult .setSwapParameters) := by
  refine .last fun l => .last fun _ => ?_
  cases hread : r.swapSettings l.config.defaultSwapFilename with
  | error e => exact .pure (.refused (known_swapSettings r _ e hread))
  | ok settings => exact .last fun _ => .last fun _ => .pure .done

theorem result_setExeLoadParameters :
    Gives (setExeLoadParameters r : Act Loader σ _) (CommandResult .setExeLoadParameters) := by
  refine .last fun _ => ?_
  cases hread : r.words 0 with
  | error e => exact .pure (.refused (known_words r 0 e hread))
  | ok context =>
    refine .last fun _ => ?_
    split
    · rename_i e _
      exact .pure (.refused (by cases e <;> exact nofun))
    · exact .last fun _ => .pure .done

theorem result_perform (c : Command) :
    Gives (perform r c : Act Loader σ _) (CommandResult c) := by
  cases c with
  | loadPlugin => exact result_loadPlugin r
  | isEnabled => exact .last fun _ => .pure (.value _)
  | setEnabled => exact .last fun _ => .pure .done
  | setLoadParameters => exact result_setLoadParameters r
  | displayMenu => exact result_displayMenu r
  | displayMessage => exact result_displayMessage r
  | displayError => exact result_displayError r
  | getVersion => exact .pure (.value _)
  | getArbiter => exact .last fun _ => .pure (.descriptor _)
  | getPluginPath => exact result_getPluginPath r
  | setUiBlock => exact .last fun _ => .pure .done
  | setSwapParameters => exact result_setSwapParameters r
  | setExeLoadParameters => exact result_setExeLoadParameters r

theorem answers_respond : Gives (respond r : Act Loader σ _) (·.Answers r) := by
  rw [respond]
  cases hid : Command.ofId? (Header.decode r.header).command with
  | none => exact .last fun _ => .pure (answers_unnamed (Error.isFailure_code _) (.inl rfl))
  | some c =>
    have hc : c.id = (Header.decode r.header).command := Command.ofId?_eq_some hid
    show Gives (performChecked r c) (·.Answers r)
    rw [performChecked]
    split
    · refine .bind (result_perform r c) fun answer hanswer => ?_
      have hanswers := hanswer.answers hc
      cases answer <;> exact .pure hanswers
    · exact .last fun _ => .pure (answers_unnamed (Error.isFailure_code _) (.inr rfl))

end commands

section journal
variable {h : Handler Loader σ} (hh : Discreet h) (r : Request)

theorem enters_setLoadParameters :
    Enters h Event.isOwn (setLoadParameters r : Act Loader σ _) := by
  rw [setLoadParameters]
  split
  · exact .pure _
  · exact .bind (enters_modify fun _ => rfl) fun _ => .pure _

theorem enters_getPluginPath : Enters h Event.isOwn (getPluginPath r : Act Loader σ _) := by
  rw [getPluginPath]
  split
  · exact .pure _
  · refine .bind enters_client fun l => ?_
    split <;> exact .pure _

include hh

theorem enters_displayMenu : Enters h Event.isOwn (displayMenu r : Act Loader σ _) := by
  rw [displayMenu]
  split
  · exact .pure _
  · refine .bind (enters_call hh _) fun answer => ?_
    cases answer <;> exact .pure _

theorem enters_displayMessage : Enters h Event.isOwn (displayMessage r : Act Loader σ _) := by
  rw [displayMessage]
  split
  · exact .pure _
  · exact .bind (enters_call hh _) fun _ => .pure _

theorem enters_displayError : Enters h Event.isOwn (displayError r : Act Loader σ _) := by
  rw [displayError]
  split
  · exact .pure _
  · exact .bind (enters_call hh _) fun _ => .pure _

theorem enters_setSwapParameters :
    Enters h Event.isOwn (setSwapParameters r : Act Loader σ _) := by
  refine .bind enters_client fun l => .bind (enters_modify fun _ => rfl) fun _ => ?_
  split
  · exact .pure _
  · exact .bind (enters_modify fun _ => rfl) fun _ => .bind (enters_call hh _) fun _ => .pure _

theorem enters_setExeLoadParameters :
    Enters h Event.isOwn (setExeLoadParameters r : Act Loader σ _) := by
  refine .bind (enters_modify fun _ => rfl) fun _ => ?_
  split
  · exact .pure _
  · refine .bind (enters_modify fun _ => rfl) fun _ => ?_
    split
    · exact .pure _
    · exact .bind (enters_call hh _) fun _ => .pure _

theorem enters_loadPlugin : Enters h Event.isOwn (loadPlugin r : Act Loader σ _) := by
  rw [loadPlugin]
  split
  · exact .pure _
  · refine .bind (enters_load hh _) fun answer => ?_
    cases answer <;> exact .pure _

theorem enters_setEnabled (enabled : Bool) :
    Enters h Event.isOwn (setEnabled enabled : Act Loader σ _) := by
  refine .bind enters_client fun l => .bind (enters_modify fun _ => rfl) fun _ => ?_
  split
  · exact enters_call hh _
  · exact .pure _

theorem enters_perform (c : Command) : Enters h Event.isOwn (perform r c : Act Loader σ _) := by
  cases c with
  | loadPlugin => exact enters_loadPlugin hh r
  | isEnabled => exact .bind enters_client fun _ => .pure _
  | setEnabled => exact .bind (enters_setEnabled hh _) fun _ => .pure _
  | setLoadParameters => exact enters_setLoadParameters r
  | displayMenu => exact enters_displayMenu hh r
  | displayMessage => exact enters_displayMessage hh r
  | displayError => exact enters_displayError hh r
  | getVersion => exact .pure _
  | getArbiter => exact .bind enters_client fun _ => .pure _
  | getPluginPath => exact enters_getPluginPath r
  | setUiBlock => exact .bind (enters_modify fun _ => rfl) fun _ => .pure _
  | setSwapParameters => exact enters_setSwapParameters hh r
  | setExeLoadParameters => exact enters_setExeLoadParameters hh r

theorem enters_respond : Enters h Event.isOwn (respond r : Act Loader σ _) := by
  rw [respond]
  split
  · rw [performChecked]
    split
    · refine .bind (enters_perform hh r _) fun answer => ?_
      cases answer <;> exact .pure _
    · exact .bind (enters_debug hh _) fun _ => .pure _
  · exact .bind (enters_debug hh _) fun _ => .pure _

theorem enters_showPendingError : Enters h Event.isOwn (showPendingError : Act Loader σ _) := by
  refine .bind enters_client fun l => ?_
  split
  · exact .pure _
  · exact .bind (enters_modify fun _ => rfl) fun _ => enters_call hh _

end journal

/-- Of all that is entered in the course of a request, just one entry is about the request. -/
theorem exists_command_handle {h : Handler Loader σ} (hh : Discreet h) (r : Request)
    (m : Machine Loader σ) : ∃ entries : List Entry,
      (handle r h m).2.client.journal = m.client.journal.recordAll entries ∧
      eventsOf Event.isCommand entries =
        [.command (Header.decode r.header).command (handle r h m).1.result] := by
  obtain ⟨first, hfirst, hrespond⟩ := enters_respond hh r m
  generalize hresponse : respond r h m = answered at hrespond
  obtain ⟨response, m₁⟩ := answered
  have hrest : Enters h Event.isOwn (do
      showPendingError
      let _ ← runPendingTasks
      pure response : Act Loader σ Response) :=
    .bind (enters_showPendingError hh) fun _ => .bind (enters_runPendingTasks hh) fun _ => .pure _
  generalize hrecorded :
    (record (.command (Header.decode r.header).command response.result) h m₁).2 = m₂
  obtain ⟨last, hlast, hend⟩ := hrest m₂
  have hrun : handle r h m = (do
      showPendingError
      let _ ← runPendingTasks
      pure response : Act Loader σ Response) h m₂ := by
    rw [handle, Act.bind_run, hresponse, Act.bind_run, hrecorded]
  let entered : Entry :=
    ⟨(h .now m₁).1, .command (Header.decode r.header).command response.result⟩
  refine ⟨first ++ entered :: last, ?_, ?_⟩
  · rw [hrun, hend, ← hrecorded, journal_record hh, hrespond, ← Journal.recordAll_append,
      ← Journal.recordAll_append]
    rfl
  · have hrequest : eventsOf Event.isCommand (entered :: last) =
        entered.event :: eventsOf Event.isCommand last := rfl
    rw [eventsOf_append, hrequest, eventsOf_eq_nil Event.isCommand_of_isOwn hfirst,
      eventsOf_eq_nil Event.isCommand_of_isOwn hlast, hrun]
    rfl

/-- Every request is answered, whatever it looks like and whatever state the loader is in: nothing that is
read by position is out of range, the response is well formed, and the request is recorded once. -/
theorem handle_answers (p : Platform σ) (r : Request) (m : Machine Loader σ) :
    ∃ response after, handle r (handler p) m = (response, after) ∧
      (Strict.handle r).run (handler p) m = (some response, after) ∧ response.Answers r ∧
      ∃ entries : List Entry, after.client.journal = m.client.journal.recordAll entries ∧
        eventsOf Event.isCommand entries =
          [.command (Header.decode r.header).command response.result] := by
  refine ⟨_, _, rfl, Strict.inRange_handle r (handler p) m, ?_,
    exists_command_handle (discreet_handler p) r m⟩
  have hanswers : Gives (handle r : Act Loader σ _) (·.Answers r) :=
    .bind (answers_respond r) fun response hresponse =>
      .last fun _ => .last fun _ => .last fun _ => .pure hresponse
  exact hanswers (handler p) m

end Service
end PluginSlot
