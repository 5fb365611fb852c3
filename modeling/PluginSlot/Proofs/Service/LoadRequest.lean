import PluginSlot.Proofs.Service.NextLoad
import PluginSlot.Proofs.Service.Reading

/-!
A path and some words on their way from a request to the plugin. What the buffers of the request say is
what the next load of the title passes on, and the path can be asked for from then on.
-/
namespace PluginSlot
open Platform (Act Call Handler Machine Stub)
open Loader Wire

namespace Service
variable {σ : Type}

/-- A request for the next load of a title: the path of the plugin, and some words for it. -/
def loadRequest (flags lowTitleId : UInt32) (path words : List UInt8) : Request :=
  ⟨Command.setLoadParameters.requestHeader, [flags, lowTitleId], [.buffer path, .buffer words]⟩

/-- A request for the path of the plugin, with room for the answer. -/
def pathRequest (room : List UInt8) : Request :=
  ⟨Command.getPluginPath.requestHeader, [], [.buffer room]⟩

section request
variable {p : Platform σ} {r : Request} {params : LoadParameters}

theorem Request.loadParameters_eq_ok_iff :
    r.loadParameters = .ok params ↔ r.Carries params ∧ params.path.utf8ByteSize ≤ maxPathLength := by
  have hread : r.loadParameters = .ok params ↔ ∃ path config, r.text 0 = .ok path ∧
      r.words 1 = .ok config ∧ LoadParameters.make (r.param 0) (r.param 1) path config = .ok params := by
    show (r.text 0).bind (fun path => (r.words 1).bind fun config =>
      (LoadParameters.make _ _ path config).mapError .ofParameter) = _ ↔ _
    simp [bind_eq_ok_iff, mapError_eq_ok_iff]
  rw [hread]
  constructor
  · rintro ⟨path, config, hpath, hconfig, hmake⟩
    rw [LoadParameters.make] at hmake
    split at hmake
    · cases hmake
    case isFalse hfits =>
      cases hmake
      exact ⟨⟨hpath, hconfig, rfl, rfl⟩, Nat.le_of_not_lt (not_or.mp hfits).1⟩
  · obtain ⟨noFlash, lowTitleId, path, config⟩ := params
    rintro ⟨⟨hpath, hconfig, rfl, rfl⟩, hfits⟩
    have hwords := (words_eq_ok_iff.mp hconfig).2
    refine ⟨path, config, hpath, hconfig, ?_⟩
    rw [LoadParameters.make, if_neg (not_or.mpr ⟨Nat.not_lt.mpr hfits, Nat.not_lt.mpr hwords⟩)]

theorem loadParameters_loadRequest (flags lowTitleId : UInt32) {bytes words : List UInt8} {path : String}
    {ws : List UInt32} (hbytes : Spells bytes path) (hpath : path.utf8ByteSize ≤ maxPathLength)
    (hwords : words = ws.flatMap wordBytes) (hws : ws.length ≤ maxConfigWords) :
    (loadRequest flags lowTitleId bytes words).loadParameters =
      .ok ⟨decide (flags &&& LoadParameters.noFlashFlag ≠ 0), lowTitleId, path, ws⟩ := by
  subst hwords
  refine Request.loadParameters_eq_ok_iff.mpr ⟨⟨?_, ?_, rfl, rfl⟩, hpath⟩
  · exact Request.text_eq_ok_iff.mpr ⟨bytes, rfl, hbytes⟩
  · exact Request.words_eq_ok_iff.mpr ⟨rfl, hws⟩

/-- What is too long in a load request: the path, the list of words, or the last word. -/
def Overlong (bytes words : List UInt8) : Prop :=
  (∃ path, Spells bytes path ∧ maxPathLength < path.utf8ByteSize) ∨
    (∃ ws : List UInt32, words = ws.flatMap wordBytes ∧ maxConfigWords < ws.length) ∨
    words.length % 4 ≠ 0

theorem not_overlong_of_loadParameters {flags lowTitleId : UInt32} {bytes words : List UInt8}
    (hread : (loadRequest flags lowTitleId bytes words).loadParameters = .ok params) :
    ¬Overlong bytes words := by
  obtain ⟨hcarries, hfits⟩ := Request.loadParameters_eq_ok_iff.mp hread
  obtain ⟨_, ⟨⟩, hbytes⟩ := Request.text_eq_ok_iff.mp hcarries.path
  obtain ⟨hbuffer, hconfig⟩ := Request.words_eq_ok_iff.mp hcarries.config
  obtain rfl : words = params.config.flatMap wordBytes := by
    cases hbuffer
    rfl
  have hwords := words?_flatMap_wordBytes params.config
  rintro (⟨path, hpath, hlong⟩ | ⟨ws, hws, hmany⟩ | hpart)
  · have hsame := (cString_eq_some_iff.mpr hbytes).symm.trans (cString_eq_some_iff.mpr hpath)
    rw [Option.some.inj hsame] at hfits
    omega
  · have hsame := hwords.symm.trans (words?_eq_some_iff.mpr hws)
    rw [Option.some.inj hsame] at hconfig
    omega
  · rw [length_of_words? hwords] at hpart
    omega

theorem Request.sets?_of_hasShape (hshape : r.hasShape .setLoadParameters = true) :
    r.sets? = r.loadParameters.toOption := by
  simp only [sets?, ofId?_of_hasShape hshape, hshape, if_true]

theorem perform_loadRequest {m : Machine Loader (σ × List Sighting)} :
    perform r .setLoadParameters (watch p) m = match r.loadParameters with
      | .error e => (.error e, m)
      | .ok params =>
        (.ok (.ok .setLoadParameters), { m with client := { m.client with nextLoad := some params } }) := by
  rw [perform, setLoadParameters]
  cases r.loadParameters <;> rfl

theorem perform_pathRequest {room : List UInt8} {m : Machine Loader (σ × List Sighting)} :
    perform (pathRequest room) .getPluginPath (watch p) m =
      (if room.length ≤ m.client.pluginPath.utf8ByteSize then .error .tooLarge
        else .ok (.withDescriptor .getPluginPath
          (.buffer (zeroFilled room.length (Text.encode m.client.pluginPath)))), m) := by
  have hclient : Act.client (watch p) m = (m.client, m) := rfl
  have hbuffer : (pathRequest room).buffer 0 = .ok room := rfl
  rw [perform, getPluginPath, hbuffer]
  dsimp only
  rw [Act.bind_run, hclient]
  by_cases hroom : room.length ≤ m.client.pluginPath.utf8ByteSize
  · rw [if_pos (Nat.lt_succ_of_le hroom), if_pos hroom]
    rfl
  · rw [if_neg fun h => hroom (Nat.le_of_lt_succ h), if_neg hroom]
    rfl

end request

section career
variable (p : Platform σ) (config : Config) (s : σ)

theorem pluginPath_concat (ops : List Operation) (op : Operation) :
    (career p config s (ops ++ [op])).client.pluginPath =
      ((effort (career p config s (ops ++ [op])).platform.2).attempts.getLast?.map (·.path)).getD
        (career p config s ops).client.pluginPath := by
  cases hload : op.loads? with
  | some target =>
    obtain ⟨_, hventured, -⟩ := ventured_career p config s ops hload
    exact hventured.path rfl
  | none =>
    rw [effort_career_of_idle p config s ops (.inl hload)]
    cases hset : op.sets? with
    | some params => exact congrArg (·.1.2.2) (pursuit_career_of_sets p config s ops hset)
    | none => exact congrArg (·.1.2.2) (pursuit_career_of_none p config s ops hload hset)

/-- Nothing is injected by any of these operations. -/
def Quiescent (ops later : List Operation) : Prop :=
  ∀ done next, done ++ [next] <+: later →
    (effort (career p config s (ops ++ (done ++ [next]))).platform.2).attempts = []

theorem pluginPath_of_quiescent {ops later : List Operation} (hlater : Quiescent p config s ops later) :
    (career p config s (ops ++ later)).client.pluginPath = (career p config s ops).client.pluginPath := by
  induction later using List.reverseRecOn with
  | nil => rw [List.append_nil]
  | append_singleton later op ih =>
    obtain ⟨hlast, hbefore⟩ := (forall_step_concat later op).mp hlater
    rw [← List.append_assoc] at hlast ⊢
    rw [pluginPath_concat, hlast]
    exact ih hbefore

/-- The path of the plugin fills the room that a request has for it, with zero bytes after it. -/
theorem follow_pathRequest (ops : List Operation) (room : List UInt8) :
    (follow p (.request (pathRequest room)) (career p config s ops)).1 = .response
      (if room.length ≤ (career p config s ops).client.pluginPath.utf8ByteSize then
        .failure .getPluginPath .tooLarge
      else .withDescriptor .getPluginPath
        (.buffer (zeroFilled room.length (Text.encode (career p config s ops).client.pluginPath)))) := by
  have hrespond := respond_of_hasShape (c := .getPluginPath) (r := pathRequest room) rfl (watch p)
    (facing p config s ops (pathRequest room))
  show Outcome.response (respond (pathRequest room) (watch p) (facing p config s ops _)).1 = _
  rw [hrespond, perform_pathRequest, client_facing]
  by_cases hroom : room.length ≤ (career p config s ops).client.pluginPath.utf8ByteSize
  · rw [if_pos hroom, if_pos hroom]
  · rw [if_neg hroom, if_neg hroom]

/-- Parameters that were set after some operations wait for their load: the next operations neither
replace nor use them. -/
def Waits (params : LoadParameters) (ops between : List Operation) : Prop :=
  ∀ done next, done ++ [next] <+: between →
    ¬(next.sets?.isSome = true ∨ Takes p config s params (ops ++ done) next)

/-- Parameters are set by a request that is in order, and the load that takes them tries their path, with
their words, and no other one. -/
theorem attempts_of_takes {params : LoadParameters} {ops : List Operation} {op : Operation}
    (hforce : InForce p config s params ops) (htakes : Takes p config s params ops op) :
    ∃ target answer, op.loads? = some target ∧
      (effort (career p config s (ops ++ [op])).platform.2).attempts =
        [⟨target, params.path, params.config, answer⟩] := by
  obtain ⟨target, titleId, hload, henabled, hstate, htitle, hlow⟩ := htakes
  obtain ⟨-, title, hsought⟩ := sought_career p config s ops hload henabled hstate
  obtain rfl : title = .ok titleId := by
    cases hsought.asked.symm.trans htitle
    rfl
  have hnext := (nextLoad_career p config s params ops).mpr hforce
  have htries := (hsought.read titleId rfl).1.tries
  rw [plan_of_applies hnext hlow] at htries
  obtain ⟨answer, hattempts⟩ := htries.singleton
  exact ⟨target, answer, hload, hattempts⟩

/-- A request for the path is answered with this one, and with zero bytes up to the end of the room that
there is; there must be room for one of them. -/
def Tells (path : String) (ops : List Operation) : Prop :=
  ∀ room, (follow p (.request (pathRequest room)) (career p config s ops)).1 = .response
    (if room.length ≤ path.utf8ByteSize then .failure .getPluginPath .tooLarge
    else .withDescriptor .getPluginPath
      (.buffer (Text.encode path ++ List.replicate (room.length - path.utf8ByteSize) 0)))

/-- The load that takes the parameters makes one attempt, at their path and with their words. The path is
told to everyone who asks for it until something else is injected. -/
def Arrives (params : LoadParameters) (ops : List Operation) : Prop :=
  ∀ between op, Waits p config s params ops between → Takes p config s params (ops ++ between) op →
    (∃ target answer, op.loads? = some target ∧
      (effort (career p config s (ops ++ between ++ [op])).platform.2).attempts =
        [⟨target, params.path, params.config, answer⟩]) ∧
    ∀ later, Quiescent p config s (ops ++ between ++ [op]) later →
      Tells p config s params.path (ops ++ between ++ [op] ++ later)

theorem arrives_of_sets {params : LoadParameters} {r : Request} (hset : r.sets? = some params)
    (ops : List Operation) : Arrives p config s params (ops ++ [.request r]) := by
  intro between op hwaits htakes
  have hforce : InForce p config s params (ops ++ [.request r] ++ between) := by
    refine ⟨ops, .request r, between, List.append_assoc _ _ _, hset, ?_⟩
    simpa [Waits] using hwaits
  obtain ⟨target, answer, hload, hattempts⟩ := attempts_of_takes p config s hforce htakes
  refine ⟨⟨target, answer, hload, hattempts⟩, ?_⟩
  intro later hlater room
  have hpath : (career p config s (ops ++ [.request r] ++ between ++ [op] ++ later)).client.pluginPath =
      params.path := by
    rw [pluginPath_of_quiescent p config s hlater, pluginPath_concat, hattempts]
    rfl
  rw [follow_pathRequest, hpath]
  rfl

/-- Path and words survive the way through the request and the load, unless they are refused because they
are too long. -/
theorem career_loadRequest (ops : List Operation) (flags lowTitleId : UInt32) (bytes words : List UInt8) :
    (∀ path ws, Spells bytes path → path.utf8ByteSize ≤ maxPathLength →
      words = ws.flatMap wordBytes → ws.length ≤ maxConfigWords →
      (follow p (.request (loadRequest flags lowTitleId bytes words)) (career p config s ops)).1 =
        .response (.ok .setLoadParameters) ∧
      Arrives p config s ⟨decide (flags &&& LoadParameters.noFlashFlag ≠ 0), lowTitleId, path, ws⟩
        (ops ++ [.request (loadRequest flags lowTitleId bytes words)])) ∧
    (Overlong bytes words → ∃ response,
      (follow p (.request (loadRequest flags lowTitleId bytes words)) (career p config s ops)).1 =
        .response response ∧
      isFailure response.result = true ∧
      Handled (loadRequest flags lowTitleId bytes words) response.result (career p config s ops)
        (career p config s (ops ++ [.request (loadRequest flags lowTitleId bytes words)]))
        (career p config s ops).client []) := by
  have hshape : (loadRequest flags lowTitleId bytes words).hasShape .setLoadParameters = true := rfl
  have hrespond := respond_of_hasShape hshape (watch p)
    (facing p config s ops (loadRequest flags lowTitleId bytes words))
  rw [perform_loadRequest] at hrespond
  constructor
  · intro path ws hbytes hpath hwords hws
    have hread := loadParameters_loadRequest flags lowTitleId hbytes hpath hwords hws
    have hset : (loadRequest flags lowTitleId bytes words).sets? = some
        ⟨decide (flags &&& LoadParameters.noFlashFlag ≠ 0), lowTitleId, path, ws⟩ := by
      rw [Request.sets?_of_hasShape hshape, hread]
      rfl
    rw [hread] at hrespond
    have hanswer := handled_career p config s [] hrespond rfl rfl rfl (List.append_nil _).symm
    exact ⟨hanswer.1, arrives_of_sets p config s hset ops⟩
  · intro hoverlong
    cases hread : (loadRequest flags lowTitleId bytes words).loadParameters with
    | ok params => exact absurd hoverlong (not_overlong_of_loadParameters hread)
    | error e =>
      rw [hread] at hrespond
      have hanswer := handled_career p config s [] hrespond rfl rfl rfl (List.append_nil _).symm
      refine ⟨_, hanswer.1, ?_, hanswer.2⟩
      rw [result_failure]
      exact e.isFailure_code

/-- A path with something behind it, and one word: both arrive. Without the last byte of the word the
request is refused. -/
theorem career_loadRequest_oneWord :
    (follow Stub.platform (.request (loadRequest 1 0x102 [47, 112, 0, 9] [7, 0, 0, 0]))
        (career Stub.platform .default .initial [.setEnabled true])).1 =
          .response (.ok .setLoadParameters) ∧
      (∃ target answer, (Operation.load ⟨0x102⟩).loads? = some target ∧
        (effort (career Stub.platform .default .initial ([.setEnabled true] ++
          [.request (loadRequest 1 0x102 [47, 112, 0, 9] [7, 0, 0, 0])] ++ [] ++
            [.load ⟨0x102⟩])).platform.2).attempts = [⟨target, "/p", [7], answer⟩]) ∧
      Tells Stub.platform .default .initial "/p" ([.setEnabled true] ++
        [.request (loadRequest 1 0x102 [47, 112, 0, 9] [7, 0, 0, 0])] ++ [] ++ [.load ⟨0x102⟩] ++ []) ∧
      ∃ response, (follow Stub.platform (.request (loadRequest 1 0x102 [47, 112, 0, 9] [7, 0, 0]))
        (career Stub.platform .default .initial [.setEnabled true])).1 = .response response ∧
          isFailure response.result = true := by
  obtain ⟨hanswer, harrives⟩ := (career_loadRequest Stub.platform .default .initial [.setEnabled true] 1
    0x102 [47, 112, 0, 9] [7, 0, 0, 0]).1 "/p" [7] (by decide +kernel)
      (by decide) (by decide) (by decide)
  obtain ⟨hattempts, htells⟩ := harrives [] (.load ⟨0x102⟩) (by simp [Waits])
    ⟨⟨0x102⟩, 0x0004000000000102, rfl, by decide +kernel, by decide +kernel, by decide +kernel, by decide⟩
  obtain ⟨response, hresponse, hfailed, -⟩ := (career_loadRequest Stub.platform .default .initial
    [.setEnabled true] 1 0x102 [47, 112, 0, 9] [7, 0, 0]).2 (.inr (.inr (by decide)))
  exact ⟨hanswer, hattempts, htells [] (by simp [Quiescent]), response, hresponse, hfailed⟩

end career
end Service
end PluginSlot
