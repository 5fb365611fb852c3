import PluginSlot.Platform.Stub
import PluginSlot.Proofs.History
import PluginSlot.Proofs.Loader.Attempts
import PluginSlot.Proofs.Loader.Paths

/-!
The parameters of the next load. A request sets them, they wait for a load of their title, and the first
one that learns this title uses them; every other load looks where plugins are by convention.
-/
namespace PluginSlot
open Platform Loader Wire

namespace Service
variable {σ : Type} {p : Platform σ}

/-- What an operation says if it succeeds. -/
def Outcome.Succeeds : Outcome → Prop
  | .done => True
  | .response r => r.result = Code.success
  | _ => False

section operation
variable {v : Venture} {target : Kernel.Handle} {l : Loader} {r : Request} {op : Operation}

theorem keeps_showPendingError :
    (showPendingError : Act Loader (σ × List Sighting) _).Keeps (watch p) venture := by
  refine .bind .client fun l => ?_
  split
  · exact .pure _
  · exact .bind (fun _ => rfl) fun _ _ => rfl

theorem ventures_handle (hload : r.loads? = some target) (hl : v.Fits l) (hidle : v.tasks = .empty) :
    Ventures p v (handle r) fun response w => ∃ result, Ventured target l v result w ∧
      (response.result = Code.success ↔ result = .ok ()) := by
  have hrespond : Ventures p v (respond r) fun response w => ∃ result, Ventured target l v result w ∧
      (response.result = Code.success ↔ result = .ok ()) := by
    rw [respond_of_loads r hload]
    refine .bind (ventures_load hl hidle) fun result w hw => ?_
    cases result with
    | ok _ => exact .pure ⟨_, hw, iff_of_true rfl rfl⟩
    | error e => exact .pure ⟨_, hw, iff_of_false (failure_ne_success _ e) nofun⟩
  refine .bind hrespond ?_
  rintro response w ⟨result, hw, hresult⟩
  refine .then (ventures_of_keeps fun _ => rfl) fun _ => ?_
  refine .then (ventures_of_keeps keeps_showPendingError) fun _ => ?_
  exact .then (ventures_runPendingTasks (hw.tasks.trans hidle)) fun _ => .pure ⟨result, hw, hresult⟩

theorem ventures_run (hload : op.loads? = some target) (hl : v.Fits l) (hidle : v.tasks = .empty) :
    Ventures p v op.run fun outcome w => ∃ result, Ventured target l v result w ∧
      (outcome.Succeeds ↔ result = .ok ()) := by
  cases op with
  | request r => exact .bind (ventures_handle hload hl hidle) fun _ _ hw => .pure hw
  | load host =>
    cases hload
    refine .bind (ventures_load hl hidle) fun result w hw => .pure ⟨result, hw, ?_⟩
    cases result with
    | ok _ => exact iff_of_true trivial rfl
    | error e => exact iff_of_false id nofun
  | _ => cases hload

/-- A request that sets parameters has no other part in loads. -/
theorem pursuit_handle {params : LoadParameters} (hset : r.sets? = some params)
    (m : Machine Loader (σ × List Sighting)) : pursuit (handle r (watch p) m).2 =
      ((m.client.config, some params, m.client.pluginPath), effort m.platform.2) := by
  have hrest (response : Response) : (do
      record (.command (Header.decode r.header).command response.result)
      showPendingError
      let _ ← runPendingTasks
      pure response : Act Loader (σ × List Sighting) Response).Keeps (watch p) pursuit := by
    refine .bind (fun _ => rfl) fun _ => ?_
    refine .bind (within_showPendingError.aside (by decide)) fun _ => ?_
    exact .bind (within_runPendingTasks.aside (by decide)) fun _ => .pure _
  rw [handle, respond_of_sets r hset]
  exact hrest (.ok .setLoadParameters) { m with client := { m.client with nextLoad := some params } }

theorem sets?_of_loads (hload : op.loads? = some target) : op.sets? = none := by
  cases op with
  | request r =>
    have hload : r.loads? = some target := hload
    show r.sets? = none
    rw [Request.loads?] at hload
    rw [Request.sets?]
    split at hload
    case h_1 hc => rw [hc]
    case h_2 => cases hload
  | _ => rfl

end operation

section request
variable {r : Request} {params : LoadParameters}

/-- The parameters are those that the request carries. -/
structure Request.Carries (r : Request) (params : LoadParameters) : Prop where
  path : r.text 0 = .ok params.path
  config : r.words 1 = .ok params.config
  lowTitleId : params.lowTitleId = r.param 1
  noFlash : params.noFlash = decide (r.param 0 &&& LoadParameters.noFlashFlag ≠ 0)

theorem Request.Carries.unique {params' : LoadParameters} (h : r.Carries params)
    (h' : r.Carries params') : params = params' := by
  obtain ⟨noFlash, lowTitleId, path, config⟩ := params
  obtain ⟨noFlash', lowTitleId', path', config'⟩ := params'
  obtain ⟨hpath, hconfig, rfl, rfl⟩ := h
  obtain ⟨hpath', hconfig', rfl, rfl⟩ := h'
  cases hpath.symm.trans hpath'
  cases hconfig.symm.trans hconfig'
  rfl

theorem Request.carries_of_loadParameters (h : r.loadParameters = .ok params) : r.Carries params := by
  rw [loadParameters] at h
  cases htext : r.text 0 with
  | error e =>
    rw [htext] at h
    cases h
  | ok path =>
    cases hwords : r.words 1 with
    | error e =>
      rw [htext, hwords] at h
      cases h
    | ok config =>
      rw [htext, hwords] at h
      change (LoadParameters.make (r.param 0) (r.param 1) path config).mapError Error.ofParameter =
        _ at h
      rw [LoadParameters.make] at h
      split at h
      · cases h
      · cases h
        exact ⟨htext, hwords, rfl, rfl⟩

/-- Of the requests to set parameters, those succeed that set some, namely those they carry. -/
theorem Request.sets?_eq_some_iff (h : Handler Loader σ) (m : Machine Loader σ) :
    r.sets? = some params ↔
      Command.ofId? (Header.decode r.header).command = some .setLoadParameters ∧
        (Service.handle r h m).1.result = Code.success ∧ r.Carries params := by
  show _ ↔ _ ∧ (respond r h m).1.result = Code.success ∧ _
  rw [Request.sets?]
  split
  case h_2 hc => exact iff_of_false (Option.some_ne_none params).symm fun hset => hc hset.1
  case h_1 hc =>
    have hrespond : respond r h m = performChecked r .setLoadParameters h m := by rw [respond, hc]
    rw [hrespond, performChecked]
    split
    case isFalse =>
      have hfailed : Error.malformedRequest.code ≠ Code.success := by decide
      exact iff_of_false (Option.some_ne_none params).symm fun hset => hfailed hset.2.1
    case isTrue =>
      rw [Act.bind_run, perform, setLoadParameters]
      cases hread : r.loadParameters with
      | error e =>
        exact iff_of_false (Option.some_ne_none params).symm fun hset =>
          failure_ne_success _ e hset.2.1
      | ok found =>
        have hfound := Request.carries_of_loadParameters hread
        constructor
        · rintro ⟨⟩
          exact ⟨hc, rfl, hfound⟩
        · exact fun hset => congrArg some (hfound.unique hset.2.2)

end request

section career
variable (p : Platform σ) (config : Config) (s : σ)

theorem config_career (ops : List Operation) : (career p config s ops).client.config = config := by
  have hbears : Bears (watch p) Concern.every fun m : Machine Loader (σ × List Sighting) =>
      m.client.config = config :=
    { call := fun _ _ _ _ hm => hm
      words := fun _ _ hm => hm
      record := fun _ _ _ hm => hm
      status := fun _ _ _ hm => hm
      settings := fun _ _ _ _ _ _ _ _ _ hfixtures hm => (congrArg (·.1.1) hfixtures).trans hm
      parameters := fun _ _ _ _ hm => hm
      handles := fun _ _ _ _ hm => hm
      block := fun _ _ _ _ _ _ hm => hm
      slot := fun _ _ _ _ hfixtures hm => (congrArg (·.1.1) hfixtures).trans hm }
  induction ops using List.reverseRecOn with
  | nil => exact within_start _ _ (hbears.mono (by decide)) (machine config (s, [])) rfl
  | append_singleton ops op ih =>
    rw [career_concat]
    exact within_operation op _ _ hbears _ ih

theorem ventured_career {op : Operation} {target : Kernel.Handle} (ops : List Operation)
    (hload : op.loads? = some target) : ∃ result, Ventured target (career p config s ops).client
        { venture (career p config s ops) with effort := .none } result
        (venture (career p config s (ops ++ [op]))) ∧
      ((follow p op (career p config s ops)).1.Succeeds ↔ result = .ok ()) := by
  have hidle := (filed_idle_career p config s ops).2.tasks
  rw [career_concat]
  exact ventures_run (p := p) (v := { venture (career p config s ops) with effort := .none })
    hload ⟨rfl, rfl, rfl, rfl⟩ hidle { career p config s ops with
      platform := ((career p config s ops).platform.1,
        .begun op :: (career p config s ops).platform.2) } rfl

theorem pursuit_career_of_none {op : Operation} (ops : List Operation) (hload : op.loads? = none)
    (hset : op.sets? = none) : pursuit (career p config s (ops ++ [op])) =
      ((career p config s ops).client.provision, .none) := by
  rw [career_concat]
  exact (within_operation_of_none hload hset).aside (p := p) (List.Subset.refl _)
    { career p config s ops with platform := ((career p config s ops).platform.1,
        .begun op :: (career p config s ops).platform.2) }

theorem pursuit_career_of_sets {op : Operation} {params : LoadParameters} (ops : List Operation)
    (hset : op.sets? = some params) : pursuit (career p config s (ops ++ [op])) =
      (((career p config s ops).client.config, some params, (career p config s ops).client.pluginPath),
        .none) := by
  rw [career_concat]
  cases op with
  | request r => exact pursuit_handle hset _
  | _ => cases hset

/-- The load learns that its target has the title that the parameters are for. -/
def Takes (params : LoadParameters) (done : List Operation) (op : Operation) : Prop :=
  ∃ target titleId, op.loads? = some target ∧ (career p config s done).client.enabled = true ∧
    (career p config s done).client.state = .empty ∧
    (effort (career p config s (done ++ [op])).platform.2).title = some (target, .ok titleId) ∧
    params.lowTitleId = titleId.toUInt32

/-- The parameters were set by a request, and since then neither replaced nor used. -/
def InForce (params : LoadParameters) (ops : List Operation) : Prop :=
  Since (fun _ op => op.sets? = some params)
    (fun done op => op.sets?.isSome = true ∨ Takes p config s params done op) ops

section load
variable {op : Operation} {target : Kernel.Handle} (ops : List Operation)

theorem sought_career (hload : op.loads? = some target)
    (henabled : (career p config s ops).client.enabled = true)
    (hstate : (career p config s ops).client.state = .empty) :
    ((follow p op (career p config s ops)).1.Succeeds ↔
        (career p config s (ops ++ [op])).client.state = .running) ∧
      ∃ title, Sought target (career p config s ops).client
        { venture (career p config s ops) with effort := .none }
        (venture (career p config s (ops ++ [op]))) title := by
  obtain ⟨result, hventured, hsucceeds⟩ := ventured_career p config s ops hload
  exact ⟨hsucceeds.trans (hventured.succeeded ⟨hstate, henabled⟩),
    (hventured.pursued ⟨hstate, henabled⟩).sought rfl hstate⟩

/-- What a load does to the parameters: it uses them if they are for the title that it learns. -/
theorem nextLoad_of_loads (hload : op.loads? = some target) (params : LoadParameters) :
    (career p config s (ops ++ [op])).client.nextLoad = some params ↔
      (career p config s ops).client.nextLoad = some params ∧ ¬Takes p config s params ops op := by
  by_cases hready : (venture (career p config s ops)).Ready
  · obtain ⟨hstate, henabled⟩ := hready
    obtain ⟨-, title, hsought⟩ := sought_career p config s ops hload henabled hstate
    have hasked := hsought.asked
    cases title with
    | error e =>
      have hsame : (career p config s (ops ++ [op])).client.nextLoad =
          (career p config s ops).client.nextLoad := (hsought.unread e rfl).2
      have hnot : ¬Takes p config s params ops op := by
        rintro ⟨_, _, -, -, -, htitle, -⟩
        cases hasked.symm.trans htitle
      rw [hsame, and_iff_left hnot]
    | ok titleId =>
      have hused : (career p config s (ops ++ [op])).client.nextLoad =
          ((career p config s ops).client.useParameters titleId).nextLoad :=
        (hsought.read titleId rfl).2
      have htakes : Takes p config s params ops op ↔ params.lowTitleId = titleId.toUInt32 := by
        constructor
        · rintro ⟨_, _, -, -, -, htitle, hlow⟩
          cases hasked.symm.trans htitle
          exact hlow
        · exact fun hlow => ⟨target, titleId, hload, henabled, hstate, hasked, hlow⟩
      rw [hused, nextLoad_useParameters_eq_some, htakes]
  · obtain ⟨_, hventured, -⟩ := ventured_career p config s ops hload
    have hsame : (career p config s (ops ++ [op])).client.nextLoad =
        (career p config s ops).client.nextLoad :=
      congrArg Venture.nextLoad (hventured.refused hready)
    have hnot : ¬Takes p config s params ops op := by
      rintro ⟨_, _, -, henabled, hstate, -, -⟩
      exact hready ⟨hstate, henabled⟩
    rw [hsame, and_iff_left hnot]

end load

/-- What one operation does to the parameters of the next load. -/
theorem nextLoad_concat (params : LoadParameters) (ops : List Operation) (op : Operation) :
    (career p config s (ops ++ [op])).client.nextLoad = some params ↔
      op.sets? = some params ∨ (career p config s ops).client.nextLoad = some params ∧
        ¬(op.sets?.isSome = true ∨ Takes p config s params ops op) := by
  cases hload : op.loads? with
  | some target =>
    rw [nextLoad_of_loads p config s ops hload, sets?_of_loads hload]
    simp
  | none =>
    have hnot : ¬Takes p config s params ops op := by
      rintro ⟨target, _, htarget, -⟩
      rw [hload] at htarget
      cases htarget
    cases hset : op.sets? with
    | some new =>
      have hnext : (career p config s (ops ++ [op])).client.nextLoad = some new :=
        congrArg (·.1.2.1) (pursuit_career_of_sets p config s ops hset)
      simp [hnext]
    | none =>
      have hsame : (career p config s (ops ++ [op])).client.nextLoad =
          (career p config s ops).client.nextLoad :=
        congrArg (·.1.2.1) (pursuit_career_of_none p config s ops hload hset)
      simp [hsame, hnot]

/-- The parameters of the next load are those in force. -/
theorem nextLoad_career (params : LoadParameters) (ops : List Operation) :
    (career p config s ops).client.nextLoad = some params ↔ InForce p config s params ops := by
  induction ops using List.reverseRecOn with
  | nil =>
    have hstart : pursuit (career p config s []) = pursuit (machine config (s, [])) :=
      (within_start (σ := σ × List Sighting)).aside (p := p) (by decide) (machine config (s, []))
    have hnone : (career p config s []).client.nextLoad = none :=
      congrArg (·.1.2.1) hstart
    rw [hnone]
    exact iff_of_false nofun not_since_nil
  | append_singleton ops op ih => rw [nextLoad_concat, InForce, since_concat, ih, InForce]

/-- An operation sets parameters if it is a request to do so that succeeds. -/
theorem sets?_career (ops : List Operation) (op : Operation) (params : LoadParameters) :
    op.sets? = some params ↔ ∃ r response, op = .request r ∧
      Command.ofId? (Header.decode r.header).command = some .setLoadParameters ∧
      (follow p op (career p config s ops)).1 = .response response ∧
      response.result = Code.success ∧ r.Carries params := by
  constructor
  · intro hset
    cases op with
    | request r =>
      obtain ⟨hc, hresult, hcarries⟩ := (Request.sets?_eq_some_iff (watch p) _).mp hset
      exact ⟨r, _, rfl, hc, rfl, hresult, hcarries⟩
    | _ => cases hset
  · rintro ⟨r, _, rfl, hc, ⟨⟩, hresult, hcarries⟩
    exact (Request.sets?_eq_some_iff (watch p) _).mpr ⟨hc, hresult, hcarries⟩

/-- Only a load makes an effort, when the loader is enabled and the slot empty. -/
theorem effort_career_of_idle (ops : List Operation) {op : Operation}
    (hidle : op.loads? = none ∨ (career p config s ops).client.enabled = false ∨
      (career p config s ops).client.state ≠ .empty) :
    effort (career p config s (ops ++ [op])).platform.2 = .none := by
  cases hload : op.loads? with
  | none =>
    cases hset : op.sets? with
    | none => exact congrArg Prod.snd (pursuit_career_of_none p config s ops hload hset)
    | some params => exact congrArg Prod.snd (pursuit_career_of_sets p config s ops hset)
  | some target =>
    have hnot : ¬(venture (career p config s ops)).Ready := by
      rintro ⟨hstate, henabled⟩
      obtain hnone | hdisabled | hoccupied := hidle
      · cases hload.symm.trans hnone
      · cases henabled.symm.trans hdisabled
      · exact hoccupied hstate
    obtain ⟨_, hventured, -⟩ := ventured_career p config s ops hload
    exact congrArg Venture.effort (hventured.refused hnot)

/-- The parameters that were set are used by the first load, while the loader is enabled and the slot
empty, that learns the title they are for; every other load goes by convention. -/
theorem career_nextLoad (ops : List Operation) (op : Operation) :
    (∀ params, op.sets? = some params ↔ ∃ r response, op = .request r ∧
      Command.ofId? (Header.decode r.header).command = some .setLoadParameters ∧
      (follow p op (career p config s ops)).1 = .response response ∧
      response.result = Code.success ∧ r.Carries params) ∧
    (∀ params params', InForce p config s params ops → InForce p config s params' ops →
      params = params') ∧
    (op.loads? = none ∨ (career p config s ops).client.enabled = false ∨
        (career p config s ops).client.state ≠ .empty →
      effort (career p config s (ops ++ [op])).platform.2 = .none) ∧
    (∀ target, op.loads? = some target → (career p config s ops).client.enabled = true →
      (career p config s ops).client.state = .empty →
      ((follow p op (career p config s ops)).1.Succeeds ↔
        (career p config s (ops ++ [op])).client.state = .running) ∧
      ∃ title, (effort (career p config s (ops ++ [op])).platform.2).title = some (target, title) ∧
        (∀ e, title = .error e → effort (career p config s (ops ++ [op])).platform.2 =
          ⟨some (target, .error e), [], false⟩) ∧
        ∀ titleId, title = .ok titleId →
          (∀ params, InForce p config s params ops → params.lowTitleId = titleId.toUInt32 →
            (venture (career p config s (ops ++ [op]))).Follows target
              ⟨[params.path], params.config, params.noFlash⟩) ∧
          ((∀ params, InForce p config s params ops → params.lowTitleId ≠ titleId.toUInt32) →
            (venture (career p config s (ops ++ [op]))).Follows target
              ⟨[titlePath config titleId, defaultPath config], [], false⟩)) ∧
    ∀ titleId, ∃ root slashes, config.pluginRoot.toList = root ++ List.replicate slashes '/' ∧
      root.getLast? ≠ some '/' ∧
      (titlePath config titleId).toList = root ++ '/' :: ((List.range 16).map fun i =>
        Text.upperDigits.getD (titleId.toNat / 16 ^ (15 - i) % 16) '0') ++ "/plugin.plg".toList ∧
      (defaultPath config).toList = root ++ "/default.plg".toList := by
  refine ⟨sets?_career p config s ops op, ?_, ?_, ?_, paths_spelled config⟩
  · intro params params' hparams hparams'
    rw [← nextLoad_career] at hparams hparams'
    exact Option.some.inj (hparams.symm.trans hparams')
  · exact effort_career_of_idle p config s ops
  · intro target hload henabled hstate
    obtain ⟨hsucceeds, title, hsought⟩ := sought_career p config s ops hload henabled hstate
    refine ⟨hsucceeds, title, hsought.asked, fun e he => (hsought.unread e he).1, fun titleId htitle => ?_⟩
    have hfollows := (hsought.read titleId htitle).1
    constructor
    · intro params hforce hlow
      rwa [plan_of_applies ((nextLoad_career p config s params ops).mpr hforce) hlow] at hfollows
    · intro hother
      have hplan := plan_of_other fun params hnext =>
        hother params ((nextLoad_career p config s params ops).mp hnext)
      rwa [hplan, config_career] at hfollows

/-- A request for a plugin of its own, with one word for it and without the indicator. -/
def ownPlugin : Operation := .request ⟨Command.setLoadParameters.requestHeader, [1, 0x102],
  [.buffer [47, 112, 0], .buffer [7, 0, 0, 0]]⟩

/-- The parameters are used by the first load, and the next one of the same title does without. -/
theorem career_nextLoad_ownPlugin :
    InForce Stub.platform .default .initial ⟨true, 0x102, "/p", [7]⟩ [.setEnabled true, ownPlugin] ∧
      (venture (career Stub.platform .default .initial
        ([.setEnabled true, ownPlugin] ++ [.load ⟨0x102⟩]))).Follows ⟨0x102⟩ ⟨["/p"], [7], true⟩ ∧
      (venture (career Stub.platform .default .initial
        ([.setEnabled true, ownPlugin, .load ⟨0x102⟩, .post Status.exitEvent true] ++
          [.load ⟨0x102⟩]))).Follows ⟨0x102⟩
            ⟨[titlePath .default 0x0004000000000102, defaultPath .default], [], false⟩ := by
  have hforce : InForce Stub.platform .default .initial ⟨true, 0x102, "/p", [7]⟩
      [.setEnabled true, ownPlugin] := (nextLoad_career ..).mp (by decide +kernel)
  refine ⟨hforce, ?_, ?_⟩
  · obtain ⟨-, -, -, hload, -⟩ := career_nextLoad Stub.platform .default .initial
      [.setEnabled true, ownPlugin] (.load ⟨0x102⟩)
    obtain ⟨-, title, htitle, -, hread⟩ := hload ⟨0x102⟩ rfl (by decide +kernel) (by decide +kernel)
    have hasked : (effort (career Stub.platform .default .initial
        ([.setEnabled true, ownPlugin] ++ [.load ⟨0x102⟩])).platform.2).title =
          some (⟨0x102⟩, .ok 0x0004000000000102) := by decide +kernel
    cases htitle.symm.trans hasked
    exact (hread _ rfl).1 _ hforce rfl
  · obtain ⟨-, -, -, hload, -⟩ := career_nextLoad Stub.platform .default .initial
      [.setEnabled true, ownPlugin, .load ⟨0x102⟩, .post Status.exitEvent true] (.load ⟨0x102⟩)
    obtain ⟨-, title, htitle, -, hread⟩ := hload ⟨0x102⟩ rfl (by decide +kernel) (by decide +kernel)
    have hasked : (effort (career Stub.platform .default .initial
        ([.setEnabled true, ownPlugin, .load ⟨0x102⟩, .post Status.exitEvent true] ++
          [.load ⟨0x102⟩])).platform.2).title = some (⟨0x102⟩, .ok 0x0004000000000102) := by
      decide +kernel
    have hused : (career Stub.platform .default .initial
        [.setEnabled true, ownPlugin, .load ⟨0x102⟩,
          .post Status.exitEvent true]).client.nextLoad = none := by decide +kernel
    cases htitle.symm.trans hasked
    refine (hread _ rfl).2 fun params hother => ?_
    cases hused.symm.trans ((nextLoad_career ..).mpr hother)

end career
end Service
end PluginSlot
