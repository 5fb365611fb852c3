import PluginSlot.Proofs.Service.Refusal

/-!
What is seen of a load: the title of its target is asked for, plugins are tried until one is injected,
and the indicator is flashed. Where a load looks depends on the parameters that were set for it, which
it uses up.
-/
namespace PluginSlot
open Platform Loader Wire

namespace Loader

/-- A call to inject a plugin, with its answer. -/
structure Attempt where
  target : Kernel.Handle
  path : String
  config : List UInt32
  answer : Except Platform.Error (List UInt8)
deriving DecidableEq

/-- The calls that are made for a load only. -/
structure Effort where
  /-- The target whose title was asked for, and the answer. -/
  title : Option (Kernel.Handle × Except Platform.Error UInt64)
  /-- Oldest first. -/
  attempts : List Attempt
  flashed : Bool
deriving DecidableEq

namespace Effort

def none : Effort := ⟨.none, [], false⟩

def add (v : Effort) : (c : Call) → c.Answer → Effort
  | .titleId target, a => { v with title := some (target, a) }
  | .inject target path config, a =>
    { v with attempts := v.attempts ++ [⟨target, path, config, a⟩] }
  | .flash, _ => { v with flashed := true }
  | _, _ => v

end Effort

/-- The effort of the latest operation. -/
def effort : List Sighting → Effort
  | [] | .begun _ :: _ => .none
  | .called _ c a :: earlier => (effort earlier).add c a

/-- The attempts at some paths: one after the other, until one of them works. -/
inductive Tries (target : Kernel.Handle) (config : List UInt32) :
    List String → List Attempt → Prop where
  | done : Tries target config [] []
  | failed {path : String} {paths : List String} {attempts : List Attempt} (e : Platform.Error)
      (h : Tries target config paths attempts) :
      Tries target config (path :: paths) (⟨target, path, config, .error e⟩ :: attempts)
  | worked (path : String) (paths : List String) (data : List UInt8) :
      Tries target config (path :: paths) [⟨target, path, config, .ok data⟩]

/-- The only path is tried once. -/
theorem Tries.singleton {target : Kernel.Handle} {config : List UInt32} {path : String}
    {attempts : List Attempt} (h : Tries target config [path] attempts) :
    ∃ answer, attempts = [⟨target, path, config, answer⟩] := by
  cases h with
  | failed e h =>
    cases h
    exact ⟨.error e, rfl⟩
  | worked _ _ data => exact ⟨.ok data, rfl⟩

/-- What counts for a load. -/
structure Venture where
  config : Config
  enabled : Bool
  nextLoad : Option LoadParameters
  path : String
  state : SlotState
  tasks : TaskQueue
  effort : Effort

variable {σ α β : Type} {p : Platform σ}

def venture (m : Machine Loader (σ × List Sighting)) : Venture :=
  ⟨m.client.config, m.client.enabled, m.client.nextLoad, m.client.pluginPath, m.client.state,
    m.client.tasks, effort m.platform.2⟩

/-- What a computation sees of it. -/
structure Venture.Fits (v : Venture) (l : Loader) : Prop where
  config : l.config = v.config
  enabled : l.enabled = v.enabled
  nextLoad : l.nextLoad = v.nextLoad
  state : l.state = v.state

/-- What is left of it when the slot does not count. -/
def pursuit (m : Machine Loader (σ × List Sighting)) :
    (Config × Option LoadParameters × String) × Effort :=
  (m.client.provision, effort m.platform.2)

section frame
variable {cs : List Concern} {x : Act Loader (σ × List Sighting) α}

theorem Effort.add_of_within (v : Effort) {c : Call} (hk : Concern.within Concern.aside c.concern? = true)
    (a : c.Answer) : v.add c a = v := by
  cases c <;> first | rfl | cases hk

theorem bears_pursuit (v : (Config × Option LoadParameters × String) × Effort) :
    Bears (watch p) Concern.aside fun m => pursuit m = v where
  call c _ hk m hm := by
    have hsame := (effort m.platform.2).add_of_within hk (p.answer c m.platform.1).1
    exact (congrArg (m.client.provision, ·) hsame).trans hm
  words _ _ hm := hm
  record _ _ _ hm := hm
  status _ _ _ hm := hm
  settings _ m l _ _ _ _ _ _ hfixtures hm :=
    (congrArg (·.1, effort m.platform.2) hfixtures).trans hm
  parameters hk := absurd hk (by decide)
  handles _ _ _ _ hm := hm
  block _ _ _ _ _ _ hm := hm
  slot _ m l _ hfixtures hm := (congrArg (·.1, effort m.platform.2) hfixtures).trans hm

theorem Within.aside (hx : Within cs x) (hcs : cs ⊆ Concern.aside) : x.Keeps (watch p) pursuit :=
  fun m => hx _ _ ((bears_pursuit (pursuit m)).mono hcs) m rfl

theorem bears_venture (v : Venture) :
    Bears (watch p) [.map, .close, .block] fun m => venture m = v where
  call c _ hk m hm := by
    have haside : Concern.within Concern.aside c.concern? = true :=
      Concern.within_mono (by decide) hk
    have hsame := (effort m.platform.2).add_of_within haside (p.answer c m.platform.1).1
    exact (congrArg (fun e => { venture m with effort := e }) hsame).trans hm
  words _ _ hm := hm
  record _ _ _ hm := hm
  status hk := absurd hk (by decide)
  settings hk := absurd hk (by decide)
  parameters hk := absurd hk (by decide)
  handles hk := absurd hk (by decide)
  block _ _ _ _ _ _ hm := hm
  slot hk := absurd hk (by decide)

theorem Within.beside (hx : Within cs x) (hcs : cs ⊆ [.map, .close, .block]) :
    x.Keeps (watch p) venture :=
  fun m => hx _ _ ((bears_venture (venture m)).mono hcs) m rfl

end frame

namespace Venture

/-- The last path that was tried stays, whether it worked or not. -/
def tried (v : Venture) (attempts : List Attempt) : Venture :=
  { v with
    path := (attempts.getLast?.map (·.path)).getD v.path
    effort := { v.effort with attempts := v.effort.attempts ++ attempts } }

theorem tried_cons (v : Venture) (a : Attempt) (attempts : List Attempt) :
    ({ v with path := a.path, effort := v.effort.add (.inject a.target a.path a.config) a.answer } :
      Venture).tried attempts = v.tried (a :: attempts) := by
  simp only [tried, Effort.add, List.append_assoc, List.singleton_append, List.getLast?_cons]
  cases attempts.getLast? <;> rfl

/-- The title of the target is known, and some paths were tried. Parameters for this title are used. -/
def search (v : Venture) (l : Loader) (target : Kernel.Handle) (titleId : UInt64)
    (attempts : List Attempt) : Venture :=
  ({ v with
    nextLoad := (l.useParameters titleId).nextLoad
    effort := v.effort.add (.titleId target) (.ok titleId) } : Venture).tried attempts

/-- A plugin is loaded, and shown unless that is not wanted. -/
def finish (v : Venture) (noFlash : Bool) : Venture :=
  { v with
    state := .running
    effort := { v.effort with
      flashed := v.effort.flashed || v.config.flashIndicator && !noFlash } }

end Venture

/-- How a load can go on from the question for the title. -/
inductive Pursued (target : Kernel.Handle) (l : Loader) (v : Venture) : Venture → Prop where
  | unread (e : Platform.Error) :
      Pursued target l v { v with effort := v.effort.add (.titleId target) (.error e) }
  | failed {titleId : UInt64} {attempts : List Attempt}
      (h : Tries target (l.plan titleId).config (l.plan titleId).paths attempts) :
      Pursued target l v (v.search l target titleId attempts)
  | loaded {titleId : UInt64} {attempts : List Attempt} {path : String} {data : List UInt8}
      (h : Tries target (l.plan titleId).config (l.plan titleId).paths attempts)
      (hlast : attempts.getLast? = some ⟨target, path, (l.plan titleId).config, .ok data⟩) :
      Pursued target l v ((v.search l target titleId attempts).finish (l.plan titleId).noFlash)

/-- A load asks for the title of its target only then. -/
def Venture.Ready (v : Venture) : Prop := v.state = .empty ∧ v.enabled = true

/-- What a load comes to, and whether it succeeds. -/
structure Ventured (target : Kernel.Handle) (l : Loader) (v : Venture) (r : Except Error Unit)
    (w : Venture) : Prop where
  pursued : v.Ready → Pursued target l v w
  refused : ¬v.Ready → w = v
  succeeded : v.Ready → (r = .ok () ↔ w.state = .running)

/-- The plan is carried out: its paths are tried, and the plugin that is loaded is the last one tried.
It is shown unless that is not wanted. -/
structure Venture.Follows (w : Venture) (target : Kernel.Handle) (plan : Plan) : Prop where
  tries : Tries target plan.config plan.paths w.effort.attempts
  loaded : w.state = .running → ∃ data,
    w.effort.attempts.getLast? = some ⟨target, w.path, plan.config, .ok data⟩
  flashed : w.effort.flashed = true ↔
    w.state = .running ∧ w.config.flashIndicator = true ∧ plan.noFlash = false

/-- What is seen after a load that had asked for the title. -/
structure Sought (target : Kernel.Handle) (l : Loader) (v w : Venture)
    (title : Except Platform.Error UInt64) : Prop where
  asked : w.effort.title = some (target, title)
  unread : ∀ e, title = .error e →
    w.effort = ⟨some (target, .error e), [], false⟩ ∧ w.nextLoad = v.nextLoad
  read : ∀ titleId, title = .ok titleId →
    w.Follows target (l.plan titleId) ∧ w.nextLoad = (l.useParameters titleId).nextLoad

section pursued
variable {target : Kernel.Handle} {l : Loader} {v w : Venture}

theorem Pursued.tasks (h : Pursued target l v w) : w.tasks = v.tasks := by
  cases h <;> rfl

theorem Ventured.tasks {r : Except Error Unit} (h : Ventured target l v r w) : w.tasks = v.tasks := by
  by_cases hv : v.Ready
  · exact (h.pursued hv).tasks
  · rw [h.refused hv]

/-- The path that is kept is the last one that was tried, if there was one. -/
theorem Pursued.path (h : Pursued target l v w) (hnone : v.effort = .none) :
    w.path = (w.effort.attempts.getLast?.map (·.path)).getD v.path := by
  cases h <;> simp [Venture.finish, Venture.search, Venture.tried, Effort.add, Effort.none, hnone]

theorem Ventured.path {r : Except Error Unit} (h : Ventured target l v r w) (hnone : v.effort = .none) :
    w.path = (w.effort.attempts.getLast?.map (·.path)).getD v.path := by
  by_cases hv : v.Ready
  · exact (h.pursued hv).path hnone
  · rw [h.refused hv, hnone]
    rfl

theorem Pursued.sought (h : Pursued target l v w) (hnone : v.effort = .none)
    (hstate : v.state = .empty) : ∃ title, Sought target l v w title := by
  have hidle : v.state ≠ .running := by rw [hstate]; nofun
  have hattempts (titleId : UInt64) (attempts : List Attempt) :
      (v.search l target titleId attempts).effort.attempts = attempts := by
    simp [Venture.search, Venture.tried, Effort.add, Effort.none, hnone]
  have hflashed (titleId : UInt64) (attempts : List Attempt) :
      (v.search l target titleId attempts).effort.flashed = false := by
    simp [Venture.search, Venture.tried, Effort.add, Effort.none, hnone]
  cases h with
  | unread e =>
    refine ⟨.error e, rfl, ?_, nofun⟩
    rintro _ ⟨⟩
    refine ⟨?_, rfl⟩
    rw [hnone]
    rfl
  | @failed titleId attempts h =>
    refine ⟨.ok titleId, rfl, nofun, ?_⟩
    rintro _ ⟨⟩
    refine ⟨⟨?_, fun h => absurd h hidle, ?_⟩, rfl⟩
    · rwa [hattempts]
    · rw [hflashed]
      exact iff_of_false nofun fun h => hidle h.1
  | @loaded titleId attempts path data h hlast =>
    refine ⟨.ok titleId, rfl, nofun, ?_⟩
    rintro _ ⟨⟩
    refine ⟨⟨?_, fun _ => ⟨data, ?_⟩, ?_⟩, rfl⟩
    · rwa [← hattempts titleId attempts] at h
    · have hpath : (v.search l target titleId attempts).path = path := by
        simp [Venture.search, Venture.tried, hlast]
      show (v.search l target titleId attempts).effort.attempts.getLast? =
        some ⟨target, (v.search l target titleId attempts).path, _, _⟩
      rw [hattempts, hpath, hlast]
    · have hshown : ((v.search l target titleId attempts).finish
          (l.plan titleId).noFlash).effort.flashed =
            (v.config.flashIndicator && !(l.plan titleId).noFlash) := by
        rw [Venture.finish, hflashed, Bool.false_or]
        rfl
      rw [hshown]
      simp [Venture.finish, Venture.search, Venture.tried]

end pursued

/-- Where a computation leads from what counts for a load. -/
def Ventures (p : Platform σ) (v : Venture) (x : Act Loader (σ × List Sighting) α)
    (Q : α → Venture → Prop) : Prop :=
  x.Assures (watch p) venture (· = v) Q

section rules
variable {v : Venture} {x : Act Loader (σ × List Sighting) α}
  {g : α → Act Loader (σ × List Sighting) β} {Q : α → Venture → Prop} {S : β → Venture → Prop}

theorem Ventures.pure {a : α} (hQ : Q a v) : Ventures p v (Pure.pure a) Q := by
  rintro m rfl
  exact hQ

theorem Ventures.bind (hx : Ventures p v x Q) (hg : ∀ a w, Q a w → Ventures p w (g a) S) :
    Ventures p v (x >>= g) S := fun m hm => hg _ _ (hx m hm) _ rfl

theorem Ventures.then {w : Venture} (hx : Ventures p v x fun _ u => u = w)
    (hg : ∀ a, Ventures p w (g a) S) : Ventures p v (x >>= g) S := by
  refine .bind hx ?_
  rintro a u rfl
  exact hg a

theorem Ventures.imp {Q' : α → Venture → Prop} (hx : Ventures p v x Q)
    (hQ : ∀ a w, Q a w → Q' a w) : Ventures p v x Q' := Act.Assures.imp hx hQ

theorem ventures_of_keeps (hx : x.Keeps (watch p) venture) : Ventures p v x fun _ w => w = v :=
  hx.assures

theorem Ventures.client {g : Loader → Act Loader (σ × List Sighting) β}
    (hg : ∀ l, v.Fits l → Ventures p v (g l) S) : Ventures p v (Act.client >>= g) S := by
  rintro m rfl
  exact hg m.client ⟨rfl, rfl, rfl, rfl⟩ m rfl

theorem ventures_modify {e : Loader → Loader} {w : Venture}
    (he : ∀ m : Machine Loader (σ × List Sighting), venture m = v →
      venture { m with client := e m.client } = w) :
    Ventures p v (Act.modifyClient e) fun _ u => u = w := he

theorem ventures_call (c : Call) : Ventures p v (Act.call c) fun a w =>
    w = { v with effort := v.effort.add c a } := by
  rintro m rfl
  rfl

end rules

section load
variable {v : Venture} {target : Kernel.Handle}

theorem ventures_injectFirst (config : List UInt32) (failure : Platform.Error) (paths : List String) :
    Ventures p v (injectFirst target config failure paths) fun r w => ∃ attempts,
      Tries target config paths attempts ∧ w = v.tried attempts ∧
        ∀ u, r = .ok u → ∃ path data, attempts.getLast? = some ⟨target, path, config, .ok data⟩ := by
  induction paths generalizing failure v with
  | nil => exact .pure ⟨[], .done, by simp [Venture.tried], nofun⟩
  | cons path paths ih =>
    have hpath : Ventures p v (Act.modifyClient ({ · with pluginPath := path }))
        fun _ w => w = { v with path := path } := ventures_modify fun m hm => hm ▸ rfl
    refine .then hpath fun _ => .bind (ventures_call _) ?_
    rintro answer _ rfl
    cases answer with
    | error e =>
      refine (ih e).imp ?_
      rintro r _ ⟨attempts, h, rfl, hok⟩
      refine ⟨⟨target, path, config, .error e⟩ :: attempts, .failed e h,
        v.tried_cons ⟨target, path, config, .error e⟩ attempts, fun u hu => ?_⟩
      obtain ⟨last, data, hlast⟩ := hok u hu
      exact ⟨last, data, by rw [List.getLast?_cons, hlast]; rfl⟩
    | ok data =>
      refine (ventures_of_keeps ((within_place target data).beside (by decide))).imp ?_
      rintro r _ rfl
      exact ⟨_, .worked path paths data, rfl, fun _ _ => ⟨path, data, rfl⟩⟩

theorem plan_congr {l l' : Loader} (hconfig : l.config = l'.config)
    (hnext : l.nextLoad = l'.nextLoad) (titleId : UInt64) : l.plan titleId = l'.plan titleId := by
  rw [plan, plan, parametersFor, parametersFor, hnext, hconfig]

theorem nextLoad_useParameters {l l' : Loader} (hnext : l.nextLoad = l'.nextLoad) (titleId : UInt64) :
    (l.useParameters titleId).nextLoad = (l'.useParameters titleId).nextLoad := by
  rw [useParameters, useParameters, parametersFor, parametersFor, hnext]
  split <;> simp [hnext]

theorem parametersFor_eq_some {l : Loader} {titleId : UInt64} {params : LoadParameters} :
    l.parametersFor titleId = some params ↔
      l.nextLoad = some params ∧ params.lowTitleId = titleId.toUInt32 := by
  simp [parametersFor, Option.filter_eq_some_iff, LoadParameters.appliesTo]

/-- Parameters stay only if they are for another title. -/
theorem nextLoad_useParameters_eq_some {l : Loader} {titleId : UInt64} {params : LoadParameters} :
    (l.useParameters titleId).nextLoad = some params ↔
      l.nextLoad = some params ∧ params.lowTitleId ≠ titleId.toUInt32 := by
  rw [useParameters]
  cases hfor : l.parametersFor titleId with
  | none =>
    have hother : l.nextLoad = some params → params.lowTitleId ≠ titleId.toUInt32 :=
      fun hnext hlow => absurd (parametersFor_eq_some.mpr ⟨hnext, hlow⟩) (by simp [hfor])
    simpa using hother
  | some used =>
    obtain ⟨hnext, hlow⟩ := parametersFor_eq_some.mp hfor
    refine iff_of_false (Option.some_ne_none params).symm ?_
    rintro ⟨hparams, hne⟩
    cases hnext.symm.trans hparams
    exact hne hlow

theorem plan_of_applies {l : Loader} {titleId : UInt64} {params : LoadParameters}
    (hnext : l.nextLoad = some params) (hlow : params.lowTitleId = titleId.toUInt32) :
    l.plan titleId = ⟨[params.path], params.config, params.noFlash⟩ := by
  rw [plan, parametersFor_eq_some.mpr ⟨hnext, hlow⟩]

theorem plan_of_other {l : Loader} {titleId : UInt64}
    (hother : ∀ params, l.nextLoad = some params → params.lowTitleId ≠ titleId.toUInt32) :
    l.plan titleId = ⟨[titlePath l.config titleId, defaultPath l.config], [], false⟩ := by
  have hnone : l.parametersFor titleId = none := by
    refine Option.eq_none_iff_forall_ne_some.mpr fun params hfor => ?_
    obtain ⟨hnext, hlow⟩ := parametersFor_eq_some.mp hfor
    exact hother params hnext hlow
  rw [plan, hnone]

theorem venture_useParameters (m : Machine Loader (σ × List Sighting)) (titleId : UInt64) :
    venture { m with client := m.client.useParameters titleId } =
      { venture m with nextLoad := (m.client.useParameters titleId).nextLoad } := by
  rw [useParameters]
  split <;> rfl

/-- What has been tried when an injection ends, with or without a plugin. -/
theorem ventures_inject {l : Loader} (hl : v.Fits l) :
    Ventures p v (inject target) fun r w =>
      w.state = v.state ∧ (∀ e, r = .error e → Pursued target l v w) ∧
        ∀ noFlash, r = .ok noFlash → Pursued target l v (w.finish noFlash) := by
  refine .bind (ventures_call _) ?_
  rintro answer _ rfl
  cases answer with
  | error e => exact .pure ⟨rfl, fun _ _ => .unread e, nofun⟩
  | ok titleId =>
    refine Ventures.client fun now hnow => ?_
    have hplan : now.plan titleId = l.plan titleId :=
      plan_congr (hnow.config.trans hl.config.symm) (hnow.nextLoad.trans hl.nextLoad.symm) titleId
    have huse : Ventures p { v with effort := v.effort.add (.titleId target) (.ok titleId) }
        (Act.modifyClient (·.useParameters titleId)) fun _ w => w = { v with
          nextLoad := (l.useParameters titleId).nextLoad
          effort := v.effort.add (.titleId target) (.ok titleId) } := by
      refine ventures_modify fun m hm => ?_
      have hsame : m.client.nextLoad = l.nextLoad :=
        (congrArg Venture.nextLoad hm).trans hl.nextLoad.symm
      rw [venture_useParameters, hm, nextLoad_useParameters hsame]
    refine .then huse fun _ => .bind (ventures_injectFirst _ _ _) ?_
    rintro r _ ⟨attempts, h, rfl, hok⟩
    rw [hplan] at h hok ⊢
    cases r with
    | error e => exact .pure ⟨rfl, fun _ _ => .failed h, nofun⟩
    | ok u =>
      obtain ⟨path, data, hlast⟩ := hok u rfl
      refine .pure ⟨rfl, nofun, fun noFlash he => ?_⟩
      cases he
      exact .loaded h hlast

theorem ventures_transition (state : SlotState) :
    Ventures p v (transition state) fun _ w => w = { v with state := state } := by
  rintro m rfl
  rfl

theorem ventures_finishLoad (noFlash : Bool) :
    Ventures p v (finishLoad target noFlash) fun _ w => w = v.finish noFlash := by
  have hrun {u : Venture} (line : String) (event : Event) :
      Ventures p u (do transition .running; Act.debug line; record event) fun _ w =>
        w = { u with state := .running } := by
    refine .then (ventures_transition .running) fun _ => ?_
    exact .then (ventures_of_keeps fun _ => rfl) fun _ => ventures_of_keeps fun _ => rfl
  refine Ventures.client fun l hl => ?_
  dsimp only
  rw [hl.config]
  split
  case isTrue hflash =>
    refine .bind (ventures_call .flash) ?_
    rintro _ _ rfl
    refine (hrun _ _).imp ?_
    rintro _ _ rfl
    rw [Venture.finish, hflash, Bool.or_true]
    rfl
  case isFalse hflash =>
    refine (hrun _ _).imp ?_
    rintro _ _ rfl
    rw [Venture.finish, Bool.eq_false_iff.mpr hflash, Bool.or_false]

theorem ventures_abandonLoad (e : Error) :
    Ventures p v (abandonLoad target e) fun _ w => w = v := by
  refine .then (ventures_of_keeps fun _ => rfl) fun _ => Ventures.client fun l _ => ?_
  refine .then (ventures_modify fun m hm => hm) fun _ => ?_
  refine .then (ventures_of_keeps fun _ => rfl) fun _ => ?_
  exact .then (ventures_of_keeps fun _ => rfl) fun _ => ventures_of_keeps fun _ => rfl

theorem ventures_runPendingTasks (hidle : v.tasks = .empty) :
    Ventures p v runPendingTasks fun _ w => w = v := by
  rintro m rfl
  rw [Service.runPendingTasks_of_idle hidle]

theorem ventures_load {l : Loader} (hl : v.Fits l) (hidle : v.tasks = .empty) :
    Ventures p v (load target) (Ventured target l v) := by
  have hrefuse {x : Act Loader (σ × List Sighting) (Except Error Unit)}
      (hx : x.Keeps (watch p) venture) (hnot : ¬v.Ready) : Ventures p v x (Ventured target l v) :=
    (ventures_of_keeps hx).imp fun _ _ hw =>
      ⟨fun h => absurd h hnot, fun _ => hw, fun h => absurd h hnot⟩
  refine .then (ventures_runPendingTasks hidle) fun _ => Ventures.client fun now hnow => ?_
  split
  case isTrue hstate =>
    refine hrefuse ?_ fun h => hstate (hnow.state.trans h.1)
    exact .bind (fun _ => rfl) fun _ => .bind (fun _ => rfl) fun _ => .pure _
  case isFalse hstate =>
    split
    case isTrue henabled =>
      refine hrefuse (.bind (fun _ => rfl) fun closed => ?_) fun h => ?_
      · cases closed <;> exact .pure _
      · rw [hnow.enabled, h.2] at henabled
        cases henabled
    case isFalse henabled =>
      have hready : v.Ready := by
        refine ⟨hnow.state.symm.trans (Decidable.of_not_not hstate), ?_⟩
        rw [← hnow.enabled]
        simpa using henabled
      refine .then (ventures_of_keeps fun _ => rfl) fun _ => ?_
      refine .then (ventures_modify fun m hm => hm) fun _ => .bind (ventures_inject hl) ?_
      rintro r w ⟨hsame, hfailed, hloaded⟩
      cases r with
      | ok noFlash =>
        refine .then (ventures_finishLoad noFlash) fun _ => .pure ?_
        exact ⟨fun _ => hloaded noFlash rfl, fun hnot => absurd hready hnot,
          fun _ => iff_of_true rfl rfl⟩
      | error e =>
        have hidle : w.state ≠ .running := by
          rw [hsame, hready.1]
          nofun
        refine .then (ventures_abandonLoad e) fun _ => .pure ?_
        exact ⟨fun _ => hfailed e rfl, fun hnot => absurd hready hnot,
          fun _ => iff_of_false nofun hidle⟩

end load
end Loader
end PluginSlot
