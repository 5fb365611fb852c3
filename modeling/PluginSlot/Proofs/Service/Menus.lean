import PluginSlot.Proofs.Service.Reading
import PluginSlot.Proofs.Service.Refusal

/-!
Menus on their way to the user and back. A menu is shown with the labels, hints and states of its request,
and the new states come back in the place of the old ones. Labels are counted up to the last one that is
not empty, so a menu whose last label is empty is refused.
-/
namespace PluginSlot
open Platform (Act Call Handler Machine Stub Menu MenuEntry)
open Loader Wire

namespace Service
variable {σ : Type}

/-- A request for a menu with some entries. -/
def menuRequest (count : UInt32) (title states labels hints : List UInt8) : Request :=
  ⟨Command.displayMenu.requestHeader, [count],
    [.buffer title, .buffer states, .buffer labels, .buffer hints]⟩

section entries
variable {labels hints : List String} {states : List UInt8}

/-- Entries without a hint have an empty one anyway. -/
theorem menuEntries_concat_empty :
    menuEntries labels states (hints ++ [""]) = menuEntries labels states hints := by
  induction labels generalizing states hints with
  | nil => rfl
  | cons label labels ih =>
    cases states with
    | nil => rfl
    | cons state states =>
      cases hints with
      | nil =>
        have hrest : menuEntries labels states ([] ++ [""]) = menuEntries labels states [] := ih
        simp_all [menuEntries]
      | cons hint hints => simp [menuEntries, ih]

theorem menuEntries_rdropWhile :
    menuEntries labels states (hints.rdropWhile String.isEmpty) = menuEntries labels states hints := by
  induction hints using List.reverseRecOn with
  | nil => rfl
  | append_singleton hints hint ih =>
    cases hempty : hint.isEmpty with
    | true =>
      obtain rfl : hint = "" := by simpa using hempty
      rw [List.rdropWhile_concat_pos _ _ _ hempty, ih, menuEntries_concat_empty]
    | false => rw [List.rdropWhile_concat_neg _ _ _ (by simp [hempty])]

/-- The menu shows these labels, hints and states, in this order. -/
structure Displays (menu : Menu) (title : String) (labels hints : List String) (states : List UInt8) :
    Prop where
  title : menu.title = title
  labels : menu.entries.map (·.label) = labels
  hints : menu.entries.map (·.hint) = hints
  states : menu.entries.map (·.state) = states

theorem displays_menuEntries (title : String) (hhints : hints.length = labels.length)
    (hstates : states.length = labels.length) :
    Displays ⟨title, menuEntries labels states hints⟩ title labels hints states := by
  have hentries : (menuEntries labels states hints).map (·.label) = labels ∧
      (menuEntries labels states hints).map (·.hint) = hints ∧
      (menuEntries labels states hints).map (·.state) = states := by
    induction labels generalizing states hints with
    | nil => simp_all [menuEntries]
    | cons label labels ih =>
      cases states with
      | nil => simp at hstates
      | cons state states =>
        cases hints with
        | nil => simp at hhints
        | cons hint hints =>
          obtain ⟨hlabels, hhints, hstates⟩ :=
            ih (by simpa using hhints) (by simpa using hstates)
          simp [menuEntries, hlabels, hhints, hstates]
  exact ⟨rfl, hentries.1, hentries.2.1, hentries.2.2⟩

end entries

section reading
variable {bytes states : List UInt8} {title : String} {labels hints : List String}

/-- What is read from the buffers of a menu. -/
theorem menu_menuRequest (count : UInt32) (states : List UInt8) (htitle : Spells bytes title)
    (hlabels : ∀ label ∈ labels, ZeroFree label) (hhints : ∀ hint ∈ hints, ZeroFree hint) :
    (menuRequest count bytes states (terminated labels) (terminated hints)).menu =
      if (labels.rdropWhile String.isEmpty).length < count.toNat ∨ states.length < count.toNat then
        .error .tooLarge
      else .ok ⟨⟨title, menuEntries ((labels.rdropWhile String.isEmpty).take count.toNat)
        (states.take count.toNat) hints⟩, states⟩ := by
  have htext : (menuRequest count bytes states (terminated labels) (terminated hints)).text 0 = .ok title :=
    Request.text_eq_ok_iff.mpr ⟨bytes, rfl, htitle⟩
  have hstates : (menuRequest count bytes states (terminated labels) (terminated hints)).buffer 1 =
      .ok states := rfl
  have hlabelTexts : (menuRequest count bytes states (terminated labels) (terminated hints)).texts 2 =
      .ok (labels.rdropWhile String.isEmpty) :=
    congrArg Request.orMalformed (stringList_terminated hlabels)
  have hhintTexts : (menuRequest count bytes states (terminated labels) (terminated hints)).texts 3 =
      .ok (hints.rdropWhile String.isEmpty) :=
    congrArg Request.orMalformed (stringList_terminated hhints)
  rw [Request.menu, htext, hstates, hlabelTexts, hhintTexts, ← menuEntries_rdropWhile]
  rfl

/-- Only if there are empty labels at the end, they are not counted. -/
theorem rdropWhile_labels (hlast : labels.getLast? ≠ some "") :
    labels.rdropWhile String.isEmpty = labels := by
  rw [List.rdropWhile_eq_self_iff]
  intro hnonempty hempty
  rw [List.getLast?_eq_some_getLast hnonempty] at hlast
  exact hlast (congrArg some (by simpa using hempty))

theorem length_rdropWhile_lt (hlast : labels.getLast? = some "") :
    (labels.rdropWhile String.isEmpty).length < labels.length := by
  obtain ⟨front, rfl⟩ := List.getLast?_eq_some_iff.mp hlast
  rw [List.rdropWhile_concat_pos _ _ _ rfl, List.length_append]
  exact Nat.lt_succ_of_le (List.rdropWhile_prefix _ _).length_le

/-- The response to a request for a menu, once the user is done with it. -/
def menuResponse (states : List UInt8) : Except Platform.Error Menu → Response
  | .error e => .failure .displayMenu (.ofPlatform e)
  | .ok shown => .withDescriptor .displayMenu (.buffer (updatedStates states shown.entries))

theorem respond_displayMenu {p : Platform σ} {r : Request} (hshape : r.hasShape .displayMenu = true)
    (m : Machine Loader (σ × List Sighting)) : respond r (watch p) m =
      match r.menu with
      | .error e => (.failure .displayMenu e, m)
      | .ok found => (menuResponse found.states (p.answer (.menu found.menu) m.platform.1).1,
          (watch p (.menu found.menu) m).2) := by
  rw [respond_of_hasShape hshape, perform, displayMenu]
  cases r.menu with
  | error e => rfl
  | ok found =>
    have hcall : Act.call (.menu found.menu) (watch p) m =
        ((p.answer (.menu found.menu) m.platform.1).1, (watch p (.menu found.menu) m).2) := rfl
    dsimp only
    rw [Act.bind_run, hcall]
    cases (p.answer (.menu found.menu) m.platform.1).1 <;> rfl

/-- The states of as many entries as were asked for are at the start of the buffer. -/
theorem updatedStates_eq {entries : List MenuEntry} (h : entries.length ≤ states.length) :
    updatedStates states entries = entries.map (·.state) ++ states.drop entries.length := by
  rw [updatedStates, List.take_of_length_le (by simpa using h)]

end reading

section career
variable (p : Platform σ) (config : Config) (s : σ)

/-- A menu with these contents is shown. If the user may change its states, and nothing else, the response
has the new states in the place of the old ones. -/
def RoundTrips (ops : List Operation) (r : Request) (title : String) (labels hints : List String)
    (states : List UInt8) : Prop :=
  ∃ menu response, Displays menu title labels hints (states.take labels.length) ∧
    (follow p (.request r) (career p config s ops)).1 = .response response ∧
    Handled r response.result (career p config s ops) (career p config s (ops ++ [.request r]))
      (career p config s ops).client [.menu menu] ∧
    ∀ shown changed, (p.answer (.menu menu) (career p config s ops).platform.1).1 = .ok shown →
      Displays shown title labels hints changed →
      response = .withDescriptor .displayMenu (.buffer (changed ++ states.drop labels.length)) ∧
        (changed ++ states.drop labels.length).length = states.length

/-- The request is refused, and no menu is shown. -/
def RefusesMenu (ops : List Operation) (r : Request) : Prop :=
  (follow p (.request r) (career p config s ops)).1 = .response (.failure .displayMenu .tooLarge) ∧
    Handled r Code.tooLarge (career p config s ops) (career p config s (ops ++ [.request r]))
      (career p config s ops).client []

theorem refusesMenu_of_menu {ops : List Operation} {r : Request} (hshape : r.hasShape .displayMenu = true)
    (hmenu : r.menu = .error .tooLarge) : RefusesMenu p config s ops r := by
  have hrespond := respond_displayMenu (p := p) hshape (facing p config s ops r)
  rw [hmenu] at hrespond
  exact handled_career p config s (m := facing p config s ops r) [] hrespond rfl rfl rfl
    (List.append_nil _).symm

variable {p config s} in
/-- In place of the menu that was asked for there is no call at all. -/
theorem RefusesMenu.not_roundTrips {ops : List Operation} {r : Request} {title : String}
    {labels hints : List String} {states : List UInt8} (hrefuses : RefusesMenu p config s ops r) :
    ¬RoundTrips p config s ops r title labels hints states := by
  rintro ⟨menu, response, -, -, hshows, -⟩
  have hcalls := congrArg List.length (hshows.calls.symm.trans hrefuses.2.calls)
  simp at hcalls

theorem roundTrips_of_menu {ops : List Operation} {r : Request} {menu : Menu} {title : String}
    {labels hints : List String} {states : List UInt8} (hshape : r.hasShape .displayMenu = true)
    (hmenu : r.menu = .ok ⟨menu, states⟩) (hstates : labels.length ≤ states.length)
    (hdisplays : Displays menu title labels hints (states.take labels.length)) :
    RoundTrips p config s ops r title labels hints states := by
  have hrespond := respond_displayMenu (p := p) hshape (facing p config s ops r)
  rw [hmenu] at hrespond
  obtain ⟨hresponse, hhandled⟩ := handled_career p config s [.menu menu] hrespond rfl rfl rfl rfl
  refine ⟨menu, _, hdisplays, hresponse, hhandled, ?_⟩
  intro shown changed hshown hchanged
  have hentries : shown.entries.length = labels.length := by
    rw [← hchanged.labels, List.length_map]
  have hupdated : updatedStates states shown.entries = changed ++ states.drop labels.length := by
    rw [updatedStates_eq (hentries ▸ hstates), hchanged.states, hentries]
  have hanswer : (p.answer (.menu menu) (facing p config s ops r).platform.1).1 = .ok shown := hshown
  rw [hanswer, menuResponse, ← hupdated]
  exact ⟨rfl, length_updatedStates states shown.entries⟩

/-- A menu is shown as it was asked for, and what its user does with the states comes back. Only if the
last label is empty, too few labels are counted, and the request is refused. -/
theorem career_menuRequest (ops : List Operation) (count : UInt32) {bytes : List UInt8} {title : String}
    (labels hints : List String) (states : List UInt8) (htitle : Spells bytes title)
    (hlabels : ∀ label ∈ labels, ZeroFree label) (hhints : ∀ hint ∈ hints, ZeroFree hint)
    (hcount : labels.length = count.toNat) (hlength : hints.length = labels.length)
    (hstates : labels.length ≤ states.length) :
    (labels.getLast? ≠ some "" → RoundTrips p config s ops
      (menuRequest count bytes states (terminated labels) (terminated hints)) title labels hints states) ∧
    (labels.getLast? = some "" → RefusesMenu p config s ops
      (menuRequest count bytes states (terminated labels) (terminated hints))) := by
  have hmenu := menu_menuRequest count states htitle hlabels hhints
  constructor
  · intro hlast
    have hcounted : ¬(labels.length < count.toNat ∨ states.length < count.toNat) := by omega
    rw [rdropWhile_labels hlast, if_neg hcounted, ← hcount, List.take_length] at hmenu
    refine roundTrips_of_menu p config s rfl hmenu hstates (displays_menuEntries title hlength ?_)
    rw [List.length_take, Nat.min_eq_left hstates]
  · intro hlast
    have hcounted := length_rdropWhile_lt hlast
    rw [if_pos (.inl (hcount ▸ hcounted))] at hmenu
    exact refusesMenu_of_menu p config s rfl hmenu

end career
end Service

/-- The smallest platform, with a user who switches on all entries of menus. -/
def Platform.Stub.switching : Platform Stub where
  answer
    | .menu menu, s => (.ok { menu with entries := menu.entries.map ({ · with state := 1 }) }, s)
    | c, s => Stub.answer c s

namespace Service

/-- Only the states of the entries are others. -/
theorem Displays.switched {menu : Menu} {title : String} {labels hints : List String} {states : List UInt8}
    (hmenu : Displays menu title labels hints states) (state : UInt8) :
    Displays { menu with entries := menu.entries.map ({ · with state := state }) } title labels hints
      (List.replicate labels.length state) := by
  obtain ⟨htitle, rfl, rfl, -⟩ := hmenu
  exact ⟨htitle, by simp, by simp, by simp [Function.comp_def]⟩

/-- Of two labels the first may be empty, but not the second. -/
theorem career_menuRequest_twoLabels :
    (follow Stub.switching (.request (menuRequest 2 [116] [0, 0, 9] (terminated ["", "b"])
        (terminated ["h", ""]))) (career Stub.switching .default .initial [])).1 =
      .response (.withDescriptor .displayMenu (.buffer [1, 1, 9])) ∧
    RefusesMenu Stub.switching .default .initial []
      (menuRequest 2 [116] [0, 0, 9] (terminated ["a", ""]) (terminated ["h", ""])) := by
  have htitle : Spells [116] "t" := by decide +kernel
  constructor
  · obtain ⟨menu, response, hmenu, hresponse, -, hshown⟩ := (career_menuRequest Stub.switching .default
      .initial [] 2 ["", "b"] ["h", ""] [0, 0, 9] htitle
        (by decide +kernel) (by decide +kernel) rfl rfl (by decide)).1 (by decide)
    rw [hresponse, (hshown _ [1, 1] rfl (hmenu.switched 1)).1]
    rfl
  · exact (career_menuRequest Stub.switching .default .initial [] 2 ["a", ""] ["h", ""] [0, 0, 9] htitle
      (by decide +kernel) (by decide +kernel) rfl rfl
        (by decide)).2 (by decide)

/-- A menu whose only label is empty is not shown. -/
theorem not_roundTrips_of_emptyLabel :
    Spells [116] "t" ∧ ZeroFree "" ∧ ¬RoundTrips Stub.switching .default .initial []
      (menuRequest 1 [116] [0] (terminated [""]) (terminated [""])) "t" [""] [""] [0] := by
  refine ⟨by decide +kernel, by decide +kernel, ?_⟩
  exact (refusesMenu_of_menu Stub.switching .default .initial rfl (by decide +kernel)).not_roundTrips

end Service
end PluginSlot
