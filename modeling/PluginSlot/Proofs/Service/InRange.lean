import PluginSlot.Service.Strict

/-!
Nothing that the service reads by position is out of range: the lists of a request have the lengths that
its shape says, and all other positions come from the list itself. With the checks the service therefore
answers what it answers without them.
-/
namespace PluginSlot.Service.Strict
open Platform (Act Handler Machine MenuEntry)
open Wire Loader

variable {σ α β : Type}

theorem upTo_of_le {bytes : List UInt8} {stop : Nat} (h : stop ≤ bytes.length) :
    upTo bytes stop = some (bytes.take stop) := if_pos h

section decoders

theorem cString_eq (bytes : List UInt8) :
    cString bytes = .of (Request.orMalformed (Wire.cString bytes)) := by
  have hstop : (bytes.findIdx? (· = 0)).getD bytes.length = bytes.findIdx (· = 0) :=
    List.findIdx_eq_getD_findIdx?.symm
  have hkept : bytes.takeWhile (· ≠ 0) = bytes.take (bytes.findIdx (· = 0)) := by
    simp [List.takeWhile_eq_take_findIdx_not]
  rw [cString, hstop, upTo_of_le List.findIdx_le_length, Wire.cString, hkept]
  rfl

/-- What is left without the zero bytes at the end is what the last other byte ends. -/
theorem dropTrailingZeros_eq (bytes : List UInt8) :
    dropTrailingZeros bytes = match lastNonzero? bytes with
      | none => []
      | some last => bytes.take (last + 1) := by
  have hdrop : bytes.reverse.dropWhile (· = 0) = bytes.reverse.drop (bytes.reverse.findIdx (· ≠ 0)) := by
    simp [List.dropWhile_eq_drop_findIdx_not]
  rw [dropTrailingZeros, hdrop, lastNonzero?]
  cases hlast : bytes.reverse.findIdx? (· ≠ 0) with
  | none =>
    rw [List.findIdx_eq_getD_findIdx?, hlast, Option.getD_none, List.drop_length]
    rfl
  | some i =>
    obtain ⟨hi, hfound⟩ := List.findIdx?_eq_some_iff_findIdx_eq.mp hlast
    rw [List.length_reverse] at hi
    rw [hfound, List.reverse_drop, List.reverse_reverse, List.length_reverse, Option.map_some]
    show _ = bytes.take (bytes.length - 1 - i + 1)
    congr 1
    omega

theorem stringList_eq (bytes : List UInt8) :
    stringList bytes = .of (Request.orMalformed (Wire.stringList bytes)) := by
  have hkept := dropTrailingZeros_eq bytes
  rw [stringList, Wire.stringList]
  cases hlast : lastNonzero? bytes with
  | none =>
    rw [hlast] at hkept
    rw [hkept]
    rfl
  | some last =>
    rw [hlast] at hkept
    have hbound : last + 1 ≤ bytes.length := by
      obtain ⟨i, hi, rfl⟩ := Option.map_eq_some_iff.mp hlast
      have hi := (List.findIdx?_eq_some_iff_findIdx_eq.mp hi).1
      rw [List.length_reverse] at hi
      omega
    rw [hkept]
    dsimp only
    rw [upTo_of_le hbound]
    cases hbytes : bytes.take (last + 1) with
    | nil =>
      have hempty := congrArg List.length hbytes
      rw [List.length_take, Nat.min_eq_left hbound] at hempty
      exact absurd hempty (Nat.succ_ne_zero last)
    | cons byte rest => rfl

theorem chunks_cons (a b c d : UInt8) (rest : List UInt8) :
    chunks (a :: b :: c :: d :: rest) = [a, b, c, d] :: chunks rest := by
  have hlength : (a :: b :: c :: d :: rest).length / 4 = rest.length / 4 + 1 := by
    simp only [List.length_cons]
    omega
  rw [chunks, hlength, List.range_succ_eq_map, List.map_cons, List.map_map]
  rfl

/-- Every run of four bytes has its four bytes. -/
theorem mapM_word_chunks (bytes : List UInt8) (h : bytes.length % 4 = 0) :
    (chunks bytes).mapM word = words? bytes := by
  induction bytes using words?.induct with
  | case1 => rfl
  | case2 a b c d rest ih =>
    have hrest : rest.length % 4 = 0 := by
      simp only [List.length_cons] at h
      omega
    rw [chunks_cons, List.mapM_cons, ih hrest, words?]
    cases words? rest <;> rfl
  | case3 bytes hnil hcons =>
    rcases bytes with _ | ⟨a, _ | ⟨b, _ | ⟨c, _ | ⟨d, rest⟩⟩⟩⟩
    · exact absurd rfl hnil
    · exact absurd h (by simp)
    · exact absurd h (by simp)
    · exact absurd h (by simp)
    · exact absurd rfl (hcons a b c d rest)

theorem words?_isSome (bytes : List UInt8) : (words? bytes).isSome = (bytes.length % 4 == 0) := by
  induction bytes using words?.induct with
  | case1 => rfl
  | case2 a b c d rest ih =>
    rw [words?, Option.isSome_map, ih]
    simp only [List.length_cons]
    congr 1
    omega
  | case3 bytes hnil hcons =>
    rcases bytes with _ | ⟨a, _ | ⟨b, _ | ⟨c, _ | ⟨d, rest⟩⟩⟩⟩
    · exact absurd rfl hnil
    · rfl
    · rfl
    · rfl
    · exact absurd rfl (hcons a b c d rest)

theorem words_eq (bytes : List UInt8) :
    words bytes = .of (match words? bytes with
      | none => .error .malformedRequest
      | some ws => if ws.length > maxConfigWords then .error .tooLarge else .ok ws) := by
  have hwhole := words?_isSome bytes
  rw [words]
  cases hws : words? bytes with
  | none =>
    rw [hws] at hwhole
    rw [if_pos fun h => by simp [h] at hwhole]
  | some ws =>
    rw [hws] at hwhole
    have hmod : bytes.length % 4 = 0 := by simpa using hwhole.symm
    have hlength : bytes.length / 4 = ws.length := by
      rw [length_of_words? hws]
      omega
    rw [if_neg fun hodd => hodd hmod, hlength]
    dsimp only
    split
    · rfl
    · rw [mapM_word_chunks bytes hmod, hws]
      rfl

end decoders

section entries
variable (hints : List String)

/-- What is before the first label's index plays no part. -/
theorem mapM_menuEntry (states : List UInt8) (labels : List String) (i : Nat)
    (h : i + labels.length ≤ states.length) :
    (labels.zipIdx i).mapM (menuEntry states hints) =
      some (menuEntries labels (states.drop i) (hints.drop i)) := by
  induction labels generalizing i with
  | nil => rfl
  | cons label labels ih =>
    rw [List.length_cons] at h
    have hi : i < states.length := by omega
    have hstate : states[i]? = some states[i] := List.getElem?_eq_getElem hi
    have hhint : (hints.drop i).headD "" = hints.getD i "" := by
      rw [List.headD_eq_head?_getD, List.head?_drop, List.getD_eq_getElem?_getD]
    have htail : (hints.drop i).tail = hints.drop (i + 1) := List.tail_drop
    rw [List.zipIdx_cons, List.mapM_cons, ih (i + 1) (by omega), menuEntry, hstate,
      List.drop_eq_getElem_cons hi, menuEntries, hhint, htail]
    rfl

theorem menuEntries_take (labels : List String) (states : List UInt8) (n : Nat)
    (h : labels.length ≤ n) :
    menuEntries labels (states.take n) hints = menuEntries labels states hints := by
  induction labels generalizing states hints n with
  | nil => rfl
  | cons label labels ih =>
    rw [List.length_cons] at h
    obtain ⟨n, rfl⟩ : ∃ k, n = k + 1 := ⟨n - 1, by omega⟩
    cases states with
    | nil => rfl
    | cons state states => rw [List.take_succ_cons, menuEntries, menuEntries, ih _ _ _ (by omega)]

end entries

section readings
variable (r : Request)

theorem Reading.of_step {γ : Type} {a : Except Error α} {g : α → Except Error β}
    {g' : α → Reading β} (hg : ∀ x, g' x = .of (g x)) (f : β → Reading γ) :
    (Reading.of a >>= fun x => g' x >>= f) = Reading.of (a.bind g) >>= f := by
  cases a with
  | error e => rfl
  | ok x =>
    show (g' x >>= f) = _
    rw [hg]
    rfl

theorem read_text (i : Nat) (f : String → Reading β) :
    (Reading.of (r.buffer i) >>= fun bytes => cString bytes >>= f) = .of (r.text i) >>= f :=
  Reading.of_step cString_eq f

theorem read_texts (i : Nat) (f : List String → Reading β) :
    (Reading.of (r.buffer i) >>= fun bytes => stringList bytes >>= f) = .of (r.texts i) >>= f :=
  Reading.of_step stringList_eq f

theorem read_words (i : Nat) (f : List UInt32 → Reading β) :
    (Reading.of (r.buffer i) >>= fun bytes => words bytes >>= f) = .of (r.words i) >>= f :=
  Reading.of_step words_eq f

theorem param_eq {i : Nat} (h : i < r.params.length) : r.params[i]? = some (r.param i) := by
  rw [Request.param, List.getD_eq_getElem?_getD, List.getElem?_eq_getElem h]
  rfl

theorem loadParameters_eq (h : r.params.length = 2) :
    loadParameters r = .of r.loadParameters := by
  rw [loadParameters, read_text]
  simp only [read_words]
  rw [param_eq r (by omega), param_eq r (by omega), Request.loadParameters]
  cases r.text 0 with
  | error e => rfl
  | ok path => cases r.words 1 <;> rfl

theorem box_eq : box r = .of r.box := by
  rw [box, read_text]
  simp only [read_text]
  rw [Request.box]
  cases r.text 0 with
  | error e => rfl
  | ok title => cases r.text 1 <;> rfl

theorem swapSettings_eq (h : r.params.length = 2) (defaultFilename : String) :
    swapSettings r defaultFilename = .of (r.swapSettings defaultFilename) := by
  rw [swapSettings]
  simp only [read_text]
  rw [param_eq r (by omega), param_eq r (by omega), Request.swapSettings]
  cases r.wordIn 0 with
  | error e => rfl
  | ok bound => cases r.text 1 <;> rfl

/-- A menu asks for no more states than it has checked that there are. -/
theorem menu_eq (h : r.params.length = 1) : menu r = .of r.menu := by
  rw [menu]
  simp only [read_text, read_texts]
  rw [param_eq r (by omega), Request.menu]
  cases r.text 0 with
  | error e => rfl
  | ok title =>
    cases r.buffer 1 with
    | error e => rfl
    | ok states =>
      cases r.texts 2 with
      | error e => rfl
      | ok labels =>
        cases r.texts 3 with
        | error e => rfl
        | ok hints =>
          show (if _ then _ else _) = Reading.of (if _ then _ else _)
          split
          · rfl
          · rename_i hmany
            obtain ⟨hlabels, hstates⟩ := not_or.mp hmany
            have htaken : (labels.take (r.param 0).toNat).length ≤ (r.param 0).toNat :=
              List.length_take_le ..
            rw [mapM_menuEntry hints states _ 0 (by omega), menuEntries_take _ _ _ _ htaken]
            rfl

end readings

/-- The checks find nothing, and the computation is what it is without them. -/
def InRange (x : Checked σ α) (y : Act Loader σ α) : Prop :=
  ∀ (h : Handler Loader σ) (m : Machine Loader σ), x.run h m = (some (y h m).1, (y h m).2)

namespace InRange
variable {x : Checked σ α} {y : Act Loader σ α}

theorem pure (a : α) : InRange (Pure.pure a : Checked σ α) (Pure.pure a) := fun _ _ => rfl

theorem act (y : Act Loader σ α) : InRange (.act y) y := fun _ _ => rfl

theorem bind {f : α → Checked σ β} {g : α → Act Loader σ β} (hx : InRange x y)
    (hf : ∀ a, InRange (f a) (g a)) : InRange (x >>= f) (y >>= g) := by
  intro h m
  rw [OptionT.run_bind, Option.elimM, Act.bind_run, hx h m]
  exact hf _ _ _

/-- An element that is there. -/
theorem found {a : α} {o : Option α} {f : α → Checked σ β} {g : Act Loader σ β} (ho : o = some a)
    (hf : InRange (f a) g) : InRange (.inRange o >>= f) g := by
  subst ho
  exact hf

theorem read {a : Except Error α} {b : Reading α} {f : Except Error α → Checked σ β}
    {g : Act Loader σ β} (hb : b = .of a) (hf : InRange (f a) g) : InRange (.read b >>= f) g := by
  subst hb
  exact hf

end InRange

section commands
variable (r : Request)

theorem inRange_setLoadParameters (h : r.params.length = 2) :
    InRange (setLoadParameters r : Checked σ _) (Service.setLoadParameters r) := by
  refine .read (loadParameters_eq r h) ?_
  rw [Service.setLoadParameters]
  cases r.loadParameters with
  | error e => exact .pure _
  | ok p => exact .bind (.act _) fun _ => .pure _

theorem inRange_displayMenu (h : r.params.length = 1) :
    InRange (displayMenu r : Checked σ _) (Service.displayMenu r) := by
  refine .read (menu_eq r h) ?_
  rw [Service.displayMenu]
  cases r.menu with
  | error e => exact .pure _
  | ok m => exact .bind (.act _) fun answer => by cases answer <;> exact .pure _

theorem inRange_displayMessage :
    InRange (displayMessage r : Checked σ _) (Service.displayMessage r) := by
  refine .read (box_eq r) ?_
  rw [Service.displayMessage]
  cases r.box with
  | error e => exact .pure _
  | ok b => exact .bind (.act _) fun _ => .pure _

theorem inRange_displayError (h : r.params.length = 1) :
    InRange (displayError r : Checked σ _) (Service.displayError r) := by
  refine .read (box_eq r) ?_
  rw [Service.displayError]
  cases r.box with
  | error e => exact .pure _
  | ok b => exact .found (param_eq r (by omega)) (.bind (.act _) fun _ => .pure _)

theorem copyTo_zeros {capacity : Nat} {bytes : List UInt8} (h : bytes.length ≤ capacity) :
    copyTo (List.replicate capacity 0) bytes = some (zeroFilled capacity bytes) := by
  have hroom : bytes.length ≤ (List.replicate capacity (0 : UInt8)).length := by
    rw [List.length_replicate]
    exact h
  have hfront : ((List.replicate capacity (0 : UInt8)).take bytes.length).length = bytes.length := by
    rw [List.length_take, Nat.min_eq_left hroom]
  rw [copyTo, upTo_of_le hroom, Option.bind_eq_bind, Option.bind_some, if_pos hfront,
    List.drop_replicate]
  rfl

/-- The path is copied only where it fits. -/
theorem inRange_getPluginPath :
    InRange (getPluginPath r : Checked σ _) (Service.getPluginPath r) := by
  refine .read rfl ?_
  rw [Service.getPluginPath]
  cases r.buffer 0 with
  | error e => exact .pure _
  | ok bytes =>
    refine .bind (.act _) fun l => ?_
    split
    · exact .pure _
    · rename_i hroom
      have hfits : (Text.encode l.pluginPath).length ≤ bytes.length := by
        rw [Text.length_encode]
        omega
      exact .found (copyTo_zeros hfits) (.pure _)

theorem inRange_setSwapParameters (h : r.params.length = 2) :
    InRange (setSwapParameters r : Checked σ _) (Service.setSwapParameters r) := by
  refine .bind (.act _) fun l => .bind (.act _) fun _ => .read (swapSettings_eq r h _) ?_
  cases r.swapSettings l.config.defaultSwapFilename with
  | error e => exact .pure _
  | ok settings => exact .bind (.act _) fun _ => .bind (.act _) fun _ => .pure _

theorem inRange_setExeLoadParameters (h : r.params.length = 1) :
    InRange (setExeLoadParameters r : Checked σ _) (Service.setExeLoadParameters r) := by
  have hwords : (do words (← .of (r.buffer 0)) : Reading (List UInt32)) = .of (r.words 0) := by
    have hread := read_words r 0 Pure.pure
    simpa using hread
  rw [setExeLoadParameters, Service.setExeLoadParameters]
  refine .bind (.act _) fun _ => .read hwords ?_
  cases r.words 0 with
  | error e => exact .pure _
  | ok context =>
    refine .found (param_eq r (by omega)) ?_
    simp only [ExeLoad.configure]
    cases ExeLoad.make (r.param 0) context with
    | error e => exact .bind (.act _) fun _ => .pure _
    | ok p => exact .bind (.act _) fun _ => .bind (.act _) fun _ => .pure _

/-- A command reads those plain words that its requests have. -/
theorem inRange_perform {c : Command} (h : r.params.length = c.normalWords.toNat) :
    InRange (perform r c : Checked σ _) (Service.perform r c) := by
  cases c with
  | loadPlugin | isEnabled | getVersion | getArbiter => exact .act _
  | setEnabled =>
    exact .found (param_eq r (h ▸ Nat.zero_lt_one)) (.bind (.act _) fun _ => .pure _)
  | setUiBlock =>
    exact .found (param_eq r (h ▸ Nat.zero_lt_one)) (.bind (.act _) fun _ => .pure _)
  | setLoadParameters => exact inRange_setLoadParameters r h
  | displayMenu => exact inRange_displayMenu r h
  | displayMessage => exact inRange_displayMessage r
  | displayError => exact inRange_displayError r h
  | getPluginPath => exact inRange_getPluginPath r
  | setSwapParameters => exact inRange_setSwapParameters r h
  | setExeLoadParameters => exact inRange_setExeLoadParameters r h

theorem inRange_respond : InRange (respond r : Checked σ _) (Service.respond r) := by
  rw [respond, Service.respond]
  cases Command.ofId? (Header.decode r.header).command with
  | none => exact .bind (.act _) fun _ => .pure _
  | some c =>
    show InRange (performChecked r c) (Service.performChecked r c)
    rw [performChecked, Service.performChecked]
    split
    · rename_i hshape
      have hwords : r.params.length = c.normalWords.toNat := by
        simp only [Request.hasShape, Bool.and_eq_true, decide_eq_true_eq] at hshape
        exact hshape.1.2
      refine .bind (inRange_perform r hwords) fun answer => ?_
      cases answer <;> exact .pure _
    · exact .bind (.act _) fun _ => .pure _

theorem inRange_handle : InRange (handle r : Checked σ _) (Service.handle r) :=
  .bind (inRange_respond r) fun _ => .bind (.act _) fun _ => .bind (.act _) fun _ =>
    .bind (.act _) fun _ => .pure _

end commands
end PluginSlot.Service.Strict
