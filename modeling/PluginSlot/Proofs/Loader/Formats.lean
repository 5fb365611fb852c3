import PluginSlot.Proofs.Json.Digits
import PluginSlot.Proofs.Json.Records
import PluginSlot.Loader.Format
/-!
The text forms of the journal, the settings and the parameters say all there is: from what was written
each value is read back. Settings are also read from objects that give some of them, in any order.
-/
namespace PluginSlot.Loader
open Json

theorem names_recovers {α : Type} [DecidableEq α] {name : α → String} {all : List α}
    (hnames : (all.map name).Nodup) {a : α} (ha : a ∈ all) : (names name all).Recovers a := by
  refine variants_recovers ?_ (fun v hv => ?_) ?_
  · simpa [Function.comp_def, Variant.name] using hnames
  · obtain ⟨b, -, rfl⟩ := List.mem_map.mp hv
    exact fun h => of_decide_eq_true h
  · exact ⟨_, List.mem_map_of_mem ha, by simp [Variant.write?]⟩

@[simp] theorem slotState_recovers (s : SlotState) : SlotState.format.Recovers s :=
  names_recovers (by decide) (by cases s <;> decide)

@[simp] theorem handshakeKind_recovers (k : HandshakeKind) : HandshakeKind.format.Recovers k :=
  names_recovers (by decide) (by cases k <;> decide)

@[simp] theorem handle_recovers (h : Kernel.Handle) : handleFormat.Recovers h :=
  (word32_recovers _).map rfl

theorem event_recovers (e : Event) : Event.format.Recovers e := by
  refine variants_recovers (by decide) ?_ ?_
  · cases e <;> simp [Variant.Recovers, Fields.Recovers, Fields.required, one, Fields.names]
  · cases e <;> simp [Variant.write?]

theorem record_recovers (r : Record) : Record.format.Recovers r :=
  Fields.codec_recovers _ (by decide) ⟨word64_recovers _, word64_recovers _, event_recovers _, trivial⟩ rfl

theorem records_recovers (records : List Record) : recordsFormat.Recovers records :=
  list_recovers fun r _ => record_recovers r

theorem words_recovers (words : List UInt32) : (list word32).Recovers words :=
  list_recovers fun n _ => word32_recovers n

theorem config_recovers (c : Config) : Config.format.Recovers c :=
  Fields.codec_recovers _ (by decide) ⟨word64_recovers _, word64_recovers _, string_recovers _,
    string_recovers _, bool_recovers _, trivial⟩ rfl

theorem loadParameters_recovers (p : LoadParameters) : LoadParameters.format.Recovers p :=
  Fields.codec_recovers _ (by decide) ⟨bool_recovers _, word32_recovers _, string_recovers _,
    words_recovers _, trivial⟩ rfl

theorem swapSettings_recovers (s : Region.SwapSettings) : swapSettingsFormat.Recovers s :=
  Fields.codec_recovers _ (by decide) ⟨word32_recovers _, word32_recovers _, word64_recovers _,
    string_recovers _, bool_recovers _, trivial⟩ rfl

theorem exeLoad_recovers (e : ExeLoad) : ExeLoad.format.Recovers e :=
  Fields.codec_recovers _ (by decide) ⟨word32_recovers _, words_recovers _, bool_recovers _, trivial⟩ rfl

namespace Config

/-- What a settings object may give. -/
inductive Key where
  | handshakeTimeout
  | journalCapacity
  | pluginRoot
  | defaultSwapFilename
  | flashIndicator
deriving DecidableEq, Repr

def Key.name : Key → String
  | handshakeTimeout => "handshake_timeout_ms"
  | journalCapacity => "journal_capacity"
  | pluginRoot => "plugin_root"
  | defaultSwapFilename => "default_swap_filename"
  | flashIndicator => "flash_indicator"

/-- How the value of a key may be spelled. -/
def Key.Spells (c : Config) : Key → List Char → Prop
  | handshakeTimeout, text => text = Nat.toDigits 10 c.handshakeTimeout.toNat
  | journalCapacity, text => text = Nat.toDigits 10 c.journalCapacity.toNat
  | pluginRoot, text => StringText c.pluginRoot text
  | defaultSwapFilename, text => StringText c.defaultSwapFilename text
  | flashIndicator, text => text = if c.flashIndicator then "true".toList else "false".toList

/-- The settings with the values of some keys, and the defaults for the rest. -/
def only (c : Config) (keys : List Key) : Config where
  handshakeTimeout := if .handshakeTimeout ∈ keys then c.handshakeTimeout else default.handshakeTimeout
  journalCapacity := if .journalCapacity ∈ keys then c.journalCapacity else default.journalCapacity
  pluginRoot := if .pluginRoot ∈ keys then c.pluginRoot else default.pluginRoot
  defaultSwapFilename :=
    if .defaultSwapFilename ∈ keys then c.defaultSwapFilename else default.defaultSwapFilename
  flashIndicator := if .flashIndicator ∈ keys then c.flashIndicator else default.flashIndicator

theorem Key.name_inj {k k' : Key} (h : k.name = k'.name) : k = k' := by
  revert h
  cases k <;> cases k' <;> decide

theorem Key.name_mem_map {k : Key} {keys : List Key} : k.name ∈ keys.map Key.name ↔ k ∈ keys :=
  List.mem_map_of_injective fun _ _ => Key.name_inj

/-- The values in the order of the fields. -/
def values (c : Config) : UInt64 × UInt64 × String × String × Bool × Unit :=
  (c.handshakeTimeout, c.journalCapacity, c.pluginRoot, c.defaultSwapFilename, c.flashIndicator, ())

theorem decode_object (c : Config) {keys : List Key} (hkeys : keys.Nodup) {text : List Char}
    (h : ObjectText (keys.map fun k => (k.name, k.Spells c)) text) :
    Config.format.decode (Text.encode (String.ofList text)) = .ok (c.only keys) := by
  have hnames : (keys.map fun k => (k.name, k.Spells c)).map Prod.fst = keys.map Key.name := by simp
  refine Fields.decode_object _ (t := c.values) (u := (c.only keys).values) (by decide) h ?_ ?_ ?_ rfl
  · rw [hnames]
    exact hkeys.map fun _ _ => Key.name_inj
  · intro m hm text htext
    obtain ⟨k, -, rfl⟩ := List.mem_map.mp hm
    change Fields.Spells _ c.values k.name text
    cases k with
    | handshakeTimeout => exact .inl ⟨rfl, htext ▸ word64_recovers c.handshakeTimeout⟩
    | journalCapacity => exact .inr ⟨by decide, .inl ⟨rfl, htext ▸ word64_recovers c.journalCapacity⟩⟩
    | pluginRoot => exact .inr ⟨by decide, .inr ⟨by decide, .inl ⟨rfl, htext.reads⟩⟩⟩
    | defaultSwapFilename =>
      exact .inr ⟨by decide, .inr ⟨by decide, .inr ⟨by decide, .inl ⟨rfl, htext.reads⟩⟩⟩⟩
    | flashIndicator =>
      exact .inr ⟨by decide, .inr ⟨by decide, .inr ⟨by decide, .inr ⟨by decide, .inl
        ⟨rfl, htext ▸ bool_recovers c.flashIndicator⟩⟩⟩⟩⟩
  · rw [hnames]
    have hmem (k : Key) : k.name ∈ keys.map Key.name ↔ k ∈ keys := Key.name_mem_map
    simp only [Fields.complete_met_optional, values, only, ← hmem]
    rfl

end Config

/-- Whatever a journal, settings or parameters hold, their text is read back as what it was written for;
and an object of some settings, in any order and however spelled, gives these and leaves the rest at
their defaults. -/
theorem decode_text :
    (∀ j : Journal, recordsFormat.decode (Text.encode j.text) = .ok j.records) ∧
    (∀ c : Config, Config.format.decode (Text.encode (Config.format.text c)) = .ok c) ∧
    (∀ p : LoadParameters,
      LoadParameters.format.decode (Text.encode (LoadParameters.format.text p)) = .ok p) ∧
    (∀ s : Region.SwapSettings,
      swapSettingsFormat.decode (Text.encode (swapSettingsFormat.text s)) = .ok s) ∧
    (∀ e : ExeLoad, ExeLoad.format.decode (Text.encode (ExeLoad.format.text e)) = .ok e) ∧
    ∀ (c : Config) (keys : List Config.Key) (text : List Char), keys.Nodup →
      ObjectText (keys.map fun k => (k.name, k.Spells c)) text →
      Config.format.decode (Text.encode (String.ofList text)) = .ok (c.only keys) :=
  ⟨fun j => (records_recovers j.records).decode, fun c => (config_recovers c).decode,
    fun p => (loadParameters_recovers p).decode, fun s => (swapSettings_recovers s).decode,
    fun e => (exeLoad_recovers e).decode, fun c _ _ hkeys h => c.decode_object hkeys h⟩

example : (⟨[⟨0, 5, .loadFailed "a\x22b" 7⟩], 1, 1⟩ : Journal).text =
    "[\x7b\"seq\":0,\"timestamp\":5,\"kind\":\x7b\"LoadFailed\":\x7b\"path\":\"a\\\"b\",\"code\":7" ++
      "\x7d\x7d\x7d]" := by
  decide

/-- Two settings of five, the last before the third, with blanks and a path all in escapes. -/
theorem decode_text_partial :
    let c : Config := ⟨7, 0, "é😀\"", "", false⟩
    let keys : List Config.Key := [.flashIndicator, .pluginRoot]
    let text := (" \x7b\n\"flash_indicator\" :false," ++
      " \"plugin_root\":\t\"\\u00e9\\uD83D\\ude00\\\"\"\n\x7d").toList
    keys.Nodup ∧ ObjectText (keys.map fun k => (k.name, k.Spells c)) text ∧
      Config.format.decode (Text.encode (String.ofList text)) =
        .ok ⟨10000, 256, "é😀\"", "/luma/plugins/.swap", false⟩ := by
  intro c keys text
  let path := "\"\\u00e9\\uD83D\\ude00\\\"\"".toList
  let flash := ['\n'] ++ quoted "flash_indicator" ++ [' '] ++ ':' :: [] ++ "false".toList ++ []
  let root := [' '] ++ quoted "plugin_root" ++ [] ++ ':' :: ['\t'] ++ path ++ ['\n']
  have hblanks : Blanks [' '] ∧ Blanks ['\n'] ∧ Blanks ['\t'] := by simp [Blanks]
  have hpath : StringText "é😀\"" path :=
    ⟨["\\u00e9".toList, "\\uD83D\\ude00".toList, "\\\"".toList],
      .cons (.escaped (.number (.digits (.lower 0) (.lower 0) (.lower 14) (.lower 9))))
        (.cons (.escaped (.pair (.digits (.upper 13) (.upper 8) (.upper 3) (.upper 13))
            (.digits (.lower 13) (.lower 14) (.lower 0) (.lower 0)) (by decide) (by decide) (by decide)))
          (.cons (charText_letter (by decide)) .nil)), by decide⟩
  have hflash : MemberText "flash_indicator" (Config.Key.flashIndicator.Spells c) flash :=
    .member hblanks.2.1 (stringText_quoted _) hblanks.1 blanks_nil rfl blanks_nil
  have hroot : MemberText "plugin_root" (Config.Key.pluginRoot.Spells c) root :=
    .member hblanks.1 (stringText_quoted _) blanks_nil hblanks.2.2 hpath hblanks.2.1
  have hmembers : List.Forall₂ (fun m => MemberText m.1 m.2) (keys.map fun k => (k.name, k.Spells c))
      [flash, root] := .cons hflash (.cons hroot .nil)
  have htext : text = [' '] ++ '\x7b' :: commaSeparated [flash, root] ++ [] ++ '\x7d' :: [] := by decide
  have hobject : ObjectText (keys.map fun k => (k.name, k.Spells c)) text := by
    rw [htext]
    exact .object hblanks.1 hmembers blanks_nil blanks_nil
  exact ⟨by decide, hobject, decode_text.2.2.2.2.2 c keys text (by decide) hobject⟩

end PluginSlot.Loader
