import PluginSlot.Proofs.Json.Sequence
import PluginSlot.Json.Variants
import Mathlib.Data.List.Nodup
/-!
A record is read from any object that has its members once each, in whatever order; the members that
may be missing take their own value. What is written for a record or a sum is read back.
-/
namespace PluginSlot.Json
open Text (bytes bytes_append bytes_cons)

variable {α τ π : Type}

theorem bytes_colon (cs : List Char) : bytes (':' :: cs) = Mark.colon :: bytes cs := rfl

namespace Fields

def names {τ π : Type} : Fields τ π → List String
  | nil => []
  | cons name _ _ rest => name :: rest.names

/-- The values met once the members of some names are read. -/
def met {τ π : Type} : Fields τ π → List String → τ → π
  | nil, _, _ => ()
  | cons name _ _ rest, keys, (a, b) => (if name ∈ keys then some a else none, rest.met keys b)

/-- The value of the field of this name is read from the text. -/
def Spells {τ π : Type} : Fields τ π → τ → String → List Char → Prop
  | nil, _, _, _ => False
  | cons name codec _ rest, (a, b), key, text =>
    (key = name ∧ Reads codec.read text a) ∨ (key ≠ name ∧ rest.Spells b key text)

/-- What is written for each of the values is read back. -/
def Recovers {τ π : Type} : Fields τ π → τ → Prop
  | nil, _ => True
  | cons _ codec _ rest, (a, b) => codec.Recovers a ∧ rest.Recovers b

theorem met_nil (f : Fields τ π) (t : τ) : f.met [] t = f.nothing := by
  induction f with
  | nil => rfl
  | cons name codec missing rest ih => simp [met, nothing, ih]

/-- Only which names were read matters. -/
theorem met_congr (f : Fields τ π) {keys keys' : List String}
    (h : ∀ name ∈ f.names, name ∈ keys ↔ name ∈ keys') (t : τ) : f.met keys t = f.met keys' t := by
  induction f with
  | nil => rfl
  | cons name codec missing rest ih =>
    rw [met, met, ih fun name hname => h name (by simp [names, hname])]
    simp [h name (by simp [names])]

theorem complete_met (f : Fields τ π) {keys : List String} (h : ∀ name ∈ f.names, name ∈ keys) (t : τ) :
    f.complete (f.met keys t) = some t := by
  induction f with
  | nil => rfl
  | cons name codec missing rest ih =>
    rw [met, complete, ih fun name hname => h name (by simp [names, hname])]
    simp [h name (by simp [names])]

/-- An optional value that was not met is what takes its place. -/
theorem complete_met_optional {β π : Type} (name : String) (codec : Codec α) (d : α) (rest : Fields β π)
    (keys : List String) (a : α) (b : β) :
    (optional name codec d rest).complete ((optional name codec d rest).met keys (a, b)) =
      (rest.complete (rest.met keys b)).map fun b => (if name ∈ keys then a else d, b) := by
  rw [optional, met, complete]
  by_cases h : name ∈ keys <;> cases rest.complete (rest.met keys b) <;> simp [h]

theorem colon_blanks {w : List Char} (hw : Blanks w) (s : Bytes) :
    colon (bytes w ++ Mark.colon :: s) = .ok s := by
  rw [colon, skipBlank_text hw rfl]
  rfl

/-- A member that was not met yet is read after its colon, and is met then. -/
theorem member_met (f : Fields τ π) {t : τ} {keys : List String} {key : String} {text : List Char}
    (hnames : f.names.Nodup) (hkey : key ∉ keys) (h : f.Spells t key text) :
    ∃ read, f.member key (f.met keys t) = some read ∧
      ∀ {w w' : List Char} {rest : Bytes}, Blanks w → Blanks w' → Ends rest →
        read (bytes w ++ Mark.colon :: (bytes w' ++ (bytes text ++ rest))) =
          .ok (f.met (key :: keys) t, rest) := by
  induction f with
  | nil => cases h
  | cons name codec missing rest ih =>
    obtain ⟨a, b⟩ := t
    obtain ⟨hname, hnodup⟩ := List.nodup_cons.mp hnames
    obtain ⟨rfl, hreads⟩ | ⟨hne, hspells⟩ := h
    · have hsame : rest.met (key :: keys) b = rest.met keys b :=
        rest.met_congr (fun n hn => by simp [ne_of_mem_of_not_mem hn hname]) b
      refine ⟨_, if_pos rfl, fun hw hw' hrest => ?_⟩
      simp only [met, if_neg hkey, colon_blanks hw, hreads.read_append _ _ hw' hrest, hsame,
        List.mem_cons_self, if_pos]
      rfl
    · obtain ⟨read, hread, hmet⟩ := ih hnodup hspells
      refine ⟨_, by rw [met, member, if_neg hne, hread]; rfl, fun hw hw' hrest => ?_⟩
      have hmem : name ∈ key :: keys ↔ name ∈ keys := by simp [Ne.symm hne]
      simp only [hmet hw hw' hrest, met, hmem]
      rfl

/-- A member is read from its name to its value; what blanks follow it are left. -/
theorem readMember_text (f : Fields τ π) {t : τ} {keys : List String} {key : String} {text : List Char}
    (hnames : f.names.Nodup) (hkey : key ∉ keys) (h : MemberText key (f.Spells t key) text)
    {rest : Bytes} (hrest : Ends rest) :
    ∃ s w, Blanks w ∧ skipBlank (bytes text ++ rest) = Mark.quote :: s ∧
      f.readMember (f.met keys t) s = .ok (f.met (key :: keys) t, bytes w ++ rest) := by
  obtain @⟨w₀, name, w₁, w₂, value, w₃, h₀, hname, h₁, h₂, hvalue, h₃⟩ := h
  obtain ⟨read, hread, hmet⟩ := f.member_met hnames hkey hvalue
  obtain ⟨body, hbody⟩ := hname.body
  refine ⟨body ++ (bytes w₁ ++ Mark.colon :: (bytes w₂ ++ (bytes value ++ (bytes w₃ ++ rest)))), w₃, h₃,
    ?_, ?_⟩
  · simp only [bytes_append, bytes_colon, List.cons_append, List.append_assoc]
    rw [(hbody _).1, skipBlank_text h₀ rfl]
  · simp only [readMember, (hbody _).2, hread, hmet h₁ h₂ (hrest.blanks h₃)]

/-- The next member, which is the first one or comes after a comma. -/
theorem readMembers_member (f : Fields τ π) {t : τ} {keys : List String} {key : String}
    {text : List Char} (hnames : f.names.Nodup) (hkey : key ∉ keys)
    (h : MemberText key (f.Spells t key) text) {w : List Char} (hw : Blanks w) (fuel : Nat)
    (first : Bool) {rest : Bytes} (hrest : Ends rest) :
    ∃ w', Blanks w' ∧
      f.readMembers (fuel + 1) first (f.met keys t)
          (bytes w ++ (bytes (lead first) ++ (bytes text ++ rest))) =
        f.readMembers fuel false (f.met (key :: keys) t) (bytes w' ++ rest) := by
  obtain ⟨s, w', hw', hopen, hread⟩ := f.readMember_text hnames hkey h hrest
  refine ⟨w', hw', ?_⟩
  have hquote : Mark.quote ≠ Mark.closeObject := by decide
  have hcomma : Mark.comma ≠ Mark.closeObject := by decide
  cases first with
  | true =>
    have hskip : skipBlank (bytes w ++ (bytes (lead true) ++ (bytes text ++ rest))) = Mark.quote :: s :=
      (skipBlank_blanks hw _).trans hopen
    simp only [readMembers, hskip, if_neg hquote, Bool.not_true, Bool.false_and, Bool.false_eq_true,
      if_false, if_true, openKey, skipBlank_cons (b := Mark.quote) rfl, hread]
  | false =>
    have hskip : skipBlank (bytes w ++ (bytes (lead false) ++ (bytes text ++ rest))) =
        Mark.comma :: (bytes text ++ rest) := skipBlank_text hw rfl _
    simp only [readMembers, hskip, if_neg hcomma, Bool.not_false, Bool.true_and, ne_eq, not_true,
      decide_false, Bool.false_eq_true, if_false, openKey, hopen, if_true, hread]

section
variable (f : Fields τ π) {t : τ} {w : List Char}

/-- The members that are left, in any order, and the end of the object. -/
theorem readMembers_separated (hnames : f.names.Nodup) {ks keys : List String}
    {texts : List (List Char)} (h : List.Forall₂ (fun k => MemberText k (f.Spells t k)) ks texts)
    (hkeys : (ks ++ keys).Nodup) (hw : Blanks w) {w' : List Char} (hw' : Blanks w') (fuel : Nat)
    (first : Bool) (rest : Bytes) :
    f.readMembers (texts.length + fuel + 1) first (f.met keys t)
        (bytes w' ++ (bytes (separated first texts) ++ (bytes w ++ Mark.closeObject :: rest))) =
      .ok (f.met (ks ++ keys) t, rest) := by
  induction h generalizing keys w' first with
  | nil =>
    have hskip : skipBlank (bytes w' ++ (bytes w ++ Mark.closeObject :: rest)) =
        Mark.closeObject :: rest := by
      rw [skipBlank_blanks hw', skipBlank_text hw rfl]
    change f.readMembers _ first _ (bytes w' ++ (bytes w ++ Mark.closeObject :: rest)) = _
    simp only [readMembers, hskip, if_true, List.nil_append]
  | @cons k text ks texts hmember _ ih =>
    have hkey : k ∉ keys := fun h => (List.nodup_cons.mp hkeys).1 (List.mem_append_right ks h)
    have hends : Ends (bytes w ++ Mark.closeObject :: rest) := (ends_cons rfl rest).blanks hw
    have hfuel : (text :: texts).length + fuel + 1 = (texts.length + fuel + 1) + 1 := by
      rw [List.length_cons, Nat.add_right_comm _ 1]
    -- the names met come in the order read, which the values do not show
    have hmet : f.met (ks ++ k :: keys) t = f.met (k :: ks ++ keys) t :=
      f.met_congr (fun n _ => by simp [or_left_comm]) t
    obtain ⟨w'', hw'', hread⟩ := f.readMembers_member hnames hkey hmember hw'
      (texts.length + fuel + 1) first (hends.separated texts)
    rw [bytes_separated_cons, hfuel, hread, ih (List.nodup_middle.mpr hkeys) hw'', hmet]

/-- A record is read from an object of some of its members if what is missing has a value of its own. -/
theorem read_object (hnames : f.names.Nodup) {ks : List String} {texts : List (List Char)}
    (h : List.Forall₂ (fun k => MemberText k (f.Spells t k)) ks texts) (hkeys : ks.Nodup)
    (hw : Blanks w) {u : τ} (hcomplete : f.complete (f.met ks t) = some u) {s rest : Bytes}
    (hs : skipBlank s = Mark.openObject ::
      (bytes (commaSeparated texts) ++ (bytes w ++ Mark.closeObject :: rest))) :
    f.read s = .ok (u, rest) := by
  have hmark : Mark.openObject ≠ Mark.openArray := by decide
  obtain ⟨fuel, hfuel⟩ := exists_turns texts (s := bytes w ++ Mark.closeObject :: rest) (by simp)
  have hnodup : (ks ++ []).Nodup := by rwa [List.append_nil]
  have hread := f.readMembers_separated hnames h hnodup hw blanks_nil fuel true rest
  rw [met_nil, List.append_nil, Text.bytes_nil, List.nil_append, ← commaSeparated_eq] at hread
  simp only [read, hs, if_neg hmark, if_true, hfuel, hread, hcomplete]

end

theorem forall₂_spells (f : Fields τ π) {t : τ} {members : List (String × (List Char → Prop))}
    {texts : List (List Char)} (h : List.Forall₂ (fun m => MemberText m.1 m.2) members texts)
    (hspells : ∀ m ∈ members, ∀ text, m.2 text → f.Spells t m.1 text) :
    List.Forall₂ (fun k => MemberText k (f.Spells t k)) (members.map Prod.fst) texts := by
  induction h with
  | nil => exact .nil
  | @cons m text members texts hmember _ ih =>
    obtain ⟨h₀, hkey, h₁, h₂, hvalue, h₃⟩ := hmember
    exact .cons (.member h₀ hkey h₁ h₂ (hspells m List.mem_cons_self _ hvalue) h₃)
      (ih fun m hm => hspells m (List.mem_cons_of_mem _ hm))

/-- What is written for a member, without blanks. -/
theorem memberText_written {name : String} {value : List Char → Prop} {text : List Char}
    (h : value text) : MemberText name value (quoted name ++ ':' :: text) := by
  simpa using MemberText.member blanks_nil (stringText_quoted name) blanks_nil blanks_nil h blanks_nil

/-- The members that are written have the names of the fields and spell the values. -/
theorem forall₂_members (f : Fields τ π) {t : τ} (hnames : f.names.Nodup) (h : f.Recovers t)
    {value : String → List Char → Prop}
    (hvalue : ∀ k ∈ f.names, ∀ text, f.Spells t k text → value k text) :
    List.Forall₂ (fun k => MemberText k (value k)) f.names (f.members t) := by
  induction f with
  | nil => exact .nil
  | cons name codec missing rest ih =>
    obtain ⟨a, b⟩ := t
    obtain ⟨ha, hb⟩ := h
    obtain ⟨hname, hnodup⟩ := List.nodup_cons.mp hnames
    refine .cons (memberText_written (hvalue name List.mem_cons_self _ (.inl ⟨rfl, ha⟩)))
      (ih hnodup hb fun k hk text htext => ?_)
    exact hvalue k (List.mem_cons_of_mem _ hk) text (.inr ⟨ne_of_mem_of_not_mem hk hname, htext⟩)

theorem read_write (f : Fields τ π) {t : τ} (hnames : f.names.Nodup) (h : f.Recovers t) :
    Reads f.read (f.write t) t := by
  have htext (rest : Bytes) : bytes (f.write t) ++ rest =
      Mark.openObject :: (bytes (commaSeparated (f.members t)) ++ Mark.closeObject :: rest) :=
    bytes_between rfl rfl _ rest
  exact .of_skipBlank rfl htext fun s rest _ hs =>
    f.read_object hnames (f.forall₂_members hnames h fun _ _ _ => id) hnames blanks_nil
      (f.complete_met (fun _ => id) t) hs

/-- A record type is read back if its fields have names of their own and are read back. -/
theorem codec_recovers (f : Fields τ π) {make : τ → α} {parts : α → τ} {a : α} (hnames : f.names.Nodup)
    (h : f.Recovers (parts a)) (hmake : make (parts a) = a) : (f.codec make parts).Recovers a :=
  Codec.Recovers.map (f.read_write hnames h) hmake

end Fields

/-- A record is decoded from any object that spells some of its members, once each, if what is missing
has a value of its own. -/
theorem Fields.decode_object (f : Fields τ π) {make : τ → α} {parts : α → τ} {t u : τ} {a : α}
    (hnames : f.names.Nodup) {members : List (String × (List Char → Prop))} {text : List Char}
    (h : ObjectText members text) (hkeys : (members.map Prod.fst).Nodup)
    (hspells : ∀ m ∈ members, ∀ text, m.2 text → f.Spells t m.1 text)
    (hcomplete : f.complete (f.met (members.map Prod.fst) t) = some u) (hmake : make u = a) :
    (f.codec make parts).decode (Text.encode (String.ofList text)) = .ok a := by
  obtain @⟨w₀, w₁, w₂, texts, h₀, htexts, h₁, h₂⟩ := h
  have hmembers := f.forall₂_spells htexts hspells
  have hopen (cs : List Char) : bytes ('\x7b' :: cs) = Mark.openObject :: bytes cs := rfl
  have hclose (cs : List Char) : bytes ('\x7d' :: cs) = Mark.closeObject :: bytes cs := rfl
  have hread : f.read (bytes w₀ ++ Mark.openObject ::
      (bytes (commaSeparated texts) ++ (bytes w₁ ++ Mark.closeObject :: bytes w₂))) =
      .ok (u, bytes w₂) :=
    f.read_object hnames hmembers hkeys h₁ hcomplete (skipBlank_text h₀ rfl _)
  have hblank : skipBlank (bytes w₂) = [] := by
    simpa [skipBlank] using skipBlank_blanks h₂ []
  rw [Text.encode_ofList]
  simp only [bytes_append, hopen, hclose, List.cons_append, List.append_assoc]
  simp only [Codec.decode, Fields.codec, Codec.map, hread, Except.map, hblank, hmake]
  rfl

/-- What the variant would write for the value stands for the value. -/
def Variant.Recovers (a : α) : Variant α → Prop
  | .plain _ value is => is a = true → value = a
  | .record _ fields make parts =>
    ∀ t, parts a = some t → make t = a ∧ fields.names.Nodup ∧ fields.Recovers t

theorem variantNamed_of_mem {vs : List (Variant α)} (hnames : (vs.map Variant.name).Nodup)
    {v : Variant α} (hv : v ∈ vs) : variantNamed vs v.name = some v := by
  induction vs with
  | nil => cases hv
  | cons u vs ih =>
    obtain ⟨hname, hnodup⟩ := List.nodup_cons.mp hnames
    obtain rfl | hmem := List.mem_cons.mp hv
    · simp [variantNamed]
    · have hne : u.name ≠ v.name := (ne_of_mem_of_not_mem (List.mem_map_of_mem hmem) hname).symm
      simpa [variantNamed, hne] using ih hnodup hmem

/-- The bare name of a variant without fields. -/
theorem reads_plain {vs : List (Variant α)} {name : String} {value : α} {is : α → Bool}
    (hnamed : variantNamed vs name = some (.plain name value is)) :
    Reads (readVariant vs) (quoted name) value := by
  obtain ⟨body, hbody⟩ := (stringText_quoted name).body
  refine .of_skipBlank rfl (fun rest => (hbody rest).1) fun s rest _ hs => ?_
  simp only [readVariant, hs, if_true, readBare, (hbody rest).2, hnamed]
  rfl

/-- An object with the name of a variant and the record of its fields. -/
theorem reads_record {vs : List (Variant α)} {name : String} {fields : Fields τ π} {make : τ → α}
    {parts : α → Option τ} (hnamed : variantNamed vs name = some (.record name fields make parts))
    {t : τ} (ht : Reads fields.read (fields.write t) t) :
    Reads (readVariant vs) ('\x7b' :: quoted name ++ ':' :: fields.write t ++ ['\x7d']) (make t) := by
  obtain ⟨body, hbody⟩ := (stringText_quoted name).body
  have htext (rest : Bytes) :
      bytes ('\x7b' :: quoted name ++ ':' :: fields.write t ++ ['\x7d']) ++ rest =
        Mark.openObject :: Mark.quote ::
          (body ++ Mark.colon :: (bytes (fields.write t) ++ Mark.closeObject :: rest)) := by
    rw [List.cons_append, bytes_between rfl rfl, bytes_append, bytes_colon, List.append_assoc,
      (hbody _).1]
    rfl
  refine .of_skipBlank rfl htext fun s rest _ hs => ?_
  have hmark : Mark.openObject ≠ Mark.quote := by decide
  have hname (s : Bytes) : readName (Mark.quote :: (body ++ s)) = .ok (name, s) := (hbody s).2
  have hcolon (s : Bytes) : colon (Mark.colon :: s) = .ok s := rfl
  have hclose : closeVariant (Mark.closeObject :: rest) = .ok rest := rfl
  have hread := ht.read_text (ends_cons (b := Mark.closeObject) rfl rest)
  simp only [readVariant, hs, if_neg hmark, if_true, readTagged, hname, hnamed, hcolon,
    Variant.readBody, hread]
  simp only [Except.map, hclose]

/-- A sum is read back if its variants have names of their own and one of them takes the value. -/
theorem variants_recovers {vs : List (Variant α)} {a : α} (hnames : (vs.map Variant.name).Nodup)
    (h : ∀ v ∈ vs, v.Recovers a) (hsome : ∃ v ∈ vs, (v.write? a).isSome) :
    (variants vs).Recovers a := by
  obtain ⟨text, htext⟩ := Option.isSome_iff_exists.mp (List.findSome?_isSome_iff.mpr hsome)
  obtain ⟨v, hv, hwrite⟩ := List.exists_of_findSome?_eq_some htext
  have hnamed := variantNamed_of_mem hnames hv
  have hrecovers := h v hv
  have hcodec : (variants vs).write a = text := congrArg (Option.getD · []) htext
  rw [Codec.Recovers, hcodec]
  cases v with
  | plain name value is =>
    obtain ⟨his, rfl⟩ : is a = true ∧ quoted name = text := by simpa [Variant.write?] using hwrite
    exact hrecovers his ▸ reads_plain hnamed
  | record name fields make parts =>
    obtain ⟨t, ht, rfl⟩ := Option.map_eq_some_iff.mp hwrite
    obtain ⟨rfl, hnodup, hfields⟩ := hrecovers t ht
    exact reads_record hnamed (fields.read_write hnodup hfields)

end PluginSlot.Json
