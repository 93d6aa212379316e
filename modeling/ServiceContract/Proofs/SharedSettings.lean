import ServiceContract.CommandLine
import ServiceContract.Proofs.FlowNodes
import ServiceContract.Proofs.Utf8
import Mathlib.Data.List.Forall2
/-!
# Settings that are JSON and YAML

A file of settings is read as JSON or as YAML, by its name. What is written in both notations
(`Settings.IsShared`) gives the same settings in both, and whatever else JSON accepts is refused by
YAML as a whole (`CommandLine.load_yaml_of_json`). A surrogate pair is a case of the second kind
(`CommandLine.not_load_yaml_of_json_paired`). Both readers make something of a written value, and
what they make of its parts agrees : a value of JSON and the node of YAML that mirrors it
(`Mirrors`) give the same text, the same list and, if it is a string, the same word.
-/

namespace ServiceContract

namespace Settings

open Json (Written WrittenItems WrittenMembers WrittenText isString isObject Stands textOf)
open Yaml (Node Document)

/-! ## Values and nodes -/

/-- Whether a node is that of a legible written value that stands for a value of JSON. -/
def Mirrors (v : Json) (n : Node) : Prop :=
  ∃ w : Written, w.isLegible = true ∧ w.Denotes v ∧ w.node = n

/-- The same for a member and an entry, where the key is the name as it stands in JSON. -/
def MirrorsMember (m : String × Json) (e : Node × Node) : Prop :=
  e.1 = .scalar none .quoted m.1 ∧ Mirrors m.2 e.2

/-- The items of a written array are mirrored one by one. -/
theorem mirrors_items : ∀ (items : WrittenItems) {vs : List Json}, items.isLegible = true →
    items.Denotes vs → List.Forall₂ Mirrors vs items.nodes
  | .last _ w _, _, hlegible, ⟨_, hvs, hw⟩ => hvs ▸ .cons ⟨w, hlegible, hw, rfl⟩ .nil
  | .next _ w _ rest, _, hlegible, ⟨_, _, hvs, hw, hrest⟩ => by
    rw [WrittenItems.isLegible, Bool.and_eq_true] at hlegible
    exact hvs ▸ .cons ⟨w, hlegible.1, hw, rfl⟩ (mirrors_items rest hlegible.2 hrest)

theorem mirrors_members : ∀ (members : WrittenMembers) {ms : List (String × Json)},
    members.isLegible = true → members.Denotes ms →
    List.Forall₂ MirrorsMember ms members.entries
  | .last label _ w _, _, hlegible, ⟨_, _, hms, hname, hw⟩ => by
    rw [WrittenMembers.isLegible, Bool.and_eq_true] at hlegible
    exact hms ▸ .cons ⟨by rw [hname hlegible.1], w, hlegible.2, hw, rfl⟩ .nil
  | .next label _ w _ rest, _, hlegible, ⟨_, _, _, hms, hname, hw, hrest⟩ => by
    rw [WrittenMembers.isLegible, Bool.and_eq_true, Bool.and_eq_true] at hlegible
    exact hms ▸ .cons ⟨by rw [hname hlegible.1], w, hlegible.2.1, hw, rfl⟩
      (mirrors_members rest hlegible.2.2 hrest)

variable {v : Json} {n : Node}

/-- What a node looks like that is that of a string, an array or an object. -/
theorem Mirrors.string {s : String} (h : Mirrors (.string s) n) :
    n = .scalar none .quoted s := by
  obtain ⟨w, hlegible, hw, rfl⟩ := h
  cases w with
  | string pieces =>
    obtain ⟨_, ⟨⟩, hs⟩ := hw
    rw [Written.node, hs hlegible]
  | literal | emptyArray | array | emptyObject | object =>
    simp [Written.Denotes, Json.isLiteral] at hw

theorem Mirrors.array {vs : List Json} (h : Mirrors (.array vs) n) :
    ∃ ns, n = .sequence none ns ∧ List.Forall₂ Mirrors vs ns := by
  obtain ⟨w, hlegible, hw, rfl⟩ := h
  cases w with
  | emptyArray =>
    obtain rfl := Json.array.inj hw
    exact ⟨[], rfl, .nil⟩
  | array items =>
    obtain ⟨_, ⟨⟩, hitems⟩ := hw
    exact ⟨items.nodes, rfl, mirrors_items items hlegible hitems⟩
  | literal | string | emptyObject | object => simp [Written.Denotes, Json.isLiteral] at hw

theorem Mirrors.object {ms : List (String × Json)} (h : Mirrors (.object ms) n) :
    ∃ es, n = .mapping none es ∧ List.Forall₂ MirrorsMember ms es := by
  obtain ⟨w, hlegible, hw, rfl⟩ := h
  cases w with
  | emptyObject =>
    obtain rfl := Json.object.inj hw
    exact ⟨[], rfl, .nil⟩
  | object members =>
    obtain ⟨_, ⟨⟩, hmembers⟩ := hw
    exact ⟨members.entries, rfl, mirrors_members members hlegible hmembers⟩
  | literal | string | emptyArray | array => simp [Written.Denotes, Json.isLiteral] at hw

/-! ## The parts of settings -/

section Parts

variable (d : Document)

/-- A text is read from both notations. -/
theorem Mirrors.text? (h : Mirrors v n) {s : String} (hs : json.text? v = some s) :
    (yaml d).text? n = some s := by
  cases v with
  | string t =>
    obtain rfl := Option.some.inj hs
    rw [h.string]
    rfl
  | null | bool | int | float | array | object => cases hs

theorem Mirrors.texts? (h : Mirrors v n) {ss : List String} (hss : json.texts? v = some ss) :
    (yaml d).texts? n = some ss := by
  cases v with
  | array vs =>
    obtain ⟨ns, rfl, hns⟩ := h.array
    change ns.mapM (yamlText? d) = some ss
    change vs.mapM jsonText? = some ss at hss
    clear h
    induction hns generalizing ss with
    | nil => exact hss
    | cons hv _ ih =>
      rw [List.mapM_cons] at hss ⊢
      simp only [Option.bind_eq_bind, Option.bind_eq_some_iff] at hss ⊢
      obtain ⟨s, hs, others, hothers, heq⟩ := hss
      exact ⟨s, hv.text? d hs, others, ih hothers, heq⟩
  | null | bool | int | float | string | object => cases hss

/-- A word is the same if it is a string. YAML has no objects for words. -/
theorem Mirrors.word? (h : Mirrors v n) {s : String} (hs : json.word? v = some s) :
    (yaml d).word? n = if v.isString then some s else none := by
  cases v with
  | string t =>
    obtain rfl := Option.some.inj hs
    rw [h.string]
    rfl
  | object ms =>
    obtain ⟨es, rfl, -⟩ := h.object
    rfl
  | null | bool | int | float | array => cases hs

/-- Whether a member of JSON and one of YAML have one name and values that mirror each other. -/
def MirrorsNamed (m : String × Json) (e : String × Node) : Prop := m.1 = e.1 ∧ Mirrors m.2 e.2

/-- The members of a mapping mirror those of an object. -/
theorem exists_members? {ms : List (String × Json)} {es : List (Node × Node)}
    (h : List.Forall₂ MirrorsMember ms es) (names : List String) :
    ∃ ns, (yaml d).members? names (.mapping none es) = some ns ∧
      List.Forall₂ MirrorsNamed ms ns := by
  change ∃ ns, (es.mapM fun e => (yamlText? d e.1).map fun k => (k, e.2)) = some ns ∧ _
  induction h with
  | nil => exact ⟨[], rfl, .nil⟩
  | @cons m e _ _ hm _ ih =>
    obtain ⟨k, n⟩ := e
    obtain ⟨rfl, hn⟩ := hm
    obtain ⟨ns, hns, hall⟩ := ih
    refine ⟨(m.1, n) :: ns, ?_, .cons ⟨rfl, hn⟩ hall⟩
    rw [List.mapM_cons, hns]
    rfl

/-- The members are the same if they are those of an object. YAML has no arrays for objects. -/
theorem Mirrors.members? (h : Mirrors v n) {names : List String} {ms : List (String × Json)}
    (hms : json.members? names v = some ms) :
    (v.isObject = true → ∃ ns, (yaml d).members? names n = some ns ∧
      List.Forall₂ MirrorsNamed ms ns) ∧
    (v.isObject = false → (yaml d).members? names n = none) := by
  cases v with
  | object members =>
    obtain rfl := Option.some.inj hms
    obtain ⟨es, rfl, hes⟩ := h.object
    exact ⟨fun _ => exists_members? d hes names, fun hnot => absurd hnot.symm Bool.false_ne_true⟩
  | array items =>
    obtain ⟨ns, rfl, -⟩ := h.array
    exact ⟨fun hobject => absurd hobject Bool.false_ne_true, fun _ => rfl⟩
  | null | bool | int | float | string => cases hms

/-! ## Whole settings -/

/-- Whether all members with a name are of some kind. -/
def allNamed (name : String) (kind : Json → Bool) (members : List (String × Json)) : Bool :=
  (members.filter (·.1 = name)).all fun m => kind m.2

/-- A part is the same if it is of the kind that both notations have for it. -/
theorem member?_of_mirrors {β : Type} {name : String} {kind : Json → Bool}
    {read : Json → Option β} {read' : Node → Option β}
    (hread : ∀ v n b, Mirrors v n → read v = some b → read' n = if kind v then some b else none)
    {ms : List (String × Json)} {ns : List (String × Node)} (h : List.Forall₂ MirrorsNamed ms ns)
    {default b : β} (hb : member? name read default ms = some b) :
    member? name read' default ns = if allNamed name kind ms then some b else none := by
  have hfilter : List.Forall₂ MirrorsNamed (ms.filter (·.1 = name)) (ns.filter (·.1 = name)) :=
    List.rel_filter (fun m e hm => by simp [hm.1]) h
  unfold member? at hb ⊢
  rw [allNamed]
  generalize ms.filter (·.1 = name) = ms' at hb hfilter ⊢
  generalize ns.filter (·.1 = name) = ns' at hfilter ⊢
  cases hfilter with
  | nil => exact hb
  | cons hm hothers =>
    cases hothers with
    | nil => simpa using hread _ _ b hm.2 hb
    | cons => cases hb

theorem allNamed_true (name : String) (members : List (String × Json)) :
    allNamed name (fun _ => true) members = true := by
  simp [allNamed]

section Members

variable {ms : List (String × Json)} {ns : List (String × Node)}

/-- A setting that is a text is read from both notations. -/
theorem member?_text (h : List.Forall₂ MirrorsNamed ms ns) {name default s : String}
    (hs : member? name json.text? default ms = some s) :
    member? name (yaml d).text? default ns = some s := by
  have hread : member? name (yaml d).text? default ns =
      if allNamed name (fun _ => true) ms then some s else none :=
    member?_of_mirrors (fun v n b hv hb => hv.text? d hb) h hs
  rwa [allNamed_true, if_pos rfl] at hread

theorem member?_texts (h : List.Forall₂ MirrorsNamed ms ns) {name : String}
    {default ss : List String} (hss : member? name json.texts? default ms = some ss) :
    member? name (yaml d).texts? default ns = some ss := by
  have hread : member? name (yaml d).texts? default ns =
      if allNamed name (fun _ => true) ms then some ss else none :=
    member?_of_mirrors (fun v n b hv hb => hv.texts? d hb) h hss
  rwa [allNamed_true, if_pos rfl] at hread

/-- A setting that is one of some words is read from YAML only if it is written as a string. -/
theorem member?_word {β : Type} (ofName? : String → Option β)
    (h : List.Forall₂ MirrorsNamed ms ns) {name : String} {default b : β}
    (hb : member? name (fun v => json.word? v >>= ofName?) default ms = some b) :
    member? name (fun n => (yaml d).word? n >>= ofName?) default ns =
      if allNamed name isString ms then some b else none := by
  refine member?_of_mirrors (fun v n b hv hread => ?_) h hb
  obtain ⟨word, hword, hname⟩ := Option.bind_eq_some_iff.1 hread
  rw [hv.word? d hword]
  cases v.isString with
  | false => rfl
  | true => exact hname

/-- The information about a contract is read from both notations. -/
theorem infoOfMembers?_of_mirrors (h : List.Forall₂ MirrorsNamed ms ns) {info : Info}
    (hinfo : infoOfMembers? json ms = some info) :
    infoOfMembers? (yaml d) ns = some info := by
  simp only [infoOfMembers?, Option.bind_eq_bind, Option.bind_eq_some_iff] at hinfo ⊢
  obtain ⟨title, htitle, version, hversion, heq⟩ := hinfo
  exact ⟨title, member?_text d h htitle, version, member?_text d h hversion, heq⟩

theorem member?_info (h : List.Forall₂ MirrorsNamed ms ns) {default info : Info}
    (hinfo : member? "info" (fun v => json.members? infoNames v >>= infoOfMembers? json) default
      ms = some info) :
    member? "info" (fun n => (yaml d).members? infoNames n >>= infoOfMembers? (yaml d)) default ns =
      if allNamed "info" isObject ms then some info else none := by
  refine member?_of_mirrors (fun v n b hv hread => ?_) h hinfo
  obtain ⟨inner, hinner, hread⟩ := Option.bind_eq_some_iff.1 hread
  obtain ⟨hobject, harray⟩ := hv.members? d hinner
  cases hv' : v.isObject with
  | false =>
    rw [harray hv']
    rfl
  | true =>
    obtain ⟨entries, hentries, hall⟩ := hobject hv'
    rw [hentries]
    exact infoOfMembers?_of_mirrors d hall hread

end Members

/-- Whether settings in JSON are an object, with an object inside, and all words are strings. -/
def isNamed : Json → Bool
  | .object members =>
    allNamed "warnings" isString members && (allNamed "duplicateStatus" isString members &&
      (allNamed "layout" isString members && allNamed "info" isObject members))
  | _ => false

/-- Settings are read from both notations, if each word is a string and the information is an
object. -/
theorem ofMembers?_of_mirrors {ms : List (String × Json)} {ns : List (String × Node)}
    (h : List.Forall₂ MirrorsNamed ms ns) {s : Settings} (hs : ofMembers? json ms = some s) :
    ofMembers? (yaml d) ns = if isNamed (.object ms) then some s else none := by
  simp only [ofMembers?, Option.bind_eq_bind, Option.bind_eq_some_iff] at hs
  obtain ⟨errors, herrors, operations, hoperations, services, hservices, schemas, hschemas, output,
    houtput, warnings, hwarnings, duplicateStatus, hduplicate, layout, hlayout, info, hinfo,
    heq⟩ := hs
  obtain rfl := Option.some.inj heq
  rw [ofMembers?, member?_texts d h herrors, member?_texts d h hoperations,
    member?_texts d h hservices, member?_texts d h hschemas, member?_text d h houtput,
    member?_word d WarningPolicy.ofName? h hwarnings,
    member?_word d DuplicateStatus.ofName? h hduplicate,
    member?_word d Layout.ofName? h hlayout, member?_info d h hinfo, isNamed]
  cases allNamed "warnings" isString ms <;> cases allNamed "duplicateStatus" isString ms <;>
    cases allNamed "layout" isString ms <;> cases allNamed "info" isObject ms <;> rfl

/-- The settings are the same if all parts are of the kinds that both notations have for them. -/
theorem read?_of_mirrors (h : Mirrors v n) {s : Settings} (hs : ofJson? v = some s) :
    read? (yaml d) n = if isNamed v then some s else none := by
  obtain ⟨ms, hms, hread⟩ := Option.bind_eq_some_iff.1 hs
  obtain ⟨hobject, harray⟩ := h.members? d hms
  rw [read?]
  cases hv : v.isObject with
  | false =>
    have hnamed : isNamed v = false := by cases v <;> first | rfl | cases hv
    rw [harray hv, hnamed]
    rfl
  | true =>
    obtain ⟨ns, hns, hall⟩ := hobject hv
    have hms' : v = .object ms := by
      cases v with
      | object members => rw [Option.some.inj hms]
      | null | bool | int | float | string | array => cases hv
    rw [hns, hms']
    exact ofMembers?_of_mirrors d hall hread

end Parts

/-! ## Contents -/

/-- Whether a content is written in what JSON and YAML have in common : it is that of a text with a
value of JSON in it, and

* all characters are printable;
* no tab stands before the value, nor behind it on a later line than the one on which it ends;
* no escape by number stands for half of a surrogate pair;
* each name is on one line with its colon, and has at most 1024 bytes up to there;
* the settings and what they say of the contract are objects, and the words are strings. -/
structure IsShared (content : ByteArray) (v : Json) (w : WrittenText) : Prop where
  read : Json.readBytes? interest content = some v
  text : String.fromUTF8? content = some (String.ofList w.text)
  denotes : w.root.Denotes v
  printable : w.text.all Yaml.isPrintable = true
  untabbed : w.isUntabbed = true
  legible : w.root.isLegible = true
  keyed : w.root.isKeyed = true
  named : isNamed v = true

/-- What of this can be seen in the text and in the value. -/
def isCommon (w : WrittenText) (v : Json) : Bool :=
  w.text.all Yaml.isPrintable && (w.isUntabbed && w.root.isLegible) && w.root.isKeyed && isNamed v

/-- Whether both notations share a content is said by one test. -/
theorem isShared_iff {content : ByteArray} {v : Json} {w : WrittenText}
    (hread : Json.readBytes? interest content = some v)
    (htext : String.fromUTF8? content = some (String.ofList w.text)) (hw : w.root.Denotes v) :
    IsShared content v w ↔ isCommon w v = true := by
  simp only [isCommon, Bool.and_eq_true]
  constructor
  · intro h
    exact ⟨⟨⟨h.printable, h.untabbed, h.legible⟩, h.keyed⟩, h.named⟩
  · rintro ⟨⟨⟨hprintable, huntabbed, hlegible⟩, hkeyed⟩, hnamed⟩
    exact ⟨hread, htext, hw, hprintable, huntabbed, hlegible, hkeyed, hnamed⟩

/-- Settings are written as an object or as an array. -/
theorem isCollection_of_members? {names : List String} {v : Json} {ms : List (String × Json)}
    (hms : json.members? names v = some ms) {w : Written} (hw : w.Denotes v) :
    w.isCollection = true := by
  cases w with
  | literal cs hcs =>
    cases v with
    | null | bool | int | float => cases hms
    | string | array | object => cases hw
  | string pieces =>
    obtain ⟨s, rfl, -⟩ := hw
    cases hms
  | emptyArray | array | emptyObject | object => rfl

/-- What YAML makes of a text of JSON that settings are read of. -/
theorem ofYaml?_written {w : WrittenText} {v : Json} {s : Settings} (hw : w.root.Denotes v)
    (hs : ofJson? v = some s) (hplain : Yaml.BreaksPlainly w.text) :
    Document.read? (String.ofList w.text) >>= ofYaml? =
      if isCommon w v then some s else none := by
  unfold isCommon
  obtain ⟨ms, hms, -⟩ := Option.bind_eq_some_iff.1 hs
  rw [Yaml.read?_written w (isCollection_of_members? hms hw) hplain]
  by_cases hlegible : w.root.isLegible = true
  · have hroot := read?_of_mirrors ⟨some w.root.node, Yaml.Anchors.empty⟩
      ⟨w.root, hlegible, hw, rfl⟩ hs
    by_cases hread : (w.text.all Yaml.isPrintable && (w.isUntabbed && w.root.isLegible) &&
        w.root.isKeyed) = true
    · rw [if_pos hread, hread, Bool.true_and]
      exact hroot
    · simp [hread]
  · simp [hlegible]

/-- What is made of a content that does not say JSON. -/
theorem ofContent?_written {content : ByteArray} {w : WrittenText} {v : Json} {s : Settings}
    (htext : String.fromUTF8? content = some (String.ofList w.text)) (hw : w.root.Denotes v)
    (hs : ofJson? v = some s) (hplain : Yaml.BreaksPlainly w.text) :
    ofContent? false content = if isCommon w v then some s else none := by
  rw [← ofYaml?_written hw hs hplain, ofContent?, htext]
  rfl

/-- Settings that are read as JSON are read the same as YAML, or refused. -/
theorem ofContent?_yaml {content : ByteArray} {s : Settings}
    (hs : ofContent? true content = some s)
    (hplain : ∀ text, String.fromUTF8? content = some text → Yaml.BreaksPlainly text.toList) :
    (ofContent? false content = some s ↔ ∃ v w, IsShared content v w) ∧
      (ofContent? false content = some s ∨ ofContent? false content = none) := by
  obtain ⟨v, hv, hread⟩ := Option.bind_eq_some_iff.1 hs
  cases htext : String.fromUTF8? content with
  | none =>
    have hnone : ofContent? false content = none := by
      rw [ofContent?, htext]
      rfl
    refine ⟨⟨fun h => ?_, fun ⟨_, _, h⟩ => ?_⟩, .inr hnone⟩
    · rw [hnone] at h
      cases h
    · rw [h.text] at htext
      cases htext
  | some text =>
    have hwritten : ∀ w : WrittenText, text = String.ofList w.text → w.root.Denotes v →
        ofContent? false content = if isCommon w v then some s else none := by
      rintro w rfl hw
      exact ofContent?_written htext hw hread (by simpa using hplain _ htext)
    have hpart := hv
    rw [Json.readBytes?, Json.charactersFrom_of_fromUTF8? htext] at hpart
    obtain ⟨w, hw, hdenotes⟩ := Json.exists_written_of_readPart? hpart
    have htext' : text = String.ofList w.text := by rw [hw, String.ofList_toList]
    refine ⟨⟨fun h => ⟨v, w, ?_⟩, fun ⟨v', w', h⟩ => ?_⟩, ?_⟩
    · rw [isShared_iff hv (htext' ▸ htext) hdenotes]
      rw [hwritten w htext' hdenotes] at h
      split_ifs at h with hcommon
      exact hcommon
    · obtain rfl : v' = v := Option.some.inj (h.read.symm.trans hv)
      rw [hwritten w' (Option.some.inj (htext.symm.trans h.text)) h.denotes,
        (isShared_iff hv h.text h.denotes).1 h]
      rfl
    · rw [hwritten w htext' hdenotes]
      split_ifs
      · exact .inl rfl
      · exact .inr rfl

-- Without the last assumption the settings may differ : YAML drops the blanks before a line break.
example :
    let content := "\x7b\"output\": \"a \u2028b\"\x7d".toUTF8
    ofContent? true content = some { default with output := "a \u2028b" } ∧
      ofContent? false content = some { default with output := "a\u2028b" } := by
  decide +kernel

end Settings

namespace CommandLine

open Json (WrittenText)
open Settings (IsShared)

/-- A content that is read as JSON under one path is read with the same settings under a path that
does not say JSON, exactly if it is written in what JSON and YAML have in common. Otherwise it is
refused there. Contents with a character that ends a line in YAML only are left out of this. -/
theorem load_yaml_of_json {t t' : FileTree} {path path' : String} {content : ByteArray}
    {s : Settings} (hjson : isJson path = true) (hyaml : isJson path' = false)
    (hread : t.read path = .ok content) (hread' : t'.read path' = .ok content)
    (hload : load t path = .ok s)
    (hplain : ∀ text, String.fromUTF8? content = some text → Yaml.BreaksPlainly text.toList) :
    (load t' path' = .ok s ↔ ∃ v w, IsShared content v w) ∧
      (load t' path' = .ok s ∨ load t' path' = .error (.malformed path')) := by
  have hs : Settings.ofContent? true content = some s := by
    rw [load, hread, hjson] at hload
    cases hcontent : Settings.ofContent? true content with
    | none => simp [hcontent] at hload
    | some s' => simpa [hcontent] using hload
  obtain ⟨hiff, hsome | hnone⟩ := Settings.ofContent?_yaml hs hplain
  · have hsame : load t' path' = .ok s := by simp [load, hread', hyaml, hsome]
    exact ⟨iff_of_true hsame (hiff.1 hsome), .inl hsame⟩
  · have hrefused : load t' path' = .error (.malformed path') := by
      simp [load, hread', hyaml, hnone]
    have hnot : ¬ ∃ v w, IsShared content v w := fun h => by
      rw [hiff.2 h] at hnone
      cases hnone
    exact ⟨iff_of_false (by simp [hrefused]) hnot, .inr hrefused⟩

/-! ### Contents under two names -/

/-- The tree with one content under a path that says JSON and under one that does not. -/
def twoNames (content : ByteArray) : FileTree :=
  ⟨Table.ofList [("c.json", .file content), ("c.yaml", .file content)]⟩

/-- The two names. -/
def names : List String := ["c.json", "c.yaml"]

theorem ofPath_names {path : String} (h : path ∈ names) :
    Route.ofPath path = ⟨false, [path], false⟩ := by
  simp only [names, List.mem_cons, List.not_mem_nil, or_false] at h
  obtain rfl | rfl := h <;> decide +kernel

theorem read_twoNames {path : String} (h : path ∈ names) (content : ByteArray) :
    (twoNames content).read path = .ok content := by
  rw [FileTree.read, ofPath_names h]
  simp only [names, List.mem_cons, List.not_mem_nil, or_false] at h
  obtain rfl | rfl := h <;> rfl

theorem read_json (content : ByteArray) : (twoNames content).read "c.json" = .ok content :=
  read_twoNames (by simp [names]) content

theorem read_yaml (content : ByteArray) : (twoNames content).read "c.yaml" = .ok content :=
  read_twoNames (by simp [names]) content

theorem isJson_json : isJson "c.json" = true := by
  rw [isJson, extension?, ofPath_names (by simp [names])]
  decide +kernel

theorem isJson_yaml : isJson "c.yaml" = false := by
  rw [isJson, extension?, ofPath_names (by simp [names])]
  decide +kernel

theorem load_json {content : ByteArray} {s : Settings}
    (h : Settings.ofContent? true content = some s) : load (twoNames content) "c.json" = .ok s := by
  simp [load, read_json, isJson_json, h]

/-- A text of settings that are the same in both notations, with a tab, an escape by number and a
line break. -/
def sharedText : WrittenText where
  before := ⟨[], Text.areBlanks_nil⟩
  root := .object (.last
    { before := ⟨['\n'], by decide⟩
      name := [.plain 'o' (by decide) (by decide) (by decide),
        .plain 'u' (by decide) (by decide) (by decide),
        .plain 't' (by decide) (by decide) (by decide),
        .number ['0', '0', '7', '0'] 0x70 rfl (by decide),
        .plain 'u' (by decide) (by decide) (by decide),
        .plain 't' (by decide) (by decide) (by decide)]
      gap := ⟨['\t'], by decide⟩ }
    ⟨[], Text.areBlanks_nil⟩ (.string [.plain 'a' (by decide) (by decide) (by decide)])
    ⟨[], Text.areBlanks_nil⟩)
  after := ⟨[], Text.areBlanks_nil⟩

/-- A name with a letter that is escaped, and a tab between tokens. -/
theorem load_yaml_of_json_escaped :
    let content := "\x7b\n\"out\\u0070ut\"\t:\"a\"\x7d".toUTF8
    load (twoNames content) "c.json" = .ok { Settings.default with output := "a" } ∧
      load (twoNames content) "c.yaml" = .ok { Settings.default with output := "a" } := by
  intro content
  have hjson : load (twoNames content) "c.json" = .ok { Settings.default with output := "a" } :=
    load_json (by decide +kernel)
  have htext : String.fromUTF8? content = some (String.ofList sharedText.text) := by decide +kernel
  have hplain : ∀ text, String.fromUTF8? content = some text →
      Yaml.BreaksPlainly text.toList := by
    intro text h
    rw [← Option.some.inj (htext.symm.trans h)]
    decide +kernel
  have hshared : IsShared content (.object [("output", .string "a")]) sharedText :=
    { read := by decide +kernel
      text := htext
      denotes := ⟨_, rfl, _, _, rfl, fun _ => rfl, _, rfl, fun _ => rfl⟩
      printable := by decide +kernel
      untabbed := by decide +kernel
      legible := by decide +kernel
      keyed := by decide +kernel
      named := by decide +kernel }
  exact ⟨hjson, (load_yaml_of_json isJson_json isJson_yaml (read_json content) (read_yaml content)
    hjson hplain).1.2 ⟨_, _, hshared⟩⟩

/-- A surrogate pair is a character in JSON, and its halves are none in YAML. -/
theorem not_load_yaml_of_json_paired :
    let content := "\x7b\"output\": \"\\ud83d\\ude00.json\"\x7d".toUTF8
    isJson "c.json" = true ∧ isJson "c.yaml" = false ∧
      (twoNames content).read "c.json" = .ok content ∧
      (twoNames content).read "c.yaml" = .ok content ∧
      load (twoNames content) "c.json" = .ok { Settings.default with output := "😀.json" } ∧
      load (twoNames content) "c.yaml" = .error (.malformed "c.yaml") := by
  intro content
  have hyaml : Settings.ofContent? false content = none := by decide +kernel
  refine ⟨isJson_json, isJson_yaml, read_json content, read_yaml content,
    load_json (by decide +kernel), ?_⟩
  simp [load, read_yaml, isJson_yaml, hyaml]

end CommandLine

end ServiceContract
