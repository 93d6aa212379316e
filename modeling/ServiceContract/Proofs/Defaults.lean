import ServiceContract.Settings.Read
import Mathlib.Data.List.Basic
import Mathlib.Data.List.Perm.Basic
/-!
# Settings with parts left out

The JSON object of settings is read by the names of its members. So it may be written in any order,
with members of other names in between, and whatever is left out of it has its default : reading it
gives the settings with just these parts reset (`ofJson?_of_alters`). The same holds of the object
inside it that tells the title and the version.
-/

namespace ServiceContract.Settings

/-! ## Parts -/

/-- A part of settings that may be left out. -/
inductive Key where
  /-- The error descriptors. -/
  | errors
  /-- The operation descriptors. -/
  | operations
  /-- The service descriptors. -/
  | services
  /-- The schema documents. -/
  | schemas
  /-- Where the contract is written. -/
  | output
  /-- What becomes of findings. -/
  | warnings
  /-- Which of two responses with one status code is kept. -/
  | duplicateStatus
  /-- The shape of the contract. -/
  | layout
  /-- All that the contract says about itself. -/
  | info
  /-- The title, which is inside what the contract says about itself. -/
  | title
  /-- The version, which is there as well. -/
  | version
deriving DecidableEq, Repr

namespace Key

/-- The name of the member that holds a part. -/
def name : Key → String
  | errors => "errors"
  | operations => "operations"
  | services => "services"
  | schemas => "schemas"
  | output => "output"
  | warnings => "warnings"
  | duplicateStatus => "duplicateStatus"
  | layout => "layout"
  | info => "info"
  | title => "title"
  | version => "version"

/-- No two settings share a name. -/
theorem name_inj {k l : Key} (h : k.name = l.name) : k = l := by
  revert h
  cases k <;> cases l <;> decide

end Key

/-- Settings in which some parts have their default. -/
def reset (s : Settings) (dropped : List Key) : Settings where
  errors := if .errors ∈ dropped then default.errors else s.errors
  operations := if .operations ∈ dropped then default.operations else s.operations
  services := if .services ∈ dropped then default.services else s.services
  schemas := if .schemas ∈ dropped then default.schemas else s.schemas
  output := if .output ∈ dropped then default.output else s.output
  warnings := if .warnings ∈ dropped then default.warnings else s.warnings
  style :=
    { duplicateStatus :=
        if .duplicateStatus ∈ dropped then default.style.duplicateStatus
        else s.style.duplicateStatus
      layout := if .layout ∈ dropped then default.style.layout else s.style.layout
      info :=
        if .info ∈ dropped then default.style.info
        else
          { title := if .title ∈ dropped then default.style.info.title else s.style.info.title
            version :=
              if .version ∈ dropped then default.style.info.version else s.style.info.version } }

/-! ## Altered objects -/

/-- Members without those of the dropped parts, in any order and with others between them that have
no known name. -/
def Rearranged (known : List String) (dropped : List Key)
    (members others : List (String × Json)) : Prop :=
  ∃ extra : List (String × Json), (∀ m ∈ extra, m.1 ∉ known) ∧
    others.Perm (members.filter (·.1 ∉ dropped.map Key.name) ++ extra)

/-- The members of the object inside the object of settings. -/
def infoMembers (s : Settings) : List (String × Json) :=
  (s.toJson.member? "info").elim [] Json.members

/-- An object that differs from that of settings in that parts are dropped, that members stand in
another order, and that there are further ones. -/
def Alters (s : Settings) (dropped : List Key) (v : Json) : Prop :=
  ∃ inner outer : List (String × Json), v = .object outer ∧
    Rearranged infoNames dropped s.infoMembers inner ∧
    Rearranged names dropped
      (s.toJson.members.map fun m => if m.1 = "info" then (m.1, .object inner) else m) outer

/-- The value of a member is found wherever it stands, and a default if it is dropped. -/
theorem member?_of_rearranged {β : Type} {known : List String} {dropped : List Key}
    {members others : List (String × Json)} (h : Rearranged known dropped members others) (k : Key)
    (hk : k.name ∈ known) {v : Json} (hv : members.filter (·.1 = k.name) = [(k.name, v)])
    (read : Json → Option β) {x : β} (hread : read v = some x) (d : β) :
    member? k.name read d others = some (if k ∈ dropped then d else x) := by
  obtain ⟨extra, hextra, hperm⟩ := h
  have hnone : extra.filter (·.1 = k.name) = [] := by
    rw [List.filter_eq_nil_iff]
    intro m hm hname
    rw [decide_eq_true_eq] at hname
    exact hextra m hm (hname ▸ hk)
  have hfilter := hperm.filter (·.1 = k.name)
  rw [List.filter_append, hnone, List.append_nil, List.filter_comm, hv] at hfilter
  have hmem : k.name ∈ dropped.map Key.name ↔ k ∈ dropped :=
    List.mem_map_of_injective fun _ _ => Key.name_inj
  by_cases hdropped : k ∈ dropped
  · rw [List.filter_cons_of_neg (by simpa only [decide_eq_true_eq, not_not, hmem] using hdropped)]
      at hfilter
    simp only [member?, hfilter.eq_nil, hdropped, if_true]
  · rw [List.filter_cons_of_pos (by simpa only [decide_eq_true_eq, hmem] using hdropped)] at hfilter
    simp only [member?, List.perm_singleton.1 hfilter, hdropped, if_false]
    exact hread

/-! ## What was written is read -/

/-- A list of texts is read back from its notation. -/
theorem texts?_textsJson (texts : List String) : json.texts? (textsJson texts) = some texts := by
  have hread : ∀ texts : List String, (texts.map Json.string).mapM jsonText? = some texts := by
    intro texts
    induction texts with
    | nil => rfl
    | cons s rest ih => simp [jsonText?, ih]
  exact hread texts

theorem WarningPolicy.ofName?_name (p : WarningPolicy) : WarningPolicy.ofName? p.name = some p := by
  cases p <;> decide

theorem DuplicateStatus.ofName?_name (d : DuplicateStatus) :
    DuplicateStatus.ofName? d.name = some d := by
  cases d <;> decide

theorem Layout.ofName?_name (l : Layout) : Layout.ofName? l.name = some l := by
  cases l <;> decide

section Reading

variable {s : Settings} {dropped : List Key} {inner outer : List (String × Json)}

/-- The information about a contract keeps what is not dropped, in any order and among other
members. -/
theorem infoOfMembers?_of_rearranged (h : Rearranged infoNames dropped s.infoMembers inner) :
    infoOfMembers? json inner = some
      { title := if .title ∈ dropped then Info.default.title else s.style.info.title
        version := if .version ∈ dropped then Info.default.version else s.style.info.version } := by
  have htitle := member?_of_rearranged h .title (by decide) rfl json.text? rfl Info.default.title
  have hversion :=
    member?_of_rearranged h .version (by decide) rfl json.text? rfl Info.default.version
  simp only [Key.name] at htitle hversion
  rw [infoOfMembers?, htitle, hversion]
  rfl

/-- The JSON object of settings may be written with its members in any order, with some of them left
out and others added, at both levels. It is read, and gives the settings with the default for each
part that is left out. -/
theorem ofJson?_of_alters {v : Json} (h : Alters s dropped v) :
    ofJson? v = some (s.reset dropped) := by
  obtain ⟨inner, outer, rfl, hinner, houter⟩ := h
  have hinfo : json.members? infoNames (.object inner) >>= infoOfMembers? json = some _ :=
    infoOfMembers?_of_rearranged hinner
  have herrors := member?_of_rearranged houter .errors (by decide) rfl json.texts?
    (texts?_textsJson s.errors) []
  have hoperations := member?_of_rearranged houter .operations (by decide) rfl json.texts?
    (texts?_textsJson s.operations) []
  have hservices := member?_of_rearranged houter .services (by decide) rfl json.texts?
    (texts?_textsJson s.services) []
  have hschemas := member?_of_rearranged houter .schemas (by decide) rfl json.texts?
    (texts?_textsJson s.schemas) []
  have houtput := member?_of_rearranged houter .output (by decide) rfl json.text? rfl
    default.output
  have hwarnings := member?_of_rearranged houter .warnings (by decide) rfl
    (fun v => json.word? v >>= WarningPolicy.ofName?) (WarningPolicy.ofName?_name s.warnings)
    default.warnings
  have hduplicate := member?_of_rearranged houter .duplicateStatus (by decide) rfl
    (fun v => json.word? v >>= DuplicateStatus.ofName?)
    (DuplicateStatus.ofName?_name s.style.duplicateStatus) default.style.duplicateStatus
  have hlayout := member?_of_rearranged houter .layout (by decide) rfl
    (fun v => json.word? v >>= Layout.ofName?) (Layout.ofName?_name s.style.layout)
    default.style.layout
  have hinfo := member?_of_rearranged houter .info (by decide) rfl
    (fun v => json.members? infoNames v >>= infoOfMembers? json) hinfo default.style.info
  simp only [Key.name] at herrors hoperations hservices hschemas houtput
  simp only [Key.name] at hwarnings hduplicate hlayout hinfo
  change ofMembers? json outer = _
  simp only [ofMembers?, herrors, hoperations, hservices, hschemas, houtput, hwarnings, hduplicate,
    hlayout, hinfo]
  rfl

/-- An object of settings that is turned around at both levels, with the output and the title left
out, and with further members, two of which have a name that counts at the other level only. -/
theorem ofJson?_of_alters_turned :
    let s : Settings := ⟨["e.xml"], ["o.xml", "p.xml"], [], [], "c.json", .fail,
      ⟨.keepLast, .openapi, ⟨"Billing", "2.0"⟩⟩⟩
    let v : Json := .object [("title", .array [.null]), ("note", .object [("info", .bool true)]),
      ("info", .object [("output", .int 3), ("version", .string "2.0")]),
      ("layout", .string "openapi"), ("duplicateStatus", .string "keep-last"),
      ("warnings", .string "fail"), ("schemas", .array []), ("services", .array []),
      ("operations", .array [.string "o.xml", .string "p.xml"]),
      ("errors", .array [.string "e.xml"])]
    Alters s [.output, .title] v ∧
      ofJson? v = some { s with
        output := "coral-operations.json"
        style := { s.style with info := ⟨"Service contract", "2.0"⟩ } } := by
  intro s v
  have halters : Alters s [.output, .title] v := by
    refine ⟨[("output", .int 3), ("version", .string "2.0")], _, rfl,
      ⟨[("output", .int 3)], by decide, ?_⟩,
      ⟨[("note", .object [("info", .bool true)]), ("title", .array [.null])], by decide, ?_⟩⟩
    · exact List.Perm.swap ("version", Json.string "2.0") ("output", Json.int 3) []
    · change v.members.Perm v.members.reverse
      exact (List.reverse_perm v.members).symm
  exact ⟨halters, ofJson?_of_alters halters⟩

end Reading

end ServiceContract.Settings
