import ServiceContract.Contract
import ServiceContract.Proofs.Tables
import Mathlib.Data.List.Induction
/-!
# What a contract is made of

The emission puts the path items of all operations of all services under their paths, one
after another. The table at the end is therefore filled with the path items in that order
(`placed_fst`), and a path has the item of the last service with its operation
(`get?_placed`). Its findings beyond replaced paths are those of the first placement of each
operation (`mem_findings_emit_iff`), so what is seen of the findings of two contracts for the
same placements is the same as soon as it is for each path item (`filterMap_findings_emit`).
`pathItems` reads the path items back from the document, in either layout (`pathItems_emit`).
-/

namespace ServiceContract.Contract

/-! ## Placements -/

/-- The first of several placements of an operation. -/
def first? (operation : String) (ps : List Placement) : Option Placement :=
  ps.find? (·.operation = operation)

/-- The last of several placements of an operation. -/
def last? (operation : String) (ps : List Placement) : Option Placement :=
  ps.reverse.find? (·.operation = operation)

theorem operation_of_first? {operation : String} {ps : List Placement} {p : Placement}
    (h : first? operation ps = some p) : p.operation = operation := by
  simpa using List.find?_some h

theorem operation_of_last? {operation : String} {ps : List Placement} {p : Placement}
    (h : last? operation ps = some p) : p.operation = operation := by
  simpa using List.find?_some h

theorem mem_of_first? {operation : String} {ps : List Placement} {p : Placement}
    (h : first? operation ps = some p) : p ∈ ps :=
  List.mem_of_find?_eq_some h

theorem mem_of_last? {operation : String} {ps : List Placement} {p : Placement}
    (h : last? operation ps = some p) : p ∈ ps :=
  List.mem_reverse.1 (List.mem_of_find?_eq_some h)

/-- The last placement of an operation stands behind all others. -/
theorem last?_eq_getLast? (operation : String) (ps : List Placement) :
    last? operation ps = (ps.filter (·.operation = operation)).getLast? := by
  rw [last?, ← List.head?_filter, List.filter_reverse, List.head?_reverse]

/-- An operation that is placed has a first placement. -/
theorem exists_first?_of_last? {operation : String} {ps : List Placement} {p : Placement}
    (h : last? operation ps = some p) : ∃ q, first? operation ps = some q := by
  rw [← Option.isSome_iff_exists, first?, List.find?_isSome]
  exact ⟨p, mem_of_last? h, by simp [operation_of_last? h]⟩

/-- A further placement is the first if there was none of its operation. -/
theorem first?_append_singleton (operation : String) (ps : List Placement) (p : Placement) :
    first? operation (ps ++ [p]) =
      (first? operation ps).or (if p.operation = operation then some p else none) := by
  rw [first?, first?, List.find?_append]
  by_cases h : p.operation = operation <;> simp [h]

theorem first?_append_singleton_eq_some_iff {ps : List Placement} {p q : Placement} :
    first? q.operation (ps ++ [p]) = some q ↔
      first? q.operation ps = some q ∨ first? p.operation ps = none ∧ q = p := by
  rw [first?_append_singleton]
  cases h : first? q.operation ps with
  | none =>
    rw [Option.none_or]
    constructor
    · intro hp
      obtain ⟨-, hpq⟩ := Option.ite_none_right_eq_some.1 hp
      obtain rfl := Option.some.inj hpq
      exact Or.inr ⟨h, rfl⟩
    · rintro (hq | ⟨-, rfl⟩)
      · simp at hq
      · simp
  | some first =>
    rw [Option.some_or]
    constructor
    · exact Or.inl
    · rintro (hq | ⟨hp, rfl⟩)
      · exact hq
      · rw [h] at hp
        simp at hp

theorem path_inj {a b : String} : path a = path b ↔ a = b := by
  unfold path
  exact ⟨fun h => by simpa using h, fun h => by rw [h]⟩

/-! ## Path items by path -/

/-- What a placement puts under its path. -/
def owned (r : Registry) (rule : DuplicateStatus) (p : Placement) : String × Owned :=
  (path p.operation, ⟨p.service, pathItem r rule p⟩)

/-- The table of path items is filled with those of all placements in order. -/
theorem foldl_place_fst (r : Registry) (rule : DuplicateStatus) (ps : List Placement) :
    (ps.foldl (place r rule) (Table.empty, [])).1 = Table.ofList (ps.map (owned r rule)) := by
  induction ps using List.reverseRecOn with
  | nil => rfl
  | append_singleton ps p ih =>
    rw [List.foldl_append, List.map_append, Table.ofList_append, ← ih]
    rfl

/-- The path items are those of the placements, under their paths. -/
theorem placed_fst (r : Registry) (rule : DuplicateStatus) :
    (placed r rule).1 = Table.ofList ((placements r).map (owned r rule)) :=
  foldl_place_fst r rule (placements r)

theorem get?_ofList_owned (r : Registry) (rule : DuplicateStatus) (ps : List Placement)
    (operation : String) : (Table.ofList (ps.map (owned r rule))).get? (path operation) =
      (last? operation ps).map fun p => (owned r rule p).2 := by
  rw [Table.get?_ofList, Table.lookup_eq_head?, ← List.map_reverse, List.filter_map, List.map_map,
    List.head?_map, List.head?_filter]
  congr 1
  unfold last?
  congr 1
  funext p
  simp [owned, path_inj]

/-- Under a path stands the item of the last placement of its operation. -/
theorem get?_placed (r : Registry) (rule : DuplicateStatus) (operation : String) :
    (placed r rule).1.get? (path operation) =
      (last? operation (placements r)).map fun p => (owned r rule p).2 := by
  rw [placed_fst, get?_ofList_owned]

/-- An entry of the table is the path item of the last placement of some operation. -/
theorem mem_entries_placed_iff {r : Registry} {rule : DuplicateStatus} {e : String × Owned} :
    e ∈ (placed r rule).1.entries ↔
      ∃ p, last? p.operation (placements r) = some p ∧ e = owned r rule p := by
  obtain ⟨key, value⟩ := e
  rw [Table.mem_entries_iff]
  constructor
  · intro h
    have hmem := h
    rw [placed_fst, Table.get?_ofList] at hmem
    obtain ⟨p, -, hp⟩ := List.mem_map.1 (List.mem_reverse.1 (Table.mem_of_lookup hmem))
    obtain ⟨rfl, -⟩ := Prod.mk.inj hp
    rw [get?_placed] at h
    obtain ⟨last, hlast, rfl⟩ := Option.map_eq_some_iff.1 h
    have hop := operation_of_last? hlast
    exact ⟨last, by rw [hop, hlast], by simp [owned, hop]⟩
  · rintro ⟨p, hp, he⟩
    obtain ⟨rfl, rfl⟩ := Prod.mk.inj he
    rw [get?_placed, hp]
    rfl

/-! ## Findings -/

/-- One more element has one more neighbour, the last element before it. -/
theorem zipWith_tail_append_singleton {α β : Type} (f : α → α → β) (l : List α) (a : α) :
    (l ++ [a]).zipWith f (l ++ [a]).tail =
      l.zipWith f l.tail ++ (l.getLast?.map (f · a)).toList := by
  induction l with
  | nil => rfl
  | cons b l ih =>
    cases l with
    | nil => rfl
    | cons c l => simpa using ih

/-- Whether a finding says that a path is taken over. -/
def isReplacement : Finding → Bool
  | .duplicatePath .. => true
  | _ => false

/-- A further placement takes over the path of the last one of its operation, or is the first and
has the findings of its path item. -/
theorem findings_foldl_place_append_singleton (r : Registry) (rule : DuplicateStatus)
    (ps : List Placement) (p : Placement) :
    ((ps ++ [p]).foldl (place r rule) (Table.empty, [])).2 =
      (ps.foldl (place r rule) (Table.empty, [])).2 ++ match last? p.operation ps with
        | some before => [.duplicatePath (path p.operation) before.service p.service]
        | none => itemFindings r rule p := by
  rw [List.foldl_append, List.foldl_cons, List.foldl_nil, place]
  simp only [foldl_place_fst, get?_ofList_owned]
  cases last? p.operation ps <;> rfl

/-- What is seen of the findings for the same placements is the same under two registries, if a path
that is taken over looks the same under both, and so do the findings of each path item. -/
theorem filterMap_findings_foldl_place {α : Type} {r s : Registry} {rule other : DuplicateStatus}
    {see look : Finding → Option α}
    (hreplaced : ∀ path replaced service, see (.duplicatePath path replaced service) =
      look (.duplicatePath path replaced service))
    (hitem : ∀ p, (itemFindings r rule p).filterMap see = (itemFindings s other p).filterMap look)
    (ps : List Placement) :
    (ps.foldl (place r rule) (Table.empty, [])).2.filterMap see =
      (ps.foldl (place s other) (Table.empty, [])).2.filterMap look := by
  induction ps using List.reverseRecOn with
  | nil => rw [List.foldl_nil, List.foldl_nil, List.filterMap_nil, List.filterMap_nil]
  | append_singleton ps p ih =>
    rw [findings_foldl_place_append_singleton, findings_foldl_place_append_singleton,
      List.filterMap_append, List.filterMap_append, ih]
    cases last? p.operation ps with
    | none => rw [hitem p]
    | some before => simp only [List.filterMap_cons, hreplaced, List.filterMap_nil]

/-- What is seen of the findings of two contracts is the same, if the registries have the same
placements, and if a path that is taken over and the findings of each path item look the same. -/
theorem filterMap_findings_emit {α : Type} {r s : Registry} {style other : Style}
    {see look : Finding → Option α} (hplacements : placements s = placements r)
    (hreplaced : ∀ path replaced service, see (.duplicatePath path replaced service) =
      look (.duplicatePath path replaced service))
    (hitem : ∀ p, (itemFindings r style.duplicateStatus p).filterMap see =
      (itemFindings s other.duplicateStatus p).filterMap look) :
    (emit r style).findings.filterMap see = (emit s other).findings.filterMap look := by
  refine (filterMap_findings_foldl_place hreplaced hitem (placements r)).trans ?_
  rw [← hplacements]
  rfl

theorem last?_eq_none_iff {operation : String} {ps : List Placement} :
    last? operation ps = none ↔ first? operation ps = none := by
  simp [last?, first?]

/-- A finding that is no replacement comes from the first placement of an operation. -/
theorem mem_findings_foldl_place_iff {r : Registry} {rule : DuplicateStatus} {f : Finding}
    (hf : isReplacement f = false) (ps : List Placement) :
    f ∈ (ps.foldl (place r rule) (Table.empty, [])).2 ↔
      ∃ p, first? p.operation ps = some p ∧ f ∈ itemFindings r rule p := by
  induction ps using List.reverseRecOn with
  | nil => simp [first?]
  | append_singleton ps p ih =>
    rw [findings_foldl_place_append_singleton, List.mem_append, ih]
    simp only [first?_append_singleton_eq_some_iff, or_and_right, exists_or]
    refine or_congr_right ?_
    rw [← last?_eq_none_iff]
    cases last? p.operation ps with
    | none => simp
    | some before =>
      have hnot : f ≠ .duplicatePath (path p.operation) before.service p.service := by
        rintro rfl
        simp [isReplacement] at hf
      simp [hnot]

theorem mem_findings_emit_iff {r : Registry} {style : Style} {f : Finding}
    (hf : isReplacement f = false) : f ∈ (emit r style).findings ↔
      ∃ p, first? p.operation (placements r) = some p ∧
        f ∈ itemFindings r style.duplicateStatus p :=
  mem_findings_foldl_place_iff hf (placements r)

/-! ## The document -/

/-- The path items in a contract, by their paths. -/
def pathItems (layout : Layout) (document : Json) : List (String × Json) :=
  match layout with
  | .paths => document.members
  | .openapi => ((document.member? "paths").getD .null).members

/-- A contract has the path items that were placed, in their order. -/
theorem pathItems_emit (r : Registry) (style : Style) :
    pathItems style.layout (emit r style).document =
      (placed r style.duplicateStatus).1.entries.map fun e => (e.1, e.2.item) := by
  cases h : style.layout with
  | paths => simp [emit, h, pathItems, pathsJson, Json.members]
  | openapi =>
    simp [emit, h, pathItems, envelope, Json.member?, List.lookup_cons, pathsJson, Json.members]

/-- The number of paths of a contract is that of the path items in its document. -/
theorem paths_emit (r : Registry) (style : Style) :
    (emit r style).paths = (pathItems style.layout (emit r style).document).length := by
  rw [pathItems_emit, List.length_map]
  rfl

/-- The path items in a contract are those of the last placements. -/
theorem mem_pathItems_emit_iff {r : Registry} {style : Style} {key : String} {item : Json} :
    (key, item) ∈ pathItems style.layout (emit r style).document ↔
      ∃ p, last? p.operation (placements r) = some p ∧ key = path p.operation ∧
        item = pathItem r style.duplicateStatus p := by
  rw [pathItems_emit, List.mem_map]
  constructor
  · rintro ⟨e, he, heq⟩
    obtain ⟨p, hp, rfl⟩ := mem_entries_placed_iff.1 he
    obtain ⟨rfl, rfl⟩ := Prod.mk.inj heq
    exact ⟨p, hp, rfl, rfl⟩
  · rintro ⟨p, hp, rfl, rfl⟩
    exact ⟨owned r style.duplicateStatus p, mem_entries_placed_iff.2 ⟨p, hp, rfl⟩, rfl⟩

/-- Where two registries have the same placements, a path has the item of the same one. -/
theorem exists_placement_of_mem_pathItems {r s : Registry} {style other : Style}
    (hplacements : placements s = placements r) {key : String} {one two : Json}
    (hone : (key, one) ∈ pathItems style.layout (emit r style).document)
    (htwo : (key, two) ∈ pathItems other.layout (emit s other).document) :
    ∃ p, last? p.operation (placements r) = some p ∧ key = path p.operation ∧
      one = pathItem r style.duplicateStatus p ∧ two = pathItem s other.duplicateStatus p := by
  obtain ⟨p, hp, hkey, hitem⟩ := mem_pathItems_emit_iff.1 hone
  obtain ⟨q, hq, hkey', hitem'⟩ := mem_pathItems_emit_iff.1 htwo
  have hoperation : p.operation = q.operation := path_inj.1 (hkey.symm.trans hkey')
  rw [hplacements, ← hoperation, hp] at hq
  obtain rfl := Option.some.inj hq
  exact ⟨p, hp, hkey, hitem, hitem'⟩

end ServiceContract.Contract
