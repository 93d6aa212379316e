import ServiceContract.Proofs.Counting
/-!
# Who owns a path

An emission goes through the services in their order and through the operations of each in their
order (`scan`). A path stands where its operation came first in this scan, and its item is that of
the last service that has the operation, made from what this service keeps of it. Between the first
and the last of these services (`holders`) the path goes from each to the next, and each time this
is reported (`owns_emit`).
-/

namespace ServiceContract.Contract

/-! ## The scan -/

/-- The names of the operations of all services, service by service. -/
def scan (r : Registry) : List String := r.services.entries.flatMap fun e => e.2.keys

theorem map_operation_placements (r : Registry) : (placements r).map (·.operation) = scan r := by
  rw [placements, scan, List.map_flatMap]
  refine List.flatMap_congr fun e _ => ?_
  rw [List.map_map]
  rfl

/-- The last placement of an operation is that in the last service that has it. -/
theorem last?_placements (r : Registry) (operation : String) :
    last? operation (placements r) =
      (holders r operation).getLast?.map fun h => ⟨h.1, operation, h.2⟩ := by
  rw [last?_eq_getLast?, filter_placements, List.getLast?_map]

/-! ## Paths in a contract -/

/-- Paths stand in the order of first placement. -/
theorem map_fst_pathItems_emit (r : Registry) (style : Style) :
    (pathItems style.layout (emit r style).document).map Prod.fst =
      (scan r).eraseDups.map path := by
  have hinj : Function.Injective path := fun _ _ h => path_inj.1 h
  have howned : ((placements r).map (owned r style.duplicateStatus)).map Prod.fst =
      ((placements r).map (·.operation)).map path := by
    rw [List.map_map, List.map_map]
    rfl
  have hkeys := Table.keys_ofList ((placements r).map (owned r style.duplicateStatus))
  rw [← placed_fst, howned, map_operation_placements, eraseDups_map_of_injective hinj] at hkeys
  rw [pathItems_emit, List.map_map, ← hkeys]
  rfl

/-- Under a path stands the item of its operation in the last service that has it. -/
theorem lookup_path_pathItems_emit (r : Registry) (style : Style) (operation : String) :
    (pathItems style.layout (emit r style).document).lookup (path operation) =
      (holders r operation).getLast?.map fun h =>
        pathItem r style.duplicateStatus ⟨h.1, operation, h.2⟩ := by
  cases hlast : (holders r operation).getLast? with
  | some h =>
    have hplaced : last? operation (placements r) = some ⟨h.1, operation, h.2⟩ := by
      rw [last?_placements, hlast]
      rfl
    exact lookup_pathItems_emit (p := ⟨h.1, operation, h.2⟩) hplaced
  | none =>
    rw [Option.map_none, Table.lookup_eq_none_iff_not_mem, List.mem_map]
    rintro ⟨⟨key, item⟩, hitem, hkey⟩
    obtain ⟨p, hp, rfl, -⟩ := mem_pathItems_emit_iff.1 hitem
    obtain rfl : p.operation = operation := path_inj.1 hkey
    rw [last?_placements, hlast] at hp
    simp at hp

/-! ## Owners -/

/-- Path items and findings by which the paths of a contract belong to services as they should. -/
structure Owns (r : Registry) (rule : DuplicateStatus) (items : List (String × Json)) (paths : Nat)
    (findings : List Finding) : Prop where
  /-- There is one path for each operation, in the order in which the operations come first. -/
  names : items.map Prod.fst = (scan r).eraseDups.map fun operation => "/" ++ operation
  count : paths = (scan r).eraseDups.length
  /-- A path has the item of its operation in the last service that has it. -/
  owner : ∀ operation, items.lookup ("/" ++ operation) =
    (holders r operation).getLast?.map fun h => pathItem r rule ⟨h.1, operation, h.2⟩
  /-- A path goes from each service that has its operation to the next one. -/
  successions : ∀ operation, findings.filter (takesOver ("/" ++ operation)) =
    let services := (holders r operation).map Prod.fst
    services.zipWith (fun replaced service => .duplicatePath ("/" ++ operation) replaced service)
      services.tail

/-- In every contract paths stand in the order of the scan, each belongs to the last service that
has its operation, and the findings report the services that it went through in order. -/
theorem owns_emit (r : Registry) (style : Style) :
    let emission := emit r style
    Owns r style.duplicateStatus (pathItems style.layout emission.document) emission.paths
      emission.findings := by
  intro emission
  constructor
  case names => exact map_fst_pathItems_emit r style
  case count =>
    have hlength := congrArg List.length (map_fst_pathItems_emit r style)
    rw [List.length_map, List.length_map] at hlength
    exact (paths_emit r style).trans hlength
  case owner => exact lookup_path_pathItems_emit r style
  case successions =>
    intro operation
    have hfilter := filter_takesOver_foldl_place r style.duplicateStatus operation (placements r)
    rw [filter_placements, List.map_map] at hfilter
    exact hfilter

/-- Of three services that have the operation each takes the path from the one before. -/
example :
    let members := Table.ofList [("X", Operation.blank)]
    let r := { Registry.empty with
      services := Table.ofList [("A", members), ("B", members), ("C", members)] }
    (emit r Style.default).findings =
      [.missingInput "X", .duplicatePath "/X" "A" "B", .duplicatePath "/X" "B" "C"] := by
  decide +kernel

end ServiceContract.Contract
