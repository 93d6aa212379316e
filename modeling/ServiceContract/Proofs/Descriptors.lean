import ServiceContract.Registry
import ServiceContract.Proofs.Tables
import Mathlib.Data.List.Induction
/-!
# What an element of a descriptor comes to

The readers of descriptors go through the children of an element one by one. Here is what
they give, as a function of the targets of those children. An operation has the last target
of its inputs, the last of its outputs and all of its errors (`Operation.ofElement_fst`), so
nothing is left of what was known of it before. A service has the operations that it
mentions and that are known (`Service.ofElement_fst`), in the order of first mention
(`Service.keys_members`), each as it is known (`Service.get?_members`).
-/

namespace ServiceContract

/-! ## Targets -/

namespace Xml.Node

/-- The targets of the children with a given local name; children without one count as absent. -/
def targets (n : Node) (tag : String) : List String :=
  (n.childrenNamed tag).filterMap (·.label? "target")

/-- The targets of all child elements, whatever their local names. -/
def mentions (n : Node) : List String :=
  (n.children.filter (·.isElement)).filterMap (·.label? "target")

theorem childrenNamed_eq (n : Node) (tag : String) :
    n.childrenNamed tag = (n.elements.filter (·.1 = tag)).map Prod.snd := by
  unfold childrenNamed elements
  induction n.children with
  | nil => rfl
  | cons child rest ih =>
    cases h : child.tag? with
    | none => simp [h, ih]
    | some name =>
      by_cases hn : name = tag
      · simp [h, hn, ih]
      · simp [h, hn, ih]

theorem mentions_eq (n : Node) : n.mentions = n.elements.filterMap (·.2.label? "target") := by
  unfold mentions elements
  induction n.children with
  | nil => rfl
  | cons child rest ih =>
    cases h : child.tag? with
    | none => simpa [isElement, h] using ih
    | some name =>
      have hel : child.isElement = true := by simp [isElement, h]
      rw [List.filter_cons_of_pos hel, List.filterMap_cons, List.filterMap_cons]
      simp only [h, Option.map_some, List.filterMap_cons, ih]

end Xml.Node

/-! ## Entries -/

/-- An element with a name defines what is read from it; one without defines nothing. -/
theorem Entry.definitions_ofRoot {α : Type} (kind : Kind) (file : String)
    (read : String → Xml.Node → α × List Finding) (root : Xml.Node) :
    definitions (ofRoot kind file read root) = (root.childrenNamed kind.tag).filterMap fun e =>
      (e.label? kind.naming).map fun name => (name, (read name e).1) := by
  rw [definitions, ofRoot, List.filterMap_map]
  congr 1
  funext e
  unfold Function.comp ofElement
  cases e.label? kind.naming <;> rfl

/-! ## Operations -/

namespace Operation

/-- The targets of the elements with a given local name among several. -/
def targetsOf (tag : String) (children : List (String × Xml.Node)) : List String :=
  (children.filter (·.1 = tag)).filterMap (·.2.label? "target")

theorem targetsOf_elements (tag : String) (n : Xml.Node) :
    targetsOf tag n.elements = n.targets tag := by
  rw [Xml.Node.targets, n.childrenNamed_eq, List.filterMap_map]
  rfl

/-- A further child adds its target if it has the tag. -/
theorem targetsOf_append_singleton (tag : String) (children : List (String × Xml.Node))
    (child : String × Xml.Node) : targetsOf tag (children ++ [child]) =
      targetsOf tag children ++ if child.1 = tag then (child.2.label? "target").toList else [] := by
  unfold targetsOf
  rw [List.filter_append, List.filterMap_append]
  by_cases h : child.1 = tag
  · cases hl : child.2.label? "target" <;> simp [h, hl]
  · simp [h]

/-- What is known of an operation after some of its children. -/
theorem foldl_addChild_fst (file : String) (children : List (String × Xml.Node)) :
    (children.foldl (addChild file) (blank, [])).1 =
      ⟨(targetsOf "input" children).getLast?, (targetsOf "output" children).getLast?,
        targetsOf "error" children⟩ := by
  induction children using List.reverseRecOn with
  | nil => rfl
  | append_singleton children child ih =>
    obtain ⟨tag, element⟩ := child
    rw [List.foldl_append, List.foldl_cons, List.foldl_nil, targetsOf_append_singleton,
      targetsOf_append_singleton, targetsOf_append_singleton]
    generalize children.foldl (addChild file) (blank, []) = state at ih
    obtain ⟨op, findings⟩ := state
    obtain rfl : op = _ := ih
    cases hl : element.label? "target" with
    | none =>
      simp only [addChild, hl]
      split <;> simp
    | some target =>
      by_cases hi : tag = "input"
      · simp [addChild, isPart, hl, hi]
      by_cases ho : tag = "output"
      · simp [addChild, isPart, hl, ho]
      by_cases he : tag = "error"
      · simp [addChild, isPart, hl, he]
      simp [addChild, isPart, hi, ho, he]

/-- An operation is read from its own element alone. -/
theorem ofElement_fst (file : String) (n : Xml.Node) : (ofElement file n).1 =
    ⟨(n.targets "input").getLast?, (n.targets "output").getLast?, n.targets "error"⟩ := by
  rw [ofElement, foldl_addChild_fst, targetsOf_elements, targetsOf_elements, targetsOf_elements]

end Operation

/-! ## Services -/

namespace Service

/-- The known ones of several operations, each as it is known. -/
def members (known : Table Operation) (names : List String) : Table Operation :=
  Table.ofList (names.filterMap fun name => (known.get? name).map fun op => (name, op))

/-- A further mention adds the operation if it is known. -/
theorem members_append_singleton (known : Table Operation) (names : List String) (name : String) :
    members known (names ++ [name]) = match known.get? name with
      | some op => (members known names).insert name op
      | none => members known names := by
  unfold members
  rw [List.filterMap_append, Table.ofList_append]
  cases h : known.get? name with
  | none => simp [h, Table.insertAll]
  | some op => simp [h, Table.insertAll]

theorem foldl_addChild_fst (file : String) (known : Table Operation) (service : String)
    (children : List (String × Xml.Node)) :
    (children.foldl (addChild file known service) (Table.empty, [])).1 =
      members known (children.filterMap (·.2.label? "target")) := by
  induction children using List.reverseRecOn with
  | nil => rfl
  | append_singleton children child ih =>
    rw [List.foldl_append, List.foldl_cons, List.foldl_nil, List.filterMap_append]
    generalize children.foldl (addChild file known service) (Table.empty, []) = state at ih
    obtain ⟨table, findings⟩ := state
    obtain rfl : table = _ := ih
    unfold addChild
    cases hl : child.2.label? "target" with
    | none => simp [hl]
    | some target =>
      simp only [List.filterMap_cons, List.filterMap_nil, hl, members_append_singleton]
      cases known.get? target <;> rfl

/-- A service has the operations that its element mentions, as far as they are known. -/
theorem ofElement_fst (file : String) (known : Table Operation) (service : String)
    (n : Xml.Node) : (ofElement file known service n).1 = members known n.mentions := by
  rw [ofElement, foldl_addChild_fst, n.mentions_eq]

/-- The operations of a service are the known ones of its mentions, each once. -/
theorem keys_members (known : Table Operation) (names : List String) :
    (members known names).keys = (names.filter fun name => known.contains name).eraseDups := by
  rw [members, Table.keys_ofList]
  congr 1
  induction names with
  | nil => rfl
  | cons name rest ih =>
    cases h : known.get? name with
    | none => simpa [h, Table.contains] using ih
    | some op => simpa [h, Table.contains] using ih

/-- A member of a service is the operation as it is known. -/
theorem get?_of_get?_members {known : Table Operation} {names : List String} {name : String}
    {op : Operation} (h : (members known names).get? name = some op) :
    known.get? name = some op := by
  rw [members, Table.get?_ofList] at h
  have hmem := List.mem_reverse.1 (Table.mem_of_lookup h)
  obtain ⟨other, -, hother⟩ := List.mem_filterMap.1 hmem
  obtain ⟨op', hop, heq⟩ := Option.map_eq_some_iff.1 hother
  obtain ⟨rfl, rfl⟩ := Prod.mk.inj heq
  exact hop

theorem get?_members {known : Table Operation} {names : List String} {name : String}
    (h : name ∈ (members known names).keys) :
    (members known names).get? name = known.get? name := by
  cases hop : (members known names).get? name with
  | none => exact absurd h (Table.get?_eq_none_iff.1 hop)
  | some op => exact (get?_of_get?_members hop).symm

end Service

end ServiceContract
