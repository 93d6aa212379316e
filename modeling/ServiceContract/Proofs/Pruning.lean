import ServiceContract.Proofs.Descriptors
import Mathlib.Logic.Relation
/-!
# What a descriptor says

Only some parts of a descriptor are looked at : of the root the entries of its kind and at most one
attribute, of an entry its name and certain elements inside it, of those one attribute again
(`Depth`). `Xml.Node.prune` takes everything else out of a tree, and a registry takes in the rest
exactly as it takes in the whole (`ingestRoot_prune`). An `Edit` changes a tree in one spot that is
not looked at. It leaves what pruning leaves (`Edit.prune_eq`), so any number of edits, back and
forth, have no effect (`ingest_of_edits`).
-/

namespace ServiceContract

/-- How deep an element stands in a descriptor. -/
inductive Depth where
  /-- The root. -/
  | root (kind : Kind)
  /-- An entry. -/
  | entry (kind : Kind)
  /-- An element inside an entry, with the attribute that is read of it. -/
  | part (name : String)

namespace Depth

/-- Whether an element is the root. -/
def isRoot : Depth → Bool
  | root _ => true
  | _ => false

/-- The attribute that is read of an element. -/
def attribute? : Depth → Option String
  | root .errors => none
  | root .operations | root .services => some "assembly"
  | entry kind => some kind.naming
  | part name => some name

/-- Whether an attribute is the one that is read of an element : it has no prefix. -/
def reads (depth : Depth) (a : Xml.Attribute) : Bool :=
  depth.attribute?.any fun name => a.name = ⟨none, name⟩

/-- The attribute that is read of an element with a local name inside an entry, if it is looked at
there. A service has elements of any name. -/
def partAttribute? : Kind → String → Option String
  | .errors, tag => if tag = "httpresponsecode" then some "value" else none
  | .operations, tag => if Operation.isPart tag then some "target" else none
  | .services, _ => some "target"

/-- The depth of an element with a local name inside another, if it is looked at there. -/
def inner? : Depth → String → Option Depth
  | root kind, tag => if tag = kind.tag then some (entry kind) else none
  | entry kind, tag => (partAttribute? kind tag).map part
  | part _, _ => none

/-- The depth of a node inside an element, if it is looked at. -/
def below? (depth : Depth) (n : Xml.Node) : Option Depth := n.tag?.bind depth.inner?

/-- Below an element nothing is the root. -/
theorem isRoot_of_inner? {depth inner : Depth} {tag : String} (h : depth.inner? tag = some inner) :
    inner.isRoot = false := by
  cases depth with
  | root kind =>
    obtain ⟨-, hentry⟩ := Option.ite_none_right_eq_some.1 h
    obtain rfl := Option.some.inj hentry
    rfl
  | entry kind =>
    obtain ⟨name, -, rfl⟩ := Option.map_eq_some_iff.1 h
    rfl
  | part name => cases h

theorem below?_congr {n m : Xml.Node} (depth : Depth) (h : n.tag? = m.tag?) :
    depth.below? n = depth.below? m := by
  rw [below?, below?, h]

theorem isRoot_of_below? {depth inner : Depth} {n : Xml.Node} (h : depth.below? n = some inner) :
    inner.isRoot = false := by
  obtain ⟨tag, -, hinner⟩ := Option.bind_eq_some_iff.1 h
  exact isRoot_of_inner? hinner

end Depth

namespace Xml

namespace Node

/-! ## Pruning -/

mutual

/-- A node without anything that is not looked at. -/
def prune (depth : Depth) : Node → Node
  | .element name attributes children =>
    .element ⟨none, if depth.isRoot then "" else name.base⟩ (attributes.filter depth.reads)
      (pruneAll depth children)
  | n => n

/-- The nodes inside an element that are looked at, pruned. -/
def pruneAll (depth : Depth) : List Node → List Node
  | [] => []
  | n :: rest =>
    match depth.below? n with
    | some inner => prune inner n :: pruneAll depth rest
    | none => pruneAll depth rest

end

theorem pruneAll_eq (depth : Depth) (nodes : List Node) :
    pruneAll depth nodes =
      nodes.filterMap fun n => (depth.below? n).map fun inner => n.prune inner := by
  induction nodes with
  | nil => rfl
  | cons n rest ih => cases h : depth.below? n <;> simp [pruneAll, h, ih]

/-- Pruning keeps the tag of an element. -/
theorem tag?_prune {depth : Depth} (h : depth.isRoot = false) (n : Node) :
    (n.prune depth).tag? = n.tag? := by
  cases n <;> simp [prune, tag?, h]

/-- The attribute that is looked at stays. -/
theorem label?_prune {depth : Depth} {name : String} (h : depth.attribute? = some name) (n : Node) :
    (n.prune depth).label? name = n.label? name := by
  cases n with
  | element tag attributes children =>
    have hreads : (fun a : Attribute => decide (a.name = ⟨none, name⟩)) = depth.reads := by
      funext a
      simp [Depth.reads, h]
    simp [prune, label?, attribute?, List.find?_filter, hreads]
  | text content => rfl
  | comment content => rfl
  | instruction target content => rfl

/-- The elements that are looked at stay, each of them pruned. -/
theorem elements_prune (depth : Depth) (n : Node) :
    (n.prune depth).elements =
      n.elements.filterMap fun e => (depth.inner? e.1).map fun inner => (e.1, e.2.prune inner) := by
  cases n with
  | element name attributes children =>
    simp only [elements, prune, Node.children, pruneAll_eq, List.filterMap_filterMap]
    refine List.filterMap_congr fun child _ => ?_
    cases htag : child.tag? with
    | none => simp [Depth.below?, htag]
    | some tag =>
      cases hinner : depth.inner? tag with
      | none => simp [Depth.below?, htag, hinner]
      | some inner =>
        simp [Depth.below?, htag, hinner, tag?_prune (Depth.isRoot_of_inner? hinner)]
  | text content => rfl
  | comment content => rfl
  | instruction target content => rfl

/-- The children with a tag that is read are kept, each pruned for its own depth. -/
theorem childrenNamed_prune {depth inner : Depth} {tag : String}
    (h : depth.inner? tag = some inner) (n : Node) :
    (n.prune depth).childrenNamed tag = (n.childrenNamed tag).map (prune inner) := by
  rw [childrenNamed_eq, childrenNamed_eq, elements_prune]
  induction n.elements with
  | nil => rfl
  | cons e rest ih =>
    by_cases htag : e.1 = tag
    · simp [htag, h, ih]
    · cases hinner : depth.inner? e.1 <;> simp [htag, hinner, ih]

end Node

/-! ## Edits -/

/-- One change of an element in a spot that is not looked at. What is added can be taken out again
by the same edit the other way round. -/
inductive Edit : Depth → Node → Node → Prop where
  /-- Another namespace, and for the root any other name. -/
  | rename {depth : Depth} {name other : ExpandedName} {attributes : List Attribute}
      {children : List Node} (h : depth.isRoot = true ∨ name.base = other.base) :
      Edit depth (.element name attributes children) (.element other attributes children)
  /-- A further attribute, if it is not the one that is read. -/
  | label {depth : Depth} {name : ExpandedName} {before after : List Attribute}
      {children : List Node} (a : Attribute) (h : depth.reads a = false) :
      Edit depth (.element name (before ++ after) children)
        (.element name (before ++ a :: after) children)
  /-- A further node inside : no element, or an element that is passed over. -/
  | node {depth : Depth} {name : ExpandedName} {attributes : List Attribute}
      {before after : List Node} (n : Node) (h : depth.below? n = none) :
      Edit depth (.element name attributes (before ++ after))
        (.element name attributes (before ++ n :: after))
  /-- An edit of an element inside. -/
  | inside {depth inner : Depth} {name : ExpandedName} {attributes : List Attribute}
      {before after : List Node} {n m : Node} (hinner : depth.below? n = some inner)
      (h : Edit inner n m) :
      Edit depth (.element name attributes (before ++ n :: after))
        (.element name attributes (before ++ m :: after))

theorem Edit.tag?_eq {depth : Depth} {n m : Node} (h : Edit depth n m)
    (hroot : depth.isRoot = false) : n.tag? = m.tag? := by
  cases h with
  | rename h => simpa [Node.tag?, hroot] using h
  | label a h => rfl
  | node n h => rfl
  | inside hinner h => rfl

/-- An edit changes nothing that pruning leaves. -/
theorem Edit.prune_eq {depth : Depth} {n m : Node} (h : Edit depth n m) :
    n.prune depth = m.prune depth := by
  induction h with
  | rename h =>
    rcases h with hroot | hbase
    · simp [Node.prune, hroot]
    · simp [Node.prune, hbase]
  | label a h => simp [Node.prune, h]
  | node n h => simp [Node.prune, Node.pruneAll_eq, h]
  | @inside depth inner name attributes before after n m hinner h ih =>
    have hsame := Depth.below?_congr depth (h.tag?_eq (Depth.isRoot_of_below? hinner))
    rw [hinner] at hsame
    simp [Node.prune, Node.pruneAll_eq, hinner, ← hsame, ih]

/-- Edits in any number, back and forth. -/
abbrev Edits (depth : Depth) : Node → Node → Prop := Relation.EqvGen (Edit depth)

/-- Edits outside what is read leave the same pruned tree. -/
theorem Edits.prune_eq {depth : Depth} {n m : Node} (h : Edits depth n m) :
    n.prune depth = m.prune depth := by
  induction h with
  | rel n m h => exact h.prune_eq
  | refl n => rfl
  | symm n m _ ih => exact ih.symm
  | trans n m k _ _ ih ih' => exact ih.trans ih'

theorem Edits.tag?_eq {depth : Depth} {n m : Node} (h : Edits depth n m)
    (hroot : depth.isRoot = false) : n.tag? = m.tag? := by
  induction h with
  | rel n m h => exact h.tag?_eq hroot
  | refl n => rfl
  | symm n m _ ih => exact ih.symm
  | trans n m k _ _ ih ih' => exact ih.trans ih'

theorem Edits.below?_eq {depth inner : Depth} {n m : Node} (h : Edits inner n m)
    (hroot : inner.isRoot = false) : depth.below? n = depth.below? m :=
  Depth.below?_congr depth (h.tag?_eq hroot)

/-- Edits of an element inside are edits of the whole. -/
theorem Edits.inside {depth inner : Depth} {name : ExpandedName} {attributes : List Attribute}
    {before after : List Node} {n m : Node} (h : Edits inner n m)
    (hinner : depth.below? n = some inner) :
    Edits depth (.element name attributes (before ++ n :: after))
      (.element name attributes (before ++ m :: after)) := by
  have hroot := Depth.isRoot_of_below? hinner
  induction h with
  | rel n m h => exact .rel _ _ (.inside hinner h)
  | refl n => exact .refl _
  | symm n m h ih => exact (ih ((Edits.below?_eq h hroot).trans hinner)).symm _ _
  | trans n m k h _ ih ih' =>
    exact (ih hinner).trans _ _ _ (ih' ((Edits.below?_eq h hroot).symm.trans hinner))

/-- Attributes that are not read can be dropped one by one. -/
theorem edits_filter_reads (depth : Depth) (name : ExpandedName) (children : List Node)
    (before attributes : List Attribute) :
    Edits depth (.element name (before ++ attributes) children)
      (.element name (before ++ attributes.filter depth.reads) children) := by
  induction attributes generalizing before with
  | nil => exact .refl _
  | cons a rest ih =>
    cases hreads : depth.reads a with
    | true => simpa [hreads] using ih (before ++ [a])
    | false =>
      have hadded : Edits depth (.element name (before ++ rest) children)
          (.element name (before ++ a :: rest) children) := .rel _ _ (.label a hreads)
      simpa [hreads] using (hadded.symm _ _).trans _ _ _ (ih before)

mutual

/-- What is not looked at can be taken out by edits. -/
theorem edits_prune : ∀ (depth : Depth) (n : Node), Edits depth n (n.prune depth)
  | depth, .element name attributes children => by
    have hname : Edits depth (.element name attributes children)
        (.element ⟨none, if depth.isRoot then "" else name.base⟩ attributes children) := by
      refine .rel _ _ (.rename ?_)
      cases depth.isRoot <;> simp
    exact (hname.trans _ _ _ (edits_filter_reads depth _ children [] attributes)).trans _ _ _
      (edits_pruneAll depth _ _ [] children)
  | _, .text _ => .refl _
  | _, .comment _ => .refl _
  | _, .instruction _ _ => .refl _

theorem edits_pruneAll : ∀ (depth : Depth) (name : ExpandedName) (attributes : List Attribute)
    (before children : List Node), Edits depth (.element name attributes (before ++ children))
      (.element name attributes (before ++ Node.pruneAll depth children))
  | _, _, _, _, [] => .refl _
  | depth, name, attributes, before, n :: rest => by
    cases hinner : depth.below? n with
    | none =>
      have hadded : Edits depth (.element name attributes (before ++ rest))
          (.element name attributes (before ++ n :: rest)) := .rel _ _ (.node n hinner)
      simpa [Node.pruneAll, hinner] using
        (hadded.symm _ _).trans _ _ _ (edits_pruneAll depth name attributes before rest)
    | some inner =>
      have hpruned : Edits depth (.element name attributes (before ++ n :: rest))
          (.element name attributes (before ++ n.prune inner :: rest)) :=
        (edits_prune inner n).inside hinner
      have hrest := edits_pruneAll depth name attributes (before ++ [n.prune inner]) rest
      simpa [Node.pruneAll, hinner] using hpruned.trans _ _ _ (by simpa using hrest)

end

/-- Two trees come from each other by edits exactly if pruning leaves the same of both. -/
theorem edits_iff_prune_eq {depth : Depth} {n m : Node} :
    Edits depth n m ↔ n.prune depth = m.prune depth := by
  constructor
  · exact Edits.prune_eq
  · intro h
    have hm := (edits_prune depth m).symm _ _
    rw [← h] at hm
    exact (edits_prune depth n).trans _ _ _ hm

end Xml

/-! ## Reading what is left -/

/-- The status code of an error is found in what is kept. -/
theorem ErrorStatus.ofElement_prune (n : Xml.Node) :
    ofElement (n.prune (.entry .errors)) = ofElement n := by
  have hinner : Depth.inner? (.entry .errors) "httpresponsecode" = some (.part "value") := rfl
  rw [ofElement, ofElement, Xml.Node.childrenNamed_prune hinner, List.getLast?_map,
    Option.bind_map]
  congr 2
  funext code
  exact Xml.Node.label?_prune rfl code

theorem Operation.ofElement_prune (file : String) (n : Xml.Node) :
    ofElement file (n.prune (.entry .operations)) = ofElement file n := by
  rw [ofElement, ofElement, Xml.Node.elements_prune, List.foldl_filterMap]
  congr 1
  funext op child
  obtain ⟨tag, element⟩ := child
  have hlabel : (element.prune (.part "target")).label? "target" = element.label? "target" :=
    Xml.Node.label?_prune rfl element
  by_cases htag : isPart tag = true
  · have hpart : Depth.partAttribute? .operations tag = some "target" := if_pos htag
    simp only [Depth.inner?, hpart, Option.map_some, addChild, hlabel]
  · have hpart : Depth.partAttribute? .operations tag = none := if_neg htag
    simp only [Depth.inner?, hpart, Option.map_none, addChild, if_neg htag]

theorem Service.ofElement_prune (file : String) (known : Table Operation) (service : String)
    (n : Xml.Node) :
    ofElement file known service (n.prune (.entry .services)) = ofElement file known service n := by
  rw [ofElement, ofElement, Xml.Node.elements_prune, List.foldl_filterMap]
  congr 1
  funext state child
  have hlabel : (child.2.prune (.part "target")).label? "target" = child.2.label? "target" :=
    Xml.Node.label?_prune rfl child.2
  simp only [Depth.inner?, Depth.partAttribute?, Option.map_some, addChild, hlabel]

/-- An entry is read alike from an element and from what pruning leaves of it. -/
theorem Entry.ofElement_prune {α : Type} {kind : Kind} {file : String}
    {read : String → Xml.Node → α × List Finding}
    (hread : ∀ name n, read name (n.prune (.entry kind)) = read name n) (n : Xml.Node) :
    ofElement kind file read (n.prune (.entry kind)) = ofElement kind file read n := by
  have hnaming : (Depth.entry kind).attribute? = some kind.naming := rfl
  rw [ofElement, ofElement, Xml.Node.label?_prune hnaming]
  simp only [hread]

/-- The entries of a descriptor are read alike from its root and from what pruning leaves of it. -/
theorem Entry.ofRoot_prune {α : Type} {kind : Kind} {file : String}
    {read : String → Xml.Node → α × List Finding}
    (hread : ∀ name n, read name (n.prune (.entry kind)) = read name n) (root : Xml.Node) :
    ofRoot kind file read (root.prune (.root kind)) = ofRoot kind file read root := by
  have htag : (Depth.root kind).inner? kind.tag = some (.entry kind) := if_pos rfl
  rw [ofRoot, ofRoot, Xml.Node.childrenNamed_prune htag, List.map_map]
  exact List.map_congr_left fun n _ => Entry.ofElement_prune hread n

/-- A registry takes in what pruning leaves of a descriptor as it takes in the whole. -/
theorem Registry.ingestRoot_prune (r : Registry) (kind : Kind) (file : String) (root : Xml.Node) :
    r.ingestRoot kind file (root.prune (.root kind)) = r.ingestRoot kind file root := by
  cases kind with
  | errors =>
    have hentries : ErrorStatus.entries file (root.prune (.root .errors)) =
        ErrorStatus.entries file root :=
      Entry.ofRoot_prune (fun _ n => by rw [ErrorStatus.ofElement_prune]) root
    rw [ingestRoot, ingestRoot, hentries]
  | operations =>
    have hentries : Operation.entries file (root.prune (.root .operations)) =
        Operation.entries file root :=
      Entry.ofRoot_prune (fun _ n => Operation.ofElement_prune file n) root
    rw [ingestRoot, ingestRoot, hentries, Xml.Node.label?_prune rfl]
  | services =>
    have hentries : Service.entries file r.operations (root.prune (.root .services)) =
        Service.entries file r.operations root :=
      Entry.ofRoot_prune (fun name n => Service.ofElement_prune file r.operations name n) root
    rw [ingestRoot, ingestRoot, hentries, Xml.Node.label?_prune rfl]

/-! ## Edits have no effect -/

/-- Edits of what is not looked at have no effect : a registry takes in both trees alike, and so it
does any texts that hold them. -/
theorem Registry.ingest_of_edits (r : Registry) (kind : Kind) (file : String)
    {root edited : Xml.Node} (h : Xml.Edits (.root kind) root edited) :
    r.ingestRoot kind file edited = r.ingestRoot kind file root ∧
      ∀ before after, Xml.read? before = some root → Xml.read? after = some edited →
        ∃ outcome, r.ingest ⟨kind, file, before⟩ = .ok outcome ∧
          r.ingest ⟨kind, file, after⟩ = .ok outcome := by
  have hroot : r.ingestRoot kind file edited = r.ingestRoot kind file root := by
    rw [← ingestRoot_prune r kind file edited, ← h.prune_eq, ingestRoot_prune]
  refine ⟨hroot, fun before after hbefore hafter => ⟨r.ingestRoot kind file root, ?_, ?_⟩⟩
  · simp only [ingest, hbefore]
  · simp only [ingest, hafter, hroot]

/-- An operation descriptor with nothing but what is looked at. -/
def bareText : String :=
  "<o assembly='a'><operation name='X'><input target='I'/></operation></o>"

/-- The same under other names, with further attributes, elements, text and remarks. -/
def adornedText : String :=
  "<q xmlns:p='u' p:assembly='b' assembly='a'>t<!--c--><p:operation p:name='Y' name='X'>" ++
    "<note/><p:input target='I'>i<error target='E'/></p:input><?k l?></p:operation></q>"

/-- The tree of the bare text. -/
def bareRoot : Xml.Node :=
  .element ⟨none, "o"⟩ [⟨⟨none, "assembly"⟩, "a"⟩]
    [.element ⟨none, "operation"⟩ [⟨⟨none, "name"⟩, "X"⟩]
      [.element ⟨none, "input"⟩ [⟨⟨none, "target"⟩, "I"⟩] []]]

/-- The tree of the adorned text. -/
def adornedRoot : Xml.Node :=
  .element ⟨none, "q"⟩ [⟨⟨some "u", "assembly"⟩, "b"⟩, ⟨⟨none, "assembly"⟩, "a"⟩]
    [.text "t", .comment "c",
      .element ⟨some "u", "operation"⟩ [⟨⟨some "u", "name"⟩, "Y"⟩, ⟨⟨none, "name"⟩, "X"⟩]
        [.element ⟨none, "note"⟩ [] [],
          .element ⟨some "u", "input"⟩ [⟨⟨none, "target"⟩, "I"⟩]
            [.text "i", .element ⟨none, "error"⟩ [⟨⟨none, "target"⟩, "E"⟩] []],
          .instruction "k" "l"]]

/-- Nothing of the adornment has an effect. -/
theorem ingest_of_edits_adorned :
    Xml.Edits (.root .operations) bareRoot adornedRoot ∧
      Xml.read? bareText = some bareRoot ∧ Xml.read? adornedText = some adornedRoot ∧
      ∃ outcome, Registry.empty.ingest ⟨.operations, "a.xml", bareText⟩ = .ok outcome ∧
        Registry.empty.ingest ⟨.operations, "a.xml", adornedText⟩ = .ok outcome := by
  have hedits : Xml.Edits (.root .operations) bareRoot adornedRoot :=
    Xml.edits_iff_prune_eq.2 (by rfl)
  have hbare : Xml.read? bareText = some bareRoot := by decide +kernel
  have hadorned : Xml.read? adornedText = some adornedRoot := by decide +kernel
  have heffect := Registry.ingest_of_edits Registry.empty .operations "a.xml" hedits
  exact ⟨hedits, hbare, hadorned, heffect.2 bareText adornedText hbare hadorned⟩

end ServiceContract
