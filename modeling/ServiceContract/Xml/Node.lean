import ServiceContract.Xml.Name
/-!
# XML trees

A `Node` is an element with its attributes and children, or a piece of content between
elements : text, a comment, a processing instruction. The descriptors of this library are
read through three questions only : the elements among the children of a node, the local
name of an element, and the value of an attribute without a prefix.
-/

namespace ServiceContract.Xml

/-- An attribute of an element. -/
structure Attribute where
  /-- The name. -/
  name : ExpandedName
  /-- The value. -/
  value : String
deriving DecidableEq, Repr, Inhabited

/-- A node of a document. -/
inductive Node where
  /-- An element. -/
  | element (name : ExpandedName) (attributes : List Attribute) (children : List Node)
  /-- A run of text. -/
  | text (content : String)
  /-- A comment. -/
  | comment (content : String)
  /-- A processing instruction. -/
  | instruction (target content : String)
deriving Inhabited, Repr

namespace Node

mutual

/-- Whether two nodes are the same. -/
def beq : Node → Node → Bool
  | .element name attributes children, .element name' attributes' children' =>
    name == name' && attributes == attributes' && beqAll children children'
  | .text c, .text d => c == d
  | .comment c, .comment d => c == d
  | .instruction t c, .instruction u d => t == u && c == d
  | _, _ => false

/-- Whether two lists of nodes are the same. -/
def beqAll : List Node → List Node → Bool
  | [], [] => true
  | n :: ns, m :: ms => beq n m && beqAll ns ms
  | _, _ => false

end

instance : BEq Node := ⟨beq⟩

mutual

/-- Nodes that are compared as equal are equal. -/
theorem eq_of_beq : ∀ {n m : Node}, beq n m = true → n = m
  | .element _ _ children, m, h => by
    cases m with
    | element name attributes others =>
      simp only [beq, Bool.and_eq_true, beq_iff_eq] at h
      rw [h.1.1, h.1.2, eq_of_beqAll h.2]
    | _ => simp [beq] at h
  | .text _, m, h => by cases m <;> simp_all [beq]
  | .comment _, m, h => by cases m <;> simp_all [beq]
  | .instruction _ _, m, h => by cases m <;> simp_all [beq]

theorem eq_of_beqAll : ∀ {ns ms : List Node}, beqAll ns ms = true → ns = ms
  | [], ms, h => by cases ms <;> simp_all [beqAll]
  | n :: ns, [], h => by simp [beqAll] at h
  | n :: ns, m :: ms, h => by
    rw [beqAll, Bool.and_eq_true] at h
    rw [eq_of_beq h.1, eq_of_beqAll h.2]

end

mutual

theorem beq_self : ∀ n : Node, beq n n = true
  | .element _ _ children => by simp [beq, beqAll_self children]
  | .text _ | .comment _ | .instruction _ _ => by simp [beq]

theorem beqAll_self : ∀ ns : List Node, beqAll ns ns = true
  | [] => rfl
  | n :: ns => by rw [beqAll, beq_self n, beqAll_self ns]; rfl

end

instance : LawfulBEq Node where
  eq_of_beq := eq_of_beq
  rfl := beq_self _

instance : DecidableEq Node := instDecidableEqOfLawfulBEq

/-! ## What is asked of a node -/

/-- The local name of an element. -/
def tag? : Node → Option String
  | element name _ _ => some name.base
  | _ => none

/-- Whether a node is an element. -/
def isElement (n : Node) : Bool := n.tag?.isSome

/-- The nodes directly inside an element. -/
def children : Node → List Node
  | element _ _ children => children
  | _ => []

/-- The elements directly inside an element, with their local names. -/
def elements (n : Node) : List (String × Node) :=
  n.children.filterMap fun child => child.tag?.map fun tag => (tag, child)

/-- The elements with a given local name directly inside an element. -/
def childrenNamed (n : Node) (tag : String) : List Node :=
  n.children.filter fun child => child.tag? == some tag

/-- The value of the attribute with a given name and no prefix. -/
def attribute? (n : Node) (name : String) : Option String :=
  match n with
  | element _ attributes _ => (attributes.find? fun a => a.name = ⟨none, name⟩).map (·.value)
  | _ => none

/-- The value of an attribute, where an empty value counts as none. -/
def label? (n : Node) (name : String) : Option String := (n.attribute? name).filter (· ≠ "")

end Node

end ServiceContract.Xml
