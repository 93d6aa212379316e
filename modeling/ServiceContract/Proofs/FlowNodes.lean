import ServiceContract.Proofs.FlowTokens
import ServiceContract.Yaml.Node
/-!
# Values of JSON as nodes of YAML

The tokens of a written value of JSON give a node with the same shape (`Written.node`), if each of
its names is announced as a key (`node?_written`). A name that is not is taken for a scalar, and
the colon behind it ends the reading. So the document that YAML reads of a text of JSON is known
from how the text is written (`read?_written`).
-/

namespace ServiceContract

/-! ## The nodes of written values -/

namespace Json

open Yaml (Node)

mutual

/-- The node of a value. -/
def Written.node : Written → Node
  | .literal cs _ => .scalar none .plain (String.ofList cs)
  | .string pieces => .scalar none .quoted (textOf pieces)
  | .emptyArray _ => .sequence none []
  | .array items => .sequence none items.nodes
  | .emptyObject _ => .mapping none []
  | .object members => .mapping none members.entries

/-- The nodes of items. -/
def WrittenItems.nodes : WrittenItems → List Node
  | .last _ v _ => [v.node]
  | .next _ v _ rest => v.node :: rest.nodes

/-- The entries of members. -/
def WrittenMembers.entries : WrittenMembers → List (Node × Node)
  | .last label _ v _ => [(.scalar none .quoted (textOf label.name), v.node)]
  | .next label _ v _ rest => (.scalar none .quoted (textOf label.name), v.node) :: rest.entries

end

mutual

/-- Whether all names in a value are near enough to their colons to be keys. -/
def Written.isKeyed : Written → Bool
  | .array items => items.isKeyed
  | .object members => members.isKeyed
  | _ => true

/-- The same for items. -/
def WrittenItems.isKeyed : WrittenItems → Bool
  | .last _ v _ => v.isKeyed
  | .next _ v _ rest => v.isKeyed && rest.isKeyed

/-- The same for members. -/
def WrittenMembers.isKeyed : WrittenMembers → Bool
  | .last label _ v _ => label.isNear && v.isKeyed
  | .next label _ v _ rest => label.isNear && (v.isKeyed && rest.isKeyed)

end

end Json

namespace Yaml

open Json (Label Written WrittenItems WrittenMembers WrittenText textOf)

/-! ## Single steps -/

/-- Whether a value of JSON may begin with a token. -/
def BeginsValue (t : Token) : Prop :=
  (∃ style text, t = .scalar style text) ∨ t = .flowSequence ∨ t = .flowMapping

theorem exists_tokens_cons (w : Written) : ∃ t ts, w.tokens = t :: ts ∧ BeginsValue t := by
  cases w with
  | literal => exact ⟨_, _, rfl, .inl ⟨_, _, rfl⟩⟩
  | string => exact ⟨_, _, rfl, .inl ⟨_, _, rfl⟩⟩
  | emptyArray => exact ⟨_, _, rfl, .inr (.inl rfl)⟩
  | array => exact ⟨_, _, rfl, .inr (.inl rfl)⟩
  | emptyObject => exact ⟨_, _, rfl, .inr (.inr rfl)⟩
  | object => exact ⟨_, _, rfl, .inr (.inr rfl)⟩

/-- No value is written without a token. -/
theorem length_tokens_pos (w : Written) : 0 < w.tokens.length := by
  obtain ⟨t, ts, htokens, -⟩ := exists_tokens_cons w
  simp [htokens]

theorem exists_items_cons (items : WrittenItems) :
    ∃ t ts, items.tokens = t :: ts ∧ BeginsValue t := by
  cases items with
  | last _ v _ => exact exists_tokens_cons v
  | next _ v _ rest =>
    obtain ⟨t, ts, htokens, ht⟩ := exists_tokens_cons v
    exact ⟨t, ts ++ .comma :: rest.tokens, by simp [WrittenItems.tokens, htokens], ht⟩

/-- A name begins with the token before a key, or with itself if the colon is far behind. -/
theorem exists_label_cons (l : Label) :
    ∃ t ts, l.tokens = t :: ts ∧ (t = .key ∨ BeginsValue t) := by
  rw [Label.tokens]
  cases l.isNear with
  | false => exact ⟨_, _, rfl, .inr (.inl ⟨_, _, rfl⟩)⟩
  | true => exact ⟨_, _, rfl, .inl rfl⟩

theorem exists_members_cons (members : WrittenMembers) :
    ∃ t ts, members.tokens = t :: ts ∧ (t = .key ∨ BeginsValue t) := by
  cases members with
  | last l _ v _ =>
    obtain ⟨t, ts, htokens, ht⟩ := exists_label_cons l
    exact ⟨t, ts ++ v.tokens, by simp [WrittenMembers.tokens, htokens], ht⟩
  | next l _ v _ rest =>
    obtain ⟨t, ts, htokens, ht⟩ := exists_label_cons l
    exact ⟨t, ts ++ (v.tokens ++ .comma :: rest.tokens), by
      simp [WrittenMembers.tokens, htokens], ht⟩

theorem two_le_length_tokens (l : Label) : 2 ≤ l.tokens.length := by
  simp [Label.tokens]

variable {handles : Handles} {fuel : Nat} {a : Anchors}

theorem node?_scalar (position : Position) (style : Style) (text : String) (rest : List Token) :
    node? handles position (fuel + 2) (.scalar style text :: rest) a =
      some (.scalar none style text, rest, a) := by
  simp [node?, properties, resolveTag?, body?]

/-- A bracket begins a sequence of items. -/
theorem node?_flowSequence (position : Position) (rest : List Token) :
    node? handles position (fuel + 2) (.flowSequence :: rest) a =
      (flowItems? handles true fuel rest a).map fun (items, rest, a) =>
        (.sequence none items, rest, a) := by
  simp only [node?, properties, resolveTag?, body?, Option.map_eq_bind]
  rfl

/-- A brace begins a mapping of entries. -/
theorem node?_flowMapping (position : Position) (rest : List Token) :
    node? handles position (fuel + 2) (.flowMapping :: rest) a =
      (flowEntries? handles true fuel rest a).map fun (entries, rest, a) =>
        (.mapping none entries, rest, a) := by
  simp only [node?, properties, resolveTag?, body?, Option.map_eq_bind]
  rfl

theorem flowItems?_end (first : Bool) (rest : List Token) :
    flowItems? handles first (fuel + 1) (.flowSequenceEnd :: rest) a = some ([], rest, a) := by
  simp [flowItems?]

/-- An item is a node, and further items stand behind it. -/
theorem flowItems?_item (v : Written) (rest : List Token) :
    flowItems? handles true (fuel + 1) (v.tokens ++ rest) a =
      (node? handles .flow fuel (v.tokens ++ rest) a).bind fun (v, rest, a) =>
        (flowItems? handles false fuel rest a).map fun (vs, rest, a) => (v :: vs, rest, a) := by
  obtain ⟨t, ts, htokens, ht⟩ := exists_tokens_cons v
  simp only [htokens, List.cons_append, Option.map_eq_bind, Function.comp_def]
  obtain ⟨style, text, rfl⟩ | rfl | rfl := ht <;> simp [flowItems?]

/-- Behind a comma the items go on as at the beginning. -/
theorem flowItems?_comma (items : WrittenItems) (rest : List Token) :
    flowItems? handles false (fuel + 1) (.comma :: (items.tokens ++ rest)) a =
      flowItems? handles true (fuel + 1) (items.tokens ++ rest) a := by
  obtain ⟨t, ts, htokens, ht⟩ := exists_items_cons items
  rw [htokens, List.cons_append]
  obtain ⟨style, text, rfl⟩ | rfl | rfl := ht <;> simp [flowItems?]

theorem flowEntries?_end (first : Bool) (rest : List Token) :
    flowEntries? handles first (fuel + 1) (.flowMappingEnd :: rest) a = some ([], rest, a) := by
  simp [flowEntries?]

theorem flowEntries?_comma (members : WrittenMembers) (rest : List Token) :
    flowEntries? handles false (fuel + 1) (.comma :: (members.tokens ++ rest)) a =
      flowEntries? handles true (fuel + 1) (members.tokens ++ rest) a := by
  obtain ⟨t, ts, htokens, ht⟩ := exists_members_cons members
  rw [htokens, List.cons_append]
  obtain rfl | ⟨style, text, rfl⟩ | rfl | rfl := ht <;> simp [flowEntries?]

/-- A name that is announced as a key is that of the value behind its colon. -/
theorem flowEntries?_near {l : Label} (hnear : l.isNear = true) (v : Written)
    (rest : List Token) :
    flowEntries? handles true (fuel + 3) (l.tokens ++ (v.tokens ++ rest)) a =
      (node? handles .flow (fuel + 2) (v.tokens ++ rest) a).bind fun (v, rest, a) =>
        (flowEntries? handles false (fuel + 2) rest a).map fun (es, rest, a) =>
          ((.scalar none .quoted (textOf l.name), v) :: es, rest, a) := by
  obtain ⟨t, ts, htokens, ht⟩ := exists_tokens_cons v
  simp only [Label.tokens, hnear, if_true, htokens, List.cons_append, List.nil_append,
    Option.map_eq_bind, Function.comp_def]
  obtain ⟨style, text, rfl⟩ | rfl | rfl := ht <;>
    simp [flowEntries?, endsMember, node?_scalar]

/-- A name that is not announced as a key ends the reading at its colon. -/
theorem flowEntries?_far {l : Label} (hfar : l.isNear = false) (rest : List Token) :
    flowEntries? handles true (fuel + 3) (l.tokens ++ rest) a = none := by
  simp [Label.tokens, hfar, flowEntries?, node?_scalar]

/-! ## From tokens to nodes -/

mutual

/-- The tokens of a value give its node, if all names in it are near. -/
theorem node?_written (w : Written) (position : Position) {fuel : Nat}
    (hfuel : 2 * w.tokens.length ≤ fuel) (rest : List Token) :
    node? handles position fuel (w.tokens ++ rest) a =
      if w.isKeyed then some (w.node, rest, a) else none := by
  cases w with
  | literal cs _ =>
    obtain ⟨fuel, rfl⟩ : ∃ k, fuel = k + 2 := ⟨fuel - 2, by simp [Written.tokens] at hfuel; omega⟩
    exact node?_scalar ..
  | string pieces =>
    obtain ⟨fuel, rfl⟩ : ∃ k, fuel = k + 2 := ⟨fuel - 2, by simp [Written.tokens] at hfuel; omega⟩
    exact node?_scalar ..
  | emptyArray _ =>
    obtain ⟨fuel, rfl⟩ : ∃ k, fuel = k + 3 := ⟨fuel - 3, by simp [Written.tokens] at hfuel; omega⟩
    simp [Written.tokens, node?_flowSequence, flowItems?_end, Written.isKeyed, Written.node]
  | array items =>
    simp only [Written.tokens, List.length_cons, List.length_append, List.length_nil] at hfuel
    obtain ⟨fuel, rfl⟩ : ∃ k, fuel = k + 2 := ⟨fuel - 2, by omega⟩
    have hitems := flowItems?_written items (show 2 * items.tokens.length < fuel by omega) rest
    simp only [Written.tokens, List.cons_append, List.append_assoc, List.nil_append,
      node?_flowSequence, hitems, Written.isKeyed, Written.node]
    by_cases hkeyed : items.isKeyed = true <;> simp [hkeyed]
  | emptyObject _ =>
    obtain ⟨fuel, rfl⟩ : ∃ k, fuel = k + 3 := ⟨fuel - 3, by simp [Written.tokens] at hfuel; omega⟩
    simp [Written.tokens, node?_flowMapping, flowEntries?_end, Written.isKeyed, Written.node]
  | object members =>
    simp only [Written.tokens, List.length_cons, List.length_append, List.length_nil] at hfuel
    obtain ⟨fuel, rfl⟩ : ∃ k, fuel = k + 2 := ⟨fuel - 2, by omega⟩
    have hmembers :=
      flowEntries?_written members (show 2 * members.tokens.length < fuel by omega) rest
    simp only [Written.tokens, List.cons_append, List.append_assoc, List.nil_append,
      node?_flowMapping, hmembers, Written.isKeyed, Written.node]
    by_cases hkeyed : members.isKeyed = true <;> simp [hkeyed]

/-- The tokens of items give their nodes, if all names in them are near. -/
theorem flowItems?_written (items : WrittenItems) {fuel : Nat}
    (hfuel : 2 * items.tokens.length < fuel) (rest : List Token) :
    flowItems? handles true fuel (items.tokens ++ .flowSequenceEnd :: rest) a =
      if items.isKeyed then some (items.nodes, rest, a) else none := by
  cases items with
  | last _ v _ =>
    have hlong := length_tokens_pos v
    simp only [WrittenItems.tokens] at hfuel ⊢
    obtain ⟨fuel, rfl⟩ : ∃ k, fuel = k + 2 := ⟨fuel - 2, by omega⟩
    have hv := node?_written v .flow (show 2 * v.tokens.length ≤ fuel + 1 by omega)
      (.flowSequenceEnd :: rest)
    rw [flowItems?_item, hv]
    by_cases hkeyed : v.isKeyed = true <;>
      simp [flowItems?_end, WrittenItems.isKeyed, WrittenItems.nodes, hkeyed]
  | next _ v _ others =>
    have hlong := length_tokens_pos v
    simp only [WrittenItems.tokens, List.length_append, List.length_cons, List.append_assoc,
      List.cons_append] at hfuel ⊢
    obtain ⟨fuel, rfl⟩ : ∃ k, fuel = k + 2 := ⟨fuel - 2, by omega⟩
    have hv := node?_written v .flow (show 2 * v.tokens.length ≤ fuel + 1 by omega)
      (.comma :: (others.tokens ++ .flowSequenceEnd :: rest))
    have hothers :=
      flowItems?_written others (show 2 * others.tokens.length < fuel + 1 by omega) rest
    rw [flowItems?_item, hv]
    by_cases hkeyed : v.isKeyed = true
    · by_cases hkeyed' : others.isKeyed = true <;>
        simp [flowItems?_comma, hothers, WrittenItems.isKeyed, WrittenItems.nodes, hkeyed, hkeyed']
    · simp [WrittenItems.isKeyed, hkeyed]

/-- The tokens of members give their entries, if all names in them are near. -/
theorem flowEntries?_written (members : WrittenMembers) {fuel : Nat}
    (hfuel : 2 * members.tokens.length < fuel) (rest : List Token) :
    flowEntries? handles true fuel (members.tokens ++ .flowMappingEnd :: rest) a =
      if members.isKeyed then some (members.entries, rest, a) else none := by
  cases members with
  | last l _ v _ =>
    have hlabel := two_le_length_tokens l
    simp only [WrittenMembers.tokens, List.length_append, List.append_assoc] at hfuel ⊢
    obtain ⟨fuel, rfl⟩ : ∃ k, fuel = k + 3 := ⟨fuel - 3, by omega⟩
    have hv := node?_written v .flow (show 2 * v.tokens.length ≤ fuel + 2 by omega)
      (.flowMappingEnd :: rest)
    cases hnear : l.isNear with
    | false => simp [flowEntries?_far hnear, WrittenMembers.isKeyed, hnear]
    | true =>
      rw [flowEntries?_near hnear, hv]
      by_cases hkeyed : v.isKeyed = true <;>
        simp [flowEntries?_end, WrittenMembers.isKeyed, WrittenMembers.entries, hnear, hkeyed]
  | next l _ v _ others =>
    have hlabel := two_le_length_tokens l
    simp only [WrittenMembers.tokens, List.length_append, List.length_cons, List.append_assoc,
      List.cons_append] at hfuel ⊢
    obtain ⟨fuel, rfl⟩ : ∃ k, fuel = k + 3 := ⟨fuel - 3, by omega⟩
    have hv := node?_written v .flow (show 2 * v.tokens.length ≤ fuel + 2 by omega)
      (.comma :: (others.tokens ++ .flowMappingEnd :: rest))
    have hothers :=
      flowEntries?_written others (show 2 * others.tokens.length < fuel + 2 by omega) rest
    cases hnear : l.isNear with
    | false => simp [flowEntries?_far hnear, WrittenMembers.isKeyed, hnear]
    | true =>
      rw [flowEntries?_near hnear, hv]
      by_cases hkeyed : v.isKeyed = true
      · by_cases hkeyed' : others.isKeyed = true <;>
          simp [flowEntries?_comma, hothers, WrittenMembers.isKeyed, WrittenMembers.entries, hnear,
            hkeyed, hkeyed']
      · simp [WrittenMembers.isKeyed, hnear, hkeyed]

end

/-! ## Documents -/

/-- What is read of a text with an array or an object in it is its node, if all characters are
printable, no tab is where a line may begin a key, all strings are legible, and all names are near
to their colons. Otherwise the text is refused. -/
theorem read?_written (w : WrittenText) (hw : w.root.isCollection = true)
    (hplain : BreaksPlainly w.text) :
    Document.read? (String.ofList w.text) =
      if w.text.all isPrintable && (w.isUntabbed && w.root.isLegible) && w.root.isKeyed then
        some ⟨some w.root.node, Anchors.empty⟩
      else none := by
  rw [Document.read?, String.toList_ofList, tokens?_written w hw hplain]
  by_cases hread : (w.text.all isPrintable && (w.isUntabbed && w.root.isLegible)) = true
  · have hroot : node? standardHandles .block (4 * w.root.tokens.length + 4) (w.root.tokens ++ [])
        Anchors.empty = _ := node?_written w.root .block (by omega) []
    obtain ⟨t, ts, htokens, ht⟩ := exists_tokens_cons w.root
    rw [List.append_nil, htokens, List.length_cons] at hroot
    rw [if_pos hread, hread, Bool.true_and, htokens]
    obtain ⟨style, text, rfl⟩ | rfl | rfl := ht <;>
      by_cases hkeyed : w.root.isKeyed = true <;> simp [hroot, hkeyed]
  · simp [hread]

end Yaml

end ServiceContract
