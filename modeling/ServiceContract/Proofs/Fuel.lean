import ServiceContract.Proofs.WrittenJson
import ServiceContract.Xml.Document
import Mathlib.Data.List.TakeDrop
/-!
# The fuel of the readers

Where a reader of XML or JSON calls itself it spends a unit of fuel, and it is given more units than
the text has characters. Every call takes characters, or is behind one that does, so it is never the
fuel that ends the reading : with any two amounts that exceed the length of the text, or twice the
length for values of JSON, a reader gives the same result (`Xml.literalValue_eq_of_lt`,
`Xml.attributes?_eq_of_lt`, `Xml.pieces?_eq_of_lt`, `Xml.skipRemarks?_eq_of_lt`,
`Xml.subset?_eq_of_lt`, `Json.characters_eq_of_lt`, `Json.readValue_eq_of_lt`). A text that is
refused is malformed, and not too long.
-/

namespace ServiceContract

/-! ## Texts -/

namespace Text

theorem length_of_strip? {word cs rest : List Char} (h : strip? word cs = some rest) :
    cs.length = word.length + rest.length := by
  rw [strip?_eq_some_iff.1 h, List.length_append]

theorem length_skipBlanks_le (cs : List Char) : (skipBlanks cs).length ≤ cs.length :=
  List.length_dropWhile_le isBlank cs

/-- A mark stands between the text before it and the text behind it. -/
theorem append_of_upTo? {mark cs before rest : List Char}
    (h : upTo? mark cs = some (before, rest)) : cs = before ++ (mark ++ rest) := by
  induction cs generalizing before with
  | nil =>
    obtain ⟨left, hleft, heq⟩ := Option.map_eq_some_iff.1 h
    obtain ⟨rfl, rfl⟩ := Prod.mk.inj heq
    rw [List.nil_append, strip?_eq_some_iff.1 hleft]
  | cons c cs ih =>
    rw [upTo?] at h
    split at h
    · rename_i left hleft
      obtain ⟨rfl, rfl⟩ := Prod.mk.inj (Option.some.inj h)
      rw [List.nil_append, strip?_eq_some_iff.1 hleft]
    · obtain ⟨⟨others, left⟩, hleft, heq⟩ := Option.map_eq_some_iff.1 h
      obtain ⟨rfl, rfl⟩ := Prod.mk.inj heq
      rw [ih hleft, List.cons_append]

theorem length_of_upTo? {mark cs before rest : List Char}
    (h : upTo? mark cs = some (before, rest)) :
    cs.length = before.length + (mark.length + rest.length) := by
  rw [append_of_upTo? h, List.length_append, List.length_append]

end Text

namespace Xml

open Text

/-! ## Names and literals -/

theorem length_lt_of_blanks? {cs rest : List Char} (h : blanks? cs = some rest) :
    rest.length < cs.length := by
  cases cs with
  | nil => cases h
  | cons c cs =>
    rw [blanks?] at h
    split_ifs at h
    rw [← Option.some.inj h]
    exact Nat.lt_succ_of_le (length_skipBlanks_le cs)

theorem length_lt_of_name? {cs name rest : List Char} (h : name? cs = some (name, rest)) :
    rest.length < cs.length := by
  cases cs with
  | nil => cases h
  | cons c cs =>
    rw [name?] at h
    split_ifs at h
    rw [← (Prod.mk.inj (Option.some.inj h)).2]
    exact Nat.lt_succ_of_le (List.length_dropWhile_le isNamePart cs)

/-- A name takes its first character at least. -/
theorem length_lt_of_qname? {cs rest : List Char} {name : QName}
    (h : qname? cs = some (name, rest)) : rest.length < cs.length := by
  cases cs with
  | nil => cases h
  | cons c cs =>
    by_cases hc : isNamePart c = true
    · have hrest : rest = (c :: cs).dropWhile isNamePart := by
        unfold qname? at h
        dsimp only at h
        split_ifs at h
        exact (Prod.mk.inj (Option.some.inj h)).2.symm
      rw [hrest, List.dropWhile_cons_of_pos hc]
      exact Nat.lt_succ_of_le (List.length_dropWhile_le isNamePart cs)
    · -- no name begins here
      simp [qname?, List.takeWhile_cons_of_neg hc, splitColon] at h

/-- A literal takes its two quotes at least. -/
theorem length_lt_of_literal? {cs written rest : List Char}
    (h : literal? cs = some (written, rest)) : rest.length < cs.length := by
  obtain ⟨⟨mark, behind⟩, hquote, hread⟩ := Option.bind_eq_some_iff.1 h
  have hbehind : cs.length = behind.length + 1 := by
    cases cs with
    | nil => cases hquote
    | cons c cs =>
      rw [openingQuote?] at hquote
      split_ifs at hquote
      rw [(Prod.mk.inj (Option.some.inj hquote)).2, List.length_cons]
  have := length_of_upTo? hread
  omega

theorem length_lt_of_attributeLiteral? {cs written rest : List Char}
    (h : attributeLiteral? cs = some (written, rest)) : rest.length < cs.length := by
  obtain ⟨⟨written', rest'⟩, hliteral, hread⟩ := Option.bind_eq_some_iff.1 h
  dsimp only at hread
  split_ifs at hread
  rw [← (Prod.mk.inj (Option.some.inj hread)).2]
  exact length_lt_of_literal? hliteral

theorem length_lt_of_attribute? {cs written rest : List Char} {name : QName}
    (h : attribute? cs = some (name, written, rest)) : rest.length < cs.length := by
  simp only [attribute?, Option.bind_eq_bind, Option.bind_eq_some_iff, Prod.exists, Option.pure_def,
    Option.some.injEq, Prod.mk.injEq] at h
  obtain ⟨_, behind, hname, value, hequals, _, _, hvalue, -, -, rfl⟩ := h
  have := length_lt_of_qname? hname
  have := length_of_strip? hequals
  have := length_lt_of_attributeLiteral? hvalue
  have := length_skipBlanks_le behind
  have := length_skipBlanks_le value
  omega

/-! ## Comments and processing instructions -/

theorem length_lt_of_comment? {cs written rest : List Char}
    (h : comment? cs = some (written, rest)) : rest.length < cs.length := by
  simp only [comment?, Option.bind_eq_bind, Option.bind_eq_some_iff, Prod.exists] at h
  obtain ⟨_, behind, hmark, _, hend, h⟩ := h
  split_ifs at h
  obtain ⟨-, rfl⟩ := Prod.mk.inj (Option.some.inj h)
  have := length_of_upTo? hmark
  have := length_of_strip? hend
  simp only [List.length_cons] at *
  omega

/-- A processing instruction takes its target and its end. -/
theorem length_lt_of_instruction? {cs target written rest : List Char}
    (h : instruction? cs = some (target, written, rest)) : rest.length < cs.length := by
  simp only [instruction?, Option.bind_eq_bind, Option.bind_eq_some_iff, Prod.exists] at h
  obtain ⟨_, behind, hname, _, _, hmark, h⟩ := h
  split_ifs at h
  obtain ⟨-, -, rfl⟩ : _ ∧ _ ∧ _ := by simpa using h
  have := length_lt_of_name? hname
  have := length_skipBlanks_le behind
  have := length_of_upTo? hmark
  omega

/-- The text behind a comment or processing instruction is shorter than what it stands in. -/
theorem length_lt_of_remark? {cs rest : List Char} (h : remark? cs = some rest) :
    rest.length < cs.length := by
  unfold remark? at h
  split at h
  · rename_i behind hmark
    obtain ⟨⟨written, last⟩, hread, rfl⟩ := Option.map_eq_some_iff.1 h
    rw [length_of_strip? hmark]
    exact Nat.lt_add_left _ (length_lt_of_comment? hread)
  · obtain ⟨behind, hmark, h⟩ := Option.bind_eq_some_iff.1 h
    obtain ⟨⟨target, written, last⟩, hread, rfl⟩ := Option.map_eq_some_iff.1 h
    rw [length_of_strip? hmark]
    exact Nat.lt_add_left _ (length_lt_of_instruction? hread)

/-- Any amount of fuel above the length of the text passes over the same remarks. -/
theorem skipRemarks?_eq_of_lt {m n : Nat} {cs : List Char} (hm : cs.length < m)
    (hn : cs.length < n) : skipRemarks? m cs = skipRemarks? n cs := by
  induction m generalizing n cs with
  | zero => omega
  | succ m ih =>
    obtain ⟨n, rfl⟩ := Nat.exists_eq_add_one_of_ne_zero (Nat.ne_zero_of_lt hn)
    rw [skipRemarks?, skipRemarks?]
    split_ifs
    · refine Option.bind_congr fun rest hrest => ?_
      have := length_skipBlanks_le cs
      have := length_lt_of_remark? hrest
      exact ih (by omega) (by omega)
    · rfl

/-! ## References -/

/-- A mark behind characters that are passed over is taken with them. -/
theorem length_lt_of_strip?_dropWhile {p : Char → Bool} {c : Char} {cs rest : List Char}
    (h : strip? [c] (cs.dropWhile p) = some rest) : rest.length < cs.length := by
  have hle := List.length_dropWhile_le p cs
  rw [length_of_strip? h, List.length_singleton] at hle
  omega

theorem length_lt_of_characterReference? {cs rest : List Char} {c : Char}
    (h : characterReference? cs = some (c, rest)) : rest.length < cs.length := by
  simp only [characterReference?, List.span_eq_takeWhile_dropWhile, Option.bind_eq_bind,
    Option.bind_eq_some_iff, Option.pure_def] at h
  obtain ⟨last, hend, n, -, d, -, heq⟩ := h
  obtain ⟨-, rfl⟩ := Prod.mk.inj (Option.some.inj heq)
  split at hend
  · rename_i behind hx
    rw [length_of_strip? hx]
    exact Nat.lt_add_left _ (length_lt_of_strip?_dropWhile hend)
  · exact length_lt_of_strip?_dropWhile hend

theorem length_lt_of_reference? {cs rest : List Char} {r : Reference}
    (h : reference? cs = some (r, rest)) : rest.length < cs.length := by
  unfold reference? at h
  split at h
  · rename_i behind hsign
    obtain ⟨⟨c, rest'⟩, hread, heq⟩ := Option.map_eq_some_iff.1 h
    obtain ⟨-, rfl⟩ := Prod.mk.inj heq
    have := length_of_strip? hsign
    have := length_lt_of_characterReference? hread
    omega
  · simp only [Option.bind_eq_bind, Option.bind_eq_some_iff, Prod.exists] at h
    obtain ⟨name, behind, hname, rest', hend, h⟩ := h
    have hrest : rest' = rest := by
      split at h <;> exact (Prod.mk.inj (Option.some.inj h)).2
    rw [← hrest]
    have := length_lt_of_name? hname
    have := length_of_strip? hend
    omega

/-- Any amount of fuel above the length of a literal reads the same value. -/
theorem literalValue_eq_of_lt {expand : String → Nat → Option (List Char × Nat)} {inEntity : Bool}
    {m n : Nat} {cs : List Char} {nested : Nat} (hm : cs.length < m) (hn : cs.length < n) :
    literalValue expand inEntity m cs nested = literalValue expand inEntity n cs nested := by
  fun_induction literalValue expand inEntity m cs nested generalizing n with
  | case1 => omega
  | case2 =>
    obtain ⟨n, rfl⟩ := Nat.exists_eq_add_one_of_ne_zero (Nat.ne_zero_of_lt hn)
    rfl
  | case3 m cs nested ihCharacter ihEntity =>
    obtain ⟨n, rfl⟩ := Nat.exists_eq_add_one_of_ne_zero (Nat.ne_zero_of_lt hn)
    rw [List.length_cons] at hm hn
    rw [literalValue]
    refine Option.bind_congr ?_
    rintro ⟨r, rest⟩ hr
    have hrest := length_lt_of_reference? hr
    cases r with
    | character c => simp only [ihCharacter rest (n := n) (by omega) (by omega)]
    | entity name => simp only [ihEntity rest _ (n := n) (by omega) (by omega)]
  | case4 m cs nested ih =>
    obtain ⟨n, rfl⟩ := Nat.exists_eq_add_one_of_ne_zero (Nat.ne_zero_of_lt hn)
    rw [List.length_cons, List.length_cons] at hm hn
    rw [literalValue, ih (n := n) (by omega) (by omega)]
  | case5 m c cs nested hreference hbreak ih =>
    obtain ⟨n, rfl⟩ := Nat.exists_eq_add_one_of_ne_zero (Nat.ne_zero_of_lt hn)
    rw [List.length_cons] at hm hn
    rw [literalValue, ih (n := n) (by omega) (by omega)]
    · exact hreference
    · exact hbreak

/-! ## Tags -/

/-- Any amount of fuel above the length of the text reads the same attributes. -/
theorem attributes?_eq_of_lt {value : List Char → Nat → Option (List Char × Nat)} {m n : Nat}
    {cs : List Char} {d : Draft} (hm : cs.length < m) (hn : cs.length < n) :
    attributes? value m cs d = attributes? value n cs d := by
  induction m generalizing n cs d with
  | zero => omega
  | succ m ih =>
    obtain ⟨n, rfl⟩ := Nat.exists_eq_add_one_of_ne_zero (Nat.ne_zero_of_lt hn)
    cases cs with
    | nil => rfl
    | cons first cs =>
      rw [attributes?, attributes?]
      -- only behind an attribute does the reader go on
      split
      · rfl
      · rfl
      · rfl
      · split_ifs
        · rfl
        · refine Option.bind_congr ?_
          rintro ⟨name, written, rest⟩ hread
          refine Option.bind_congr ?_
          rintro ⟨text, nested⟩ -
          refine Option.bind_congr fun d _ => ?_
          have := length_skipBlanks_le (first :: cs)
          have := length_lt_of_attribute? hread
          exact ih (by omega) (by omega)

/-- Attributes may be absent, and then nothing is taken where the text ends inside the tag. -/
theorem length_le_of_attributes? {value : List Char → Nat → Option (List Char × Nat)} {fuel : Nat}
    {cs rest : List Char} {d e : Draft} {ending : TagEnd}
    (h : attributes? value fuel cs d = some (ending, rest, e)) : rest.length ≤ cs.length := by
  induction fuel generalizing cs d with
  | zero => cases h
  | succ fuel ih =>
    cases cs with
    | nil =>
      simp only [attributes?, Option.some.injEq, Prod.mk.injEq] at h
      exact Nat.le_of_eq (congrArg List.length h.2.1.symm)
    | cons first cs =>
      have hle := length_skipBlanks_le (first :: cs)
      rw [attributes?] at h
      split at h
      · cases h
      · rename_i behind hslash
        obtain ⟨last, hend, heq⟩ := Option.map_eq_some_iff.1 h
        rw [hslash, List.length_cons, length_of_strip? hend] at hle
        rw [← (Prod.mk.inj (Prod.mk.inj heq).2).1]
        omega
      · rename_i behind hend
        rw [hend, List.length_cons] at hle
        simp only [Option.some.injEq, Prod.mk.injEq] at h
        rw [← h.2.1]
        omega
      · split_ifs at h
        simp only [Option.bind_eq_bind, Option.bind_eq_some_iff, Prod.exists] at h
        obtain ⟨name, written, behind, hread, _, _, -, d, -, h⟩ := h
        have := length_lt_of_attribute? hread
        have := ih h
        omega

/-- A start tag takes its name at least. -/
theorem length_lt_of_startTag? {entities : Entities} {levels : Nat} {cs rest : List Char}
    {d e : Draft} {isOpen : Bool} (h : startTag? entities levels cs d = some (isOpen, rest, e)) :
    rest.length < cs.length := by
  simp only [startTag?, Option.bind_eq_bind, Option.bind_eq_some_iff, Prod.exists] at h
  obtain ⟨name, behind, hname, d, -, ending, last, d', hread, h⟩ := h
  have hlast : last = rest := by
    cases ending with
    | unfinished => exact (Prod.mk.inj (Prod.mk.inj (Option.some.inj h)).2).1
    | closed =>
      obtain ⟨d'', -, heq⟩ := Option.bind_eq_some_iff.1 h
      exact (Prod.mk.inj (Prod.mk.inj (Option.some.inj heq)).2).1
    | opened =>
      obtain ⟨d'', -, heq⟩ := Option.bind_eq_some_iff.1 h
      exact (Prod.mk.inj (Prod.mk.inj (Option.some.inj heq)).2).1
  rw [← hlast]
  exact Nat.lt_of_le_of_lt (length_le_of_attributes? hread) (length_lt_of_qname? hname)

theorem length_lt_of_endTag? {cs rest : List Char} {d e : Draft}
    (h : endTag? cs d = some (rest, e)) : rest.length < cs.length := by
  simp only [endTag?, Option.bind_eq_bind, Option.bind_eq_some_iff, Prod.exists, Option.pure_def,
    Option.some.injEq, Prod.mk.injEq] at h
  obtain ⟨name, behind, hname, last, hend, d, -, rfl, -⟩ := h
  have := length_lt_of_qname? hname
  have := length_skipBlanks_le behind
  have := length_of_strip? hend
  omega

/-! ## Content -/

/-- A run of text is not empty. -/
theorem length_lt_of_run? {cs rest : List Char} {node : Node} (h : run? cs = some (node, rest)) :
    rest.length < cs.length := by
  unfold run? at h
  dsimp only at h
  split_ifs at h with hrun
  rw [← (Prod.mk.inj (Option.some.inj h)).2]
  simp only [ne_eq, Bool.and_eq_true, decide_eq_true_eq] at hrun
  have hlength := congrArg List.length (List.takeWhile_append_dropWhile (l := cs)
    (p := fun c => !(decide (c = '<') || decide (c = '&'))))
  have := List.length_pos_iff.2 hrun.1.1
  rw [List.length_append] at hlength
  omega

/-- A piece of content takes its mark, or it is a run of text. -/
theorem length_lt_of_piece? {cs rest : List Char} {node : Node}
    (h : piece? cs = some (node, rest)) : rest.length < cs.length := by
  unfold piece? at h
  split at h
  · obtain ⟨⟨written, behind⟩, hread, heq⟩ := Option.map_eq_some_iff.1 h
    obtain ⟨-, rfl⟩ := Prod.mk.inj heq
    have := length_lt_of_comment? hread
    simp only [List.length_cons]
    omega
  · obtain ⟨⟨written, behind⟩, hread, h⟩ := Option.bind_eq_some_iff.1 h
    dsimp only at h
    split_ifs at h
    obtain ⟨-, rfl⟩ := Prod.mk.inj (Option.some.inj h)
    have := length_of_upTo? hread
    simp only [List.length_cons]
    omega
  · obtain ⟨⟨target, written, behind⟩, hread, heq⟩ := Option.map_eq_some_iff.1 h
    obtain ⟨-, rfl⟩ := Prod.mk.inj heq
    have := length_lt_of_instruction? hread
    simp only [List.length_cons]
    omega
  · exact length_lt_of_run? h

/-- Any amount of fuel above the length of the text reads the same content. -/
theorem pieces?_eq_of_lt {entities : Entities} {levels : Nat}
    {expand : String → Draft → Option Draft} {m n depth : Nat} {cs : List Char} {d : Draft}
    (hm : cs.length < m) (hn : cs.length < n) :
    pieces? entities levels expand m depth cs d = pieces? entities levels expand n depth cs d := by
  fun_induction pieces? entities levels expand m depth cs d generalizing n with
  | case1 => omega
  | case2 =>
    obtain ⟨n, rfl⟩ := Nat.exists_eq_add_one_of_ne_zero (Nat.ne_zero_of_lt hn)
    rfl
  | case3 m depth cs d ihCharacter ihEntity =>
    obtain ⟨n, rfl⟩ := Nat.exists_eq_add_one_of_ne_zero (Nat.ne_zero_of_lt hn)
    rw [List.length_cons] at hm hn
    rw [pieces?]
    refine Option.bind_congr ?_
    rintro ⟨r, rest⟩ hr
    have hrest := length_lt_of_reference? hr
    cases r with
    | character c => exact ihCharacter c rest (by omega) (by omega)
    | entity name => exact Option.bind_congr fun d _ => ihEntity rest d (by omega) (by omega)
  | case4 m depth cs d ih =>
    obtain ⟨n, rfl⟩ := Nat.exists_eq_add_one_of_ne_zero (Nat.ne_zero_of_lt hn)
    rw [List.length_cons, List.length_cons] at hm hn
    rw [pieces?]
    refine Option.bind_congr ?_
    rintro ⟨rest, d⟩ hread
    have hrest := length_lt_of_endTag? hread
    dsimp only
    split_ifs
    · rfl
    · exact ih rest d (by omega) (by omega)
  | case5 m depth d c cs hmark hnil hreference hend ih =>
    obtain ⟨n, rfl⟩ := Nat.exists_eq_add_one_of_ne_zero (Nat.ne_zero_of_lt hn)
    rw [pieces?, if_pos hmark]
    · refine Option.bind_congr ?_
      rintro ⟨node, rest⟩ hread
      have := length_lt_of_piece? hread
      exact ih node rest (by omega) (by omega)
    · exact hnil
    · exact hreference
    · exact hend
  | case6 m depth d c cs hmark hnil hreference hend ih =>
    obtain ⟨n, rfl⟩ := Nat.exists_eq_add_one_of_ne_zero (Nat.ne_zero_of_lt hn)
    rw [pieces?, if_neg hmark]
    · refine Option.bind_congr ?_
      rintro ⟨isOpen, rest, d⟩ hread
      have := length_lt_of_startTag? hread
      rw [List.length_cons] at hm hn
      exact ih isOpen rest d (by omega) (by omega)
    · exact hnil
    · exact hreference
    · exact hend
  | case7 m depth cs d hnil hreference hend htag ih =>
    obtain ⟨n, rfl⟩ := Nat.exists_eq_add_one_of_ne_zero (Nat.ne_zero_of_lt hn)
    rw [pieces?]
    · refine Option.bind_congr ?_
      rintro ⟨node, rest⟩ hread
      have := length_lt_of_piece? hread
      exact ih node rest (by omega) (by omega)
    · exact hnil
    · exact hreference
    · exact hend
    · exact htag

/-! ## Document type declarations -/

theorem length_lt_of_spacedLiteral? {cs rest : List Char} (h : spacedLiteral? cs = some rest) :
    rest.length < cs.length := by
  obtain ⟨behind, hblanks, h⟩ := Option.bind_eq_some_iff.1 h
  obtain ⟨⟨written, last⟩, hread, rfl⟩ := Option.map_eq_some_iff.1 h
  exact Nat.lt_trans (length_lt_of_literal? hread) (length_lt_of_blanks? hblanks)

theorem length_lt_of_externalId? {cs rest : List Char} (h : externalId? cs = some rest) :
    rest.length < cs.length := by
  unfold externalId? at h
  split at h
  · rename_i behind hword
    rw [length_of_strip? hword]
    exact Nat.lt_add_left _ (length_lt_of_spacedLiteral? h)
  · simp only [Option.bind_eq_bind, Option.bind_eq_some_iff] at h
    obtain ⟨behind, hword, identified, hpublic, hsystem⟩ := h
    rw [length_of_strip? hword]
    exact Nat.lt_add_left _
      (Nat.lt_trans (length_lt_of_spacedLiteral? hsystem) (length_lt_of_spacedLiteral? hpublic))

theorem length_le_of_skipUnparsed? {cs rest : List Char} (h : skipUnparsed? cs = some rest) :
    rest.length ≤ cs.length := by
  have hle := length_skipBlanks_le cs
  unfold skipUnparsed? at h
  split at h
  · rename_i behind hword
    obtain ⟨spaced, hblanks, h⟩ := Option.bind_eq_some_iff.1 h
    obtain ⟨⟨name, last⟩, hname, rfl⟩ := Option.map_eq_some_iff.1 h
    rw [length_of_strip? hword] at hle
    have := length_lt_of_blanks? hblanks
    have := length_lt_of_name? hname
    dsimp only
    omega
  · rw [← Option.some.inj h]
    exact hle

/-- An entity declaration takes blanks, a name, and what the name stands for. -/
theorem length_lt_of_entity? {cs rest : List Char} {name : String} {text : Option (List Char)}
    (h : entity? cs = some (name, text, rest)) : rest.length < cs.length := by
  unfold entity? at h
  obtain ⟨spaced, hblanks, h⟩ := Option.bind_eq_some_iff.1 h
  extract_lets general declare at h
  -- a percent sign may stand before the name
  obtain ⟨marked, hmarked, h⟩ : ∃ marked, marked.length ≤ spaced.length ∧
      declare marked = some (name, text, rest) := by
    split_ifs at h
    · exact ⟨spaced, Nat.le_refl _, h⟩
    · obtain ⟨marked, hmarked, h⟩ := Option.bind_eq_some_iff.1 h
      have := length_lt_of_blanks? hmarked
      rw [List.length_drop] at this
      exact ⟨marked, by omega, h⟩
  obtain ⟨⟨_, named⟩, hname, h⟩ := Option.bind_eq_some_iff.1 h
  obtain ⟨defined, hdefined, h⟩ := Option.bind_eq_some_iff.1 h
  extract_lets finish at h
  -- the text is given in place or named
  obtain ⟨value, behind, hbehind, h⟩ : ∃ value behind, behind.length < defined.length ∧
      finish (value, behind) = some (name, text, rest) := by
    split_ifs at h
    · obtain ⟨identified, hid, h⟩ := Option.bind_eq_some_iff.1 h
      obtain ⟨behind, hbehind, h⟩ := Option.bind_eq_some_iff.1 h
      exact ⟨none, behind,
        Nat.lt_of_le_of_lt (length_le_of_skipUnparsed? hbehind) (length_lt_of_externalId? hid), h⟩
    · obtain ⟨behind, hid, h⟩ := Option.bind_eq_some_iff.1 h
      exact ⟨none, behind, length_lt_of_externalId? hid, h⟩
    · obtain ⟨_, hliteral, h⟩ := Option.bind_eq_some_iff.1 h
      obtain ⟨⟨written, behind⟩, hread, rfl⟩ := Option.map_eq_some_iff.1 hliteral
      exact ⟨some written, behind, length_lt_of_literal? hread, h⟩
  obtain ⟨last, hend, h⟩ := Option.bind_eq_some_iff.1 h
  simp only [Option.pure_def, Option.some.injEq, Prod.mk.injEq] at h
  rw [← h.2.2]
  have := length_lt_of_blanks? hblanks
  have := length_lt_of_name? hname
  have := length_lt_of_blanks? hdefined
  have := length_skipBlanks_le behind
  have := length_of_strip? hend
  omega

/-- Any amount of fuel above the length of the text reads the same internal subset. -/
theorem subset?_eq_of_lt {m n : Nat} {cs : List Char} (hm : cs.length < m) (hn : cs.length < n) :
    subset? m cs = subset? n cs := by
  induction m generalizing n cs with
  | zero => omega
  | succ m ih =>
    obtain ⟨n, rfl⟩ := Nat.exists_eq_add_one_of_ne_zero (Nat.ne_zero_of_lt hn)
    have hle := length_skipBlanks_le cs
    rw [subset?, subset?]
    split
    · rename_i behind hentity
      refine Option.bind_congr ?_
      rintro ⟨name, text, rest⟩ hread
      have := length_lt_of_entity? hread
      rw [length_of_strip? hentity] at hle
      dsimp only
      rw [@ih n rest (by omega) (by omega)]
    · split_ifs
      · refine Option.bind_congr fun rest hread => ?_
        have := length_lt_of_remark? hread
        exact ih (by omega) (by omega)
      · refine Option.bind_congr ?_
        rintro ⟨written, rest⟩ hread
        have := length_of_upTo? hread
        rw [List.length_singleton] at this
        exact @ih n rest (by omega) (by omega)
      · rfl

end Xml

namespace Json

open Text

/-! ## Strings -/

theorem length_lt_of_hexQuad? {cs rest : List Char} {n : Nat} (h : hexQuad? cs = some (n, rest)) :
    rest.length < cs.length := by
  unfold hexQuad? at h
  split at h
  · obtain ⟨m, -, heq⟩ := Option.map_eq_some_iff.1 h
    obtain ⟨-, rfl⟩ := Prod.mk.inj heq
    simp only [List.length_cons]
    omega
  · cases h

/-- An escape by number takes its digits. -/
theorem length_lt_of_numbered? {isText : Bool} {cs rest : List Char} {c : Char}
    (h : numbered? isText cs = some (c, rest)) : rest.length < cs.length := by
  obtain ⟨⟨n, behind⟩, hread, h⟩ := Option.bind_eq_some_iff.1 h
  have hlt := length_lt_of_hexQuad? hread
  dsimp only at h
  split at h
  · rwa [← (Prod.mk.inj (Option.some.inj h)).2]
  split at h
  · -- the second half of a surrogate pair follows
    obtain ⟨second, hsecond, h⟩ := Option.bind_eq_some_iff.1 h
    obtain ⟨⟨m, last⟩, hlast, h⟩ := Option.bind_eq_some_iff.1 h
    dsimp only at h
    split_ifs at h
    rw [← (Prod.mk.inj (Option.some.inj h)).2]
    have := length_of_strip? hsecond
    have := length_lt_of_hexQuad? hlast
    omega
  split at h
  · cases h
  · rwa [← (Prod.mk.inj (Option.some.inj h)).2]

/-- Any amount of fuel above the length of the text reads the same string. -/
theorem characters_eq_of_lt {isText : Bool} {m n : Nat} {cs : List Char} (hm : cs.length < m)
    (hn : cs.length < n) : characters isText m cs = characters isText n cs := by
  induction m generalizing n cs with
  | zero => omega
  | succ m ih =>
    obtain ⟨n, rfl⟩ := Nat.exists_eq_add_one_of_ne_zero (Nat.ne_zero_of_lt hn)
    cases cs with
    | nil => rfl
    | cons c cs =>
      rw [List.length_cons] at hm hn
      unfold characters
      dsimp only
      split_ifs
      · rfl
      · rfl
      · split
        · rfl
        · refine Option.bind_congr ?_
          rintro ⟨d, rest⟩ hread
          have := length_lt_of_numbered? hread
          dsimp only
          rw [List.length_cons] at hm hn
          rw [@ih n rest (by omega) (by omega)]
        · refine Option.bind_congr fun d _ => ?_
          rw [List.length_cons] at hm hn
          rw [ih (n := n) (by omega) (by omega)]
      · rw [ih (n := n) (by omega) (by omega)]

theorem length_lt_of_string? {isText : Bool} {cs rest : List Char} {s : String}
    (h : string? isText cs = some (s, rest)) : rest.length < cs.length := by
  obtain ⟨pieces, htext, -⟩ := exists_pieces_of_string? h
  have hlength := congrArg List.length htext
  simp only [quoted, List.length_cons, List.length_append] at hlength
  omega

/-! ## Values -/

/-- No value is written with nothing. -/
theorem Written.length_text_pos (w : Written) : 0 < w.text.length := by
  cases w with
  | literal cs h =>
    cases h with
    | number hsign hwhole _ _ =>
      have := List.length_pos_iff.2 hwhole.1.1
      simp [Written.text]
      omega
    | _ => simp [Written.text]
  | _ => simp [Written.text, quoted]

/-- What is read as a value is the text of a written one, which is taken. -/
theorem length_lt_of_readValue {fuel : Nat} {interest : Interest} {cs rest : List Char} {v : Json}
    (h : readValue fuel interest cs = some (v, rest)) : rest.length < cs.length := by
  obtain ⟨before, w, rfl, -⟩ := (written_of_read fuel).1 _ _ _ _ h
  have := w.length_text_pos
  rw [List.length_append, List.length_append]
  omega

/-- An amount of fuel reads each value like any other amount, if both exceed twice the length. -/
def ValuesAgree (m : Nat) : Prop :=
  ∀ ⦃n : Nat⦄ ⦃cs : List Char⦄ (interest : Interest), 2 * cs.length < m → 2 * cs.length < n →
    readValue m interest cs = readValue n interest cs

/-- The same for items : the first of them takes a unit before it takes a character. -/
def ItemsAgree (m : Nat) : Prop :=
  ∀ ⦃n : Nat⦄ ⦃cs : List Char⦄ (interest : Interest) (place : Nat),
    2 * cs.length + 1 < m → 2 * cs.length + 1 < n →
      readItems m interest place cs = readItems n interest place cs

/-- The same for members. -/
def MembersAgree (m : Nat) : Prop :=
  ∀ ⦃n : Nat⦄ ⦃cs : List Char⦄ (interest : Interest), 2 * cs.length < m → 2 * cs.length < n →
    readMembers m interest cs = readMembers n interest cs

/-- A bracket takes a character before what is inside it is read. -/
theorem valuesAgree_succ {m : Nat} (hitems : ItemsAgree m) (hmembers : MembersAgree m) :
    ValuesAgree (m + 1) := by
  intro n cs interest hm hn
  obtain ⟨n, rfl⟩ := Nat.exists_eq_add_one_of_ne_zero (Nat.ne_zero_of_lt hn)
  have hle := length_skipBlanks_le cs
  rw [readValue, readValue]
  split
  · rfl
  · rename_i c behind hbehind
    rw [hbehind, List.length_cons] at hle
    have hrest := length_skipBlanks_le behind
    split_ifs
    · split
      · rfl
      · rw [hmembers (n := n) interest (by omega) (by omega)]
    · split
      · rfl
      · rw [hitems (n := n) interest 0 (by omega) (by omega)]
    all_goals rfl

/-- The first item takes no character before it is read; the others stand behind it. -/
theorem itemsAgree_succ {m : Nat} (hvalue : ValuesAgree m) (hitems : ItemsAgree m) :
    ItemsAgree (m + 1) := by
  intro n cs interest place hm hn
  obtain ⟨n, rfl⟩ := Nat.exists_eq_add_one_of_ne_zero (Nat.ne_zero_of_lt hn)
  rw [readItems, readItems, hvalue (n := n) _ (by omega) (by omega)]
  refine Option.bind_congr ?_
  rintro ⟨v, rest⟩ hread
  have hlt := length_lt_of_readValue hread
  have hle := length_skipBlanks_le rest
  dsimp only
  split
  · rfl
  · rename_i next hnext
    rw [hnext, List.length_cons] at hle
    rw [hitems (n := n) _ _ (by omega) (by omega)]
  · rfl

/-- A name takes characters before the value behind it is read. -/
theorem membersAgree_succ {m : Nat} (hvalue : ValuesAgree m) (hmembers : MembersAgree m) :
    MembersAgree (m + 1) := by
  intro n cs interest hm hn
  obtain ⟨n, rfl⟩ := Nat.exists_eq_add_one_of_ne_zero (Nat.ne_zero_of_lt hn)
  rw [readMembers, readMembers]
  refine Option.bind_congr fun opened hopened => ?_
  refine Option.bind_congr ?_
  rintro ⟨key, named⟩ hkey
  refine Option.bind_congr fun behind hcolon => ?_
  have hlt : behind.length < cs.length := by
    have := length_skipBlanks_le cs
    have := length_of_strip? hopened
    have := length_lt_of_string? hkey
    have := length_skipBlanks_le named
    have := length_of_strip? hcolon
    omega
  rw [hvalue (n := n) _ (by omega) (by omega)]
  refine Option.bind_congr ?_
  rintro ⟨v, rest⟩ hread
  have := length_lt_of_readValue hread
  have hle := length_skipBlanks_le rest
  dsimp only
  split
  · rfl
  · rename_i next hnext
    rw [hnext, List.length_cons] at hle
    rw [hmembers (n := n) _ (by omega) (by omega)]
  · rfl

theorem readers_agree (m : Nat) : ValuesAgree m ∧ ItemsAgree m ∧ MembersAgree m := by
  induction m with
  | zero =>
    refine ⟨fun _ _ _ hm _ => ?_, fun _ _ _ _ hm _ => ?_, fun _ _ _ hm _ => ?_⟩ <;> omega
  | succ m ih =>
    obtain ⟨hvalue, hitems, hmembers⟩ := ih
    exact ⟨valuesAgree_succ hitems hmembers, itemsAgree_succ hvalue hitems,
      membersAgree_succ hvalue hmembers⟩

/-- Any amount of fuel above twice the length of the text reads the same value. -/
theorem readValue_eq_of_lt {m n : Nat} {cs : List Char} (interest : Interest)
    (hm : 2 * cs.length < m) (hn : 2 * cs.length < n) :
    readValue m interest cs = readValue n interest cs :=
  (readers_agree m).1 interest hm hn

end Json

end ServiceContract
