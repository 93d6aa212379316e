import ServiceContract.Registry
import Mathlib.Data.List.Basic
/-!
# What stands before the root element

A descriptor may begin with an XML declaration and a document type declaration that names an
external subset. Nothing is fetched, so these declare no entity, and behind them the reader goes on
as it does at the beginning of a text (`Xml.read?_prolog`). This holds of any text that begins with
a tag, well-formed or not, so that taking in a descriptor with a prolog comes to the same as taking
it in without (`ingest_prolog`).
-/

namespace ServiceContract

namespace Xml

open Text

/-! ## The notation -/

/-- A name, in which colons are ordinary characters. -/
inductive IsName : List Char → Prop where
  | intro (c : Char) (cs : List Char) (hstart : isNameStart c = true)
      (hpart : ∀ d ∈ cs, isNamePart d = true) : IsName (c :: cs)

/-- Whether a text is a name can be decided character by character. -/
theorem isName_iff {name : List Char} :
    IsName name ↔ name.head?.any isNameStart = true ∧ name.tail.all isNamePart = true := by
  constructor
  · rintro ⟨c, cs, hstart, hpart⟩
    exact ⟨hstart, List.all_eq_true.2 hpart⟩
  · rintro ⟨hstart, hpart⟩
    cases name with
    | nil => cases hstart
    | cons c cs => exact .intro c cs hstart (List.all_eq_true.1 hpart)

instance (name : List Char) : Decidable (IsName name) := decidable_of_iff _ isName_iff.symm

/-- The characters of versions, of the names of encodings, and of yes and no. -/
def isWordCharacter (c : Char) : Bool := c.isAlphanum || c = '.' || c = '_' || c = '-'

/-- The characters of a system identifier that names a file. -/
def isSystemCharacter (c : Char) : Bool := c.isAlphanum || c = '.' || c = '-' || c = '/'

/-- A name, an equals sign that may have blanks around it, and a word in quotes. -/
inductive IsAssignment (name value : List Char) : List Char → Prop where
  | quoted (left right : List Char) (mark : Char) (hleft : AreBlanks left)
      (hright : AreBlanks right) (hmark : mark = '"' ∨ mark = '\'')
      (hvalue : ∀ c ∈ value, isWordCharacter c = true) :
      IsAssignment name value (name ++ (left ++ '=' :: (right ++ mark :: (value ++ [mark]))))

/-- An assignment with at least one blank in front of it, or nothing. -/
inductive IsOptional (name : List Char) : List Char → Prop where
  | absent : IsOptional name []
  | present {before value cs : List Char} (hne : before ≠ []) (hbefore : AreBlanks before)
      (h : IsAssignment name value cs) : IsOptional name (before ++ cs)

/-- An XML declaration of version 1.0. What it says of the encoding, and of whether the document
stands alone, is any word. -/
inductive IsDeclaration : List Char → Prop where
  | intro {before version encoding standalone after : List Char} (hne : before ≠ [])
      (hbefore : AreBlanks before)
      (hversion : IsAssignment ['v', 'e', 'r', 's', 'i', 'o', 'n'] ['1', '.', '0'] version)
      (hencoding : IsOptional ['e', 'n', 'c', 'o', 'd', 'i', 'n', 'g'] encoding)
      (hstandalone : IsOptional ['s', 't', 'a', 'n', 'd', 'a', 'l', 'o', 'n', 'e'] standalone)
      (hafter : AreBlanks after) :
      IsDeclaration (['<', '?', 'x', 'm', 'l'] ++ (before ++ (version ++ (encoding ++
        (standalone ++ (after ++ ['?', '>']))))))

/-- A document type declaration that names an external subset. -/
def doctype (name system : List Char) : List Char :=
  ['<', '!', 'D', 'O', 'C', 'T', 'Y', 'P', 'E', ' '] ++ (name ++
    ([' ', 'S', 'Y', 'S', 'T', 'E', 'M', ' ', '"'] ++ (system ++ ['"', '>'])))

/-- A text that begins with a tag and with no other kind of markup. -/
def BeginsTag (cs : List Char) : Prop :=
  ∃ rest, cs = '<' :: rest ∧ rest.head? ≠ some '!' ∧ rest.head? ≠ some '?'

/-! ## Characters -/

theorem isNamePart_of_isNameStart {c : Char} (h : isNameStart c = true) : isNamePart c = true := by
  rw [isNameStart] at h
  simp [isNamePart, h]

theorem toNat_of_isAlphanum {c : Char} (h : c.isAlphanum = true) :
    (48 ≤ c.toNat ∧ c.toNat ≤ 57) ∨ (65 ≤ c.toNat ∧ c.toNat ≤ 90) ∨
      (97 ≤ c.toNat ∧ c.toNat ≤ 122) := by
  have hranges : (decide (65 ≤ c.val ∧ c.val ≤ 90) ||
      (decide (97 ≤ c.val) && decide (c.val ≤ 122)) ||
      (decide (48 ≤ c.val) && decide (c.val ≤ 57))) = true := h
  simp only [Bool.or_eq_true, Bool.and_eq_true, decide_eq_true_eq, UInt32.le_iff_toNat_le,
    Char.toNat_val, UInt32.reduceToNat] at hranges
  omega

/-- A character that is quoted in a prolog ends neither the quotation nor the markup around it. -/
structure IsQuotable (c : Char) : Prop where
  isCharacter : isCharacter c = true
  notTag : c ≠ '<'
  notQuote : c ≠ '"'
  notApostrophe : c ≠ '\''
  notMark : c ≠ '?'

/-- Letters and digits may stand in quotes and in processing instructions. -/
theorem isQuotable_of_isAlphanum {c : Char} (h : c.isAlphanum = true) : IsQuotable c := by
  have hnat := toNat_of_isAlphanum h
  constructor
  case isCharacter =>
    have hlow : ¬ c.toNat < 0x20 := by omega
    have hhigh : c.toNat ≠ 0xFFFE ∧ c.toNat ≠ 0xFFFF := by omega
    simp [isCharacter, hlow, hhigh]
  all_goals
    rintro rfl
    simp at hnat

theorem isQuotable_of_isWordCharacter {c : Char} (h : isWordCharacter c = true) : IsQuotable c := by
  simp only [isWordCharacter, Bool.or_eq_true, decide_eq_true_eq] at h
  obtain ((halnum | rfl) | rfl) | rfl := h
  · exact isQuotable_of_isAlphanum halnum
  all_goals exact ⟨by decide, by decide, by decide, by decide, by decide⟩

theorem isQuotable_of_isSystemCharacter {c : Char} (h : isSystemCharacter c = true) :
    IsQuotable c := by
  simp only [isSystemCharacter, Bool.or_eq_true, decide_eq_true_eq] at h
  obtain ((halnum | rfl) | rfl) | rfl := h
  · exact isQuotable_of_isAlphanum halnum
  all_goals exact ⟨by decide, by decide, by decide, by decide, by decide⟩

/-- A blank belongs to no name. -/
theorem isNamePart_of_isBlank {c : Char} (h : isBlank c = true) : isNamePart c = false := by
  obtain rfl | rfl | rfl | rfl : c = ' ' ∨ c = '\t' ∨ c = '\n' ∨ c = '\r' := by
    simpa using isBlank_iff.1 h
  all_goals decide

/-! ## Small readers -/

/-- Blanks are passed over up to a character that is none. -/
theorem skipBlanks_append_of_head? {blanks : List Char} (h : AreBlanks blanks) {cs : List Char}
    (hcs : cs.head?.all (!isBlank ·) = true) : skipBlanks (blanks ++ cs) = cs := by
  rw [skipBlanks_append h]
  cases cs with
  | nil => rfl
  | cons c cs => exact skipBlanks_cons (by simpa using hcs) cs

/-- Where blanks must stand they are taken up to the first other character. -/
theorem blanks?_append {blanks cs : List Char} (hne : blanks ≠ []) (h : AreBlanks blanks)
    (hcs : cs.head?.all (!isBlank ·) = true) : blanks? (blanks ++ cs) = some cs := by
  cases blanks with
  | nil => exact absurd rfl hne
  | cons b blanks =>
    have hrest : AreBlanks blanks := fun c hc => h c (List.mem_cons_of_mem b hc)
    simp [blanks?, h.isBlank List.mem_cons_self, skipBlanks_append_of_head? hrest hcs]

/-- The characters of a name are taken up to one that belongs to none. -/
theorem span_name {name rest : List Char} (h : ∀ c ∈ name, isNamePart c = true)
    (hrest : rest.head?.all (!isNamePart ·) = true) :
    (name ++ rest).takeWhile isNamePart = name ∧ (name ++ rest).dropWhile isNamePart = rest := by
  rw [List.takeWhile_append_of_pos h, List.dropWhile_append_of_pos h]
  cases rest with
  | nil => simp
  | cons c rest =>
    have hc : isNamePart c = false := by simpa using hrest
    simp [hc]

/-- A name is read up to the first character that cannot belong to it. -/
theorem name?_append {name : List Char} (h : IsName name) {rest : List Char}
    (hrest : rest.head?.all (!isNamePart ·) = true) : name? (name ++ rest) = some (name, rest) := by
  cases h with
  | intro c cs hstart hpart =>
    obtain ⟨htake, hdrop⟩ := span_name hpart hrest
    simp [name?, hstart, htake, hdrop]

theorem splitColon_of_not_mem {cs : List Char} (h : ':' ∉ cs) : splitColon cs = (cs, none) := by
  induction cs with
  | nil => rfl
  | cons c cs ih =>
    rw [List.mem_cons, not_or] at h
    simp [splitColon, Ne.symm h.1, ih h.2]

theorem qname?_append {name rest : List Char} (h : IsName name) (hcolon : ':' ∉ name)
    (hrest : rest.head?.all (!isNamePart ·) = true) :
    qname? (name ++ rest) = some (⟨"", String.ofList name⟩, rest) := by
  cases h with
  | intro c cs hstart hpart =>
    have hall : ∀ d ∈ c :: cs, isNamePart d = true :=
      List.forall_mem_cons.2 ⟨isNamePart_of_isNameStart hstart, hpart⟩
    obtain ⟨htake, hdrop⟩ := span_name hall hrest
    simp only [qname?, htake, hdrop, splitColon_of_not_mem hcolon]
    simp [hstart, hcolon]

/-- A literal is read up to its second quote. -/
theorem literal?_quoted {mark : Char} {written : List Char} (hmark : mark = '"' ∨ mark = '\'')
    (h : mark ∉ written) (rest : List Char) :
    literal? (mark :: (written ++ mark :: rest)) = some (written, rest) := by
  have hopen : openingQuote? (mark :: (written ++ mark :: rest)) =
      some (mark, written ++ mark :: rest) := by
    rcases hmark with rfl | rfl <;> simp [openingQuote?]
  have hend : upTo? [mark] (written ++ mark :: rest) = some (written, rest) :=
    upTo?_append h [] rest
  simp [literal?, hopen, hend]

/-! ## The XML declaration -/

/-- An assignment is read as an attribute. -/
theorem IsAssignment.attribute?_append {name value cs : List Char} (h : IsAssignment name value cs)
    (hname : IsName name) (hcolon : ':' ∉ name) (rest : List Char) :
    attribute? (cs ++ rest) = some (⟨"", String.ofList name⟩, value, rest) := by
  obtain ⟨left, right, mark, hleft, hright, hmark, hvalue⟩ := h
  have hquotable := fun c hc => isQuotable_of_isWordCharacter (hvalue c hc)
  have hnotMark : mark ∉ value := by
    rintro hmem
    rcases hmark with rfl | rfl
    · exact (hquotable _ hmem).notQuote rfl
    · exact (hquotable _ hmem).notApostrophe rfl
  have hafter : (left ++ '=' :: (right ++ mark :: (value ++ mark :: rest))).head?.all
      (!isNamePart ·) = true := by
    cases left with
    | nil => simp; decide
    | cons b left => simp [isNamePart_of_isBlank (hleft.isBlank List.mem_cons_self)]
  have hequals : skipBlanks (left ++ '=' :: (right ++ mark :: (value ++ mark :: rest))) =
      '=' :: (right ++ mark :: (value ++ mark :: rest)) :=
    skipBlanks_append_of_head? hleft (by simp; decide)
  have hopen : skipBlanks (right ++ mark :: (value ++ mark :: rest)) =
      mark :: (value ++ mark :: rest) :=
    skipBlanks_append_of_head? hright (by rcases hmark with rfl | rfl <;> (simp; decide))
  have hliteral : attributeLiteral? (mark :: (value ++ mark :: rest)) = some (value, rest) := by
    have hall : value.all (fun c => isCharacter c && c ≠ '<') = true := by
      rw [List.all_eq_true]
      intro c hc
      simp [(hquotable c hc).isCharacter, (hquotable c hc).notTag]
    simp only [attributeLiteral?, literal?_quoted hmark hnotMark, Option.bind_eq_bind,
      Option.bind_some, hall, if_true, Option.pure_def]
  simp only [List.append_assoc, List.cons_append, List.nil_append]
  simp only [attribute?, qname?_append hname hcolon hafter, hequals, hopen, hliteral, strip?,
    Option.bind_eq_bind, Option.bind_some, if_true, Option.pure_def]

theorem IsAssignment.head?_append {name value cs : List Char} (h : IsAssignment name value cs)
    (hname : IsName name) (rest : List Char) : (cs ++ rest).head? = name.head? := by
  obtain ⟨left, right, mark⟩ := h
  cases hname
  rfl

theorem IsName.head?_isBlank {name : List Char} (h : IsName name) :
    name.head?.all (!isBlank ·) = true := by
  cases h with
  | intro c cs hstart hpart =>
    cases hc : isBlank c with
    | false => simp [hc]
    | true =>
      have hpart := isNamePart_of_isNameStart hstart
      rw [isNamePart_of_isBlank hc] at hpart
      cases hpart

theorem IsAssignment.head?_isBlank {name value cs : List Char} (h : IsAssignment name value cs)
    (hname : IsName name) (rest : List Char) : (cs ++ rest).head?.all (!isBlank ·) = true := by
  rw [h.head?_append hname]
  exact hname.head?_isBlank

/-- A text in which a declaration goes on or ends : it begins with a blank, or with the end. -/
def Continues (cs : List Char) : Prop := declarationBlanks? cs = some (skipBlanks cs)

theorem startsWith_cons_of_ne {c d : Char} (h : c ≠ d) (word cs : List Char) :
    startsWith (c :: word) (d :: cs) = false := by
  simp [startsWith, strip?, h]

theorem continues_append {blanks cs : List Char} (hne : blanks ≠ []) (h : AreBlanks blanks)
    (hcs : cs.head?.all (!isBlank ·) = true) : Continues (blanks ++ cs) := by
  have hblanks := blanks?_append hne h hcs
  have hskip := skipBlanks_append_of_head? h hcs
  obtain ⟨b, blanks, rfl⟩ := List.exists_cons_of_ne_nil hne
  have hmark : '?' ≠ b := by
    rintro rfl
    exact absurd (h '?' List.mem_cons_self) (by decide)
  rw [Continues, hskip, ← hblanks]
  simp [declarationBlanks?, startsWith_cons_of_ne hmark]

/-- The declaration may end behind blanks. -/
theorem continues_end {after : List Char} (h : AreBlanks after) (rest : List Char) :
    Continues (after ++ '?' :: '>' :: rest) := by
  cases after with
  | nil => rfl
  | cons b after => exact continues_append (by simp) h rfl

theorem skipBlanks_end {after : List Char} (h : AreBlanks after) (rest : List Char) :
    skipBlanks (after ++ '?' :: '>' :: rest) = '?' :: '>' :: rest :=
  skipBlanks_append_of_head? h rfl

section Optional

variable {name cs rest : List Char}

/-- What an assignment with blanks in front of it, or nothing, adds to a declaration. -/
theorem IsOptional.continues_append (h : IsOptional name cs) (hname : IsName name)
    (hrest : Continues rest) : Continues (cs ++ rest) := by
  cases h with
  | absent => exact hrest
  | @present before value written hne hbefore h =>
    rw [List.append_assoc]
    exact continues_append hne hbefore (h.head?_isBlank hname rest)

/-- An assignment that may be left out is passed over, whether or not it stands there. -/
theorem IsOptional.optional?_append (h : IsOptional name cs) (hname : IsName name)
    (hcolon : ':' ∉ name) (hrest : Continues rest)
    (hother : startsWith name (skipBlanks rest) = false) :
    optional? name (skipBlanks (cs ++ rest)) = some (skipBlanks rest) := by
  cases h with
  | absent => simp [optional?, hother]
  | @present before value written hne hbefore h =>
    have hstarts : startsWith name (written ++ rest) = true := by
      obtain ⟨left, right, mark⟩ := h
      rw [List.append_assoc]
      simp [startsWith, strip?_append]
    rw [List.append_assoc, skipBlanks_append_of_head? hbefore (h.head?_isBlank hname rest)]
    simp only [optional?, hstarts, if_true, h.attribute?_append hname hcolon, Option.bind_eq_bind,
      Option.bind_some]
    exact hrest

end Optional

section Standalone

variable {standalone after : List Char}
  (h : IsOptional ['s', 't', 'a', 'n', 'd', 'a', 'l', 'o', 'n', 'e'] standalone)
  (hafter : AreBlanks after) (rest : List Char)

include h hafter

theorem startsWith_encoding_standalone :
    startsWith ['e', 'n', 'c', 'o', 'd', 'i', 'n', 'g']
      (skipBlanks (standalone ++ (after ++ '?' :: '>' :: rest))) = false := by
  cases h with
  | absent =>
    rw [List.nil_append, skipBlanks_end hafter]
    rfl
  | @present before value written hne hbefore h =>
    have hhead := h.head?_append (by decide) (after ++ '?' :: '>' :: rest)
    rw [List.append_assoc, skipBlanks_append_of_head? hbefore (by rw [hhead]; rfl)]
    obtain ⟨left, right, mark⟩ := h
    rfl

/-- The end of a declaration, from where it may say whether the document stands alone. -/
theorem strip?_standalone {cs : List Char}
    (hcs : skipBlanks (standalone ++ (after ++ '?' :: '>' :: rest)) = cs) :
    (if startsWith ['s', 't', 'a', 'n', 'd', 'a', 'l', 'o', 'n', 'e'] cs then
        ((attribute? cs).map (·.2.2)).bind fun cs => strip? ['?', '>'] (skipBlanks cs)
      else strip? ['?', '>'] (skipBlanks cs)) = some rest := by
  cases h with
  | absent =>
    rw [List.nil_append, skipBlanks_end hafter] at hcs
    subst hcs
    rfl
  | @present before value written hne hbefore h =>
    have hhead := h.head?_append (by decide) (after ++ '?' :: '>' :: rest)
    rw [List.append_assoc, skipBlanks_append_of_head? hbefore (by rw [hhead]; rfl)] at hcs
    have hread := h.attribute?_append (by decide) (by decide) (after ++ '?' :: '>' :: rest)
    have hstarts : startsWith ['s', 't', 'a', 'n', 'd', 'a', 'l', 'o', 'n', 'e'] cs = true := by
      obtain ⟨left, right, mark⟩ := h
      rw [← hcs]
      rfl
    rw [hcs] at hread
    simp [hstarts, hread, skipBlanks_end hafter, strip?]

end Standalone

/-- The parts of a declaration are read in their order, up to its end. -/
theorem declaration?_append {before version encoding standalone after : List Char}
    (hbefore : AreBlanks before)
    (hversion : IsAssignment ['v', 'e', 'r', 's', 'i', 'o', 'n'] ['1', '.', '0'] version)
    (hencoding : IsOptional ['e', 'n', 'c', 'o', 'd', 'i', 'n', 'g'] encoding)
    (hstandalone : IsOptional ['s', 't', 'a', 'n', 'd', 'a', 'l', 'o', 'n', 'e'] standalone)
    (hafter : AreBlanks after) (rest : List Char) :
    declaration? (before ++ (version ++ (encoding ++
      (standalone ++ (after ++ '?' :: '>' :: rest))))) = some rest := by
  have htail := hstandalone.continues_append (by decide) (continues_end hafter rest)
  have hbehind := hencoding.continues_append (by decide) htail
  have hskip : skipBlanks (before ++ (version ++ (encoding ++ (standalone ++
      (after ++ '?' :: '>' :: rest))))) = version ++ (encoding ++ (standalone ++
        (after ++ '?' :: '>' :: rest))) :=
    skipBlanks_append_of_head? hbefore (by rw [hversion.head?_append (by decide)]; rfl)
  have hstarts : startsWith ['v', 'e', 'r', 's', 'i', 'o', 'n'] (version ++ (encoding ++
      (standalone ++ (after ++ '?' :: '>' :: rest)))) = true := by
    obtain ⟨left, right, mark⟩ := hversion
    rfl
  have hencoded := hencoding.optional?_append (by decide) (by decide) htail
    (startsWith_encoding_standalone hstandalone hafter rest)
  simp only [declaration?, hskip, hstarts, if_true,
    hversion.attribute?_append (by decide) (by decide), Option.bind_eq_bind, Option.bind_some]
  rw [hbehind, Option.bind_some, hencoded, Option.bind_some]
  exact strip?_standalone hstandalone hafter rest rfl

/-- What is written in a declaration belongs to a processing instruction and does not end it. -/
def IsContent (cs : List Char) : Prop := ∀ c ∈ cs, isCharacter c = true ∧ c ≠ '?'

instance (cs : List Char) : Decidable (IsContent cs) := List.decidableBAll _ cs

theorem isContent_append {cs ds : List Char} : IsContent (cs ++ ds) ↔ IsContent cs ∧ IsContent ds :=
  List.forall_mem_append

theorem isContent_cons {c : Char} {cs : List Char} :
    IsContent (c :: cs) ↔ (isCharacter c = true ∧ c ≠ '?') ∧ IsContent cs :=
  List.forall_mem_cons

theorem isContent_of_areBlanks {cs : List Char} (h : AreBlanks cs) : IsContent cs := by
  intro c hc
  obtain rfl | rfl | rfl | rfl : c = ' ' ∨ c = '\t' ∨ c = '\n' ∨ c = '\r' := by
    simpa using h c hc
  all_goals decide

theorem IsAssignment.isContent {name value cs : List Char} (h : IsAssignment name value cs)
    (hname : IsContent name) : IsContent cs := by
  obtain ⟨left, right, mark, hleft, hright, hmark, hvalue⟩ := h
  have hquoted : IsContent value := fun c hc =>
    have hquotable := isQuotable_of_isWordCharacter (hvalue c hc)
    ⟨hquotable.isCharacter, hquotable.notMark⟩
  have hmark : isCharacter mark = true ∧ mark ≠ '?' := by
    rcases hmark with rfl | rfl <;> decide
  have hequals : isCharacter '=' = true ∧ '=' ≠ '?' := by decide
  have hnil : IsContent [] := by simp [IsContent]
  simp only [isContent_append, isContent_cons]
  exact ⟨hname, isContent_of_areBlanks hleft, hequals, isContent_of_areBlanks hright, hmark,
    hquoted, hmark, hnil⟩

theorem IsOptional.isContent {name cs : List Char} (h : IsOptional name cs)
    (hname : IsContent name) : IsContent cs := by
  cases h with
  | absent => simp [IsContent]
  | present hne hbefore h =>
    exact isContent_append.2 ⟨isContent_of_areBlanks hbefore, h.isContent hname⟩

/-- A processing instruction with the target `xml`, where something else than a space follows. -/
theorem remark?_xml {before content : List Char} (hbefore : AreBlanks before)
    (hspace : before.head?.all (· ≠ ' ') = true) (hne : before ≠ [])
    (hcontent : IsContent content) (hhead : content.head?.all (!isBlank ·) = true)
    (hfirst : content ≠ []) (rest : List Char) :
    remark? ('<' :: '?' :: 'x' :: 'm' :: 'l' :: (before ++ (content ++ '?' :: '>' :: rest))) =
      some rest := by
  obtain ⟨b, before, rfl⟩ := List.exists_cons_of_ne_nil hne
  have hb := hbefore.isBlank List.mem_cons_self
  have hname : name? (['x', 'm', 'l'] ++ (b :: before ++ (content ++ '?' :: '>' :: rest))) =
      some (['x', 'm', 'l'], b :: before ++ (content ++ '?' :: '>' :: rest)) :=
    name?_append (by decide)
      (by simp [isNamePart_of_isBlank hb])
  have hskip : skipBlanks (b :: before ++ (content ++ '?' :: '>' :: rest)) =
      content ++ '?' :: '>' :: rest :=
    skipBlanks_append_of_head? hbefore (by rwa [List.head?_append_of_ne_nil _ hfirst])
  have hend : upTo? ['?', '>'] (content ++ '?' :: '>' :: rest) = some (content, rest) :=
    upTo?_append (fun hmem => (hcontent '?' hmem).2 rfl) ['>'] rest
  have hxml : startsWith ['x', 'm', 'l', ' ']
      ('x' :: 'm' :: 'l' :: (b :: before ++ (content ++ '?' :: '>' :: rest))) = false := by
    have hb : ' ' ≠ b := by
      rintro rfl
      simp at hspace
    simp [startsWith, strip?, hb]
  have hall : content.all isCharacter = true := List.all_eq_true.2 fun c hc => (hcontent c hc).1
  have hread : instruction?
      ('x' :: 'm' :: 'l' :: (b :: before ++ (content ++ '?' :: '>' :: rest))) =
        some (['x', 'm', 'l'], content, rest) := by
    simp only [List.cons_append, List.nil_append] at hname hskip hxml ⊢
    simp only [instruction?, hname, hskip, hend, hxml, hall, Option.bind_eq_bind, Option.bind_some]
    rfl
  simp only [List.cons_append] at hread ⊢
  simp [remark?, strip?, hread]

/-- A declaration is read as one, unless its first blank is not a space : then it is passed over as
a processing instruction. -/
theorem IsDeclaration.strip?_cases {declaration : List Char} (h : IsDeclaration declaration)
    (rest : List Char) :
    (∃ behind, strip? ['<', '?', 'x', 'm', 'l', ' '] (declaration ++ rest) = some behind ∧
      declaration? behind = some rest) ∨
    (strip? ['<', '?', 'x', 'm', 'l', ' '] (declaration ++ rest) = none ∧
      remark? (declaration ++ rest) = some rest) := by
  obtain @⟨before, version, encoding, standalone, after, hne, hbefore, hversion, hencoding,
    hstandalone, hafter⟩ := h
  obtain ⟨b, before, rfl⟩ := List.exists_cons_of_ne_nil hne
  by_cases hb : b = ' '
  · subst hb
    have hread := declaration?_append (fun c hc => hbefore c (List.mem_cons_of_mem _ hc)) hversion
      hencoding hstandalone hafter rest
    exact .inl ⟨_, by simp [strip?], hread⟩
  · have hspace : (b :: before).head?.all (· ≠ ' ') = true := by simpa using hb
    have hhead : (version ++ (encoding ++ (standalone ++ after))).head? = some 'v' :=
      hversion.head?_append (by decide) _
    have hcontent : IsContent (version ++ (encoding ++ (standalone ++ after))) := by
      simp only [isContent_append]
      exact ⟨hversion.isContent (by decide), hencoding.isContent (by decide),
        hstandalone.isContent (by decide), isContent_of_areBlanks hafter⟩
    have hread := remark?_xml hbefore hspace hne hcontent (by rw [hhead]; rfl)
      (by rintro hnil; simp [hnil] at hhead) rest
    refine .inr ⟨by simp [strip?, Ne.symm hb], ?_⟩
    simpa using hread

/-! ## The prolog -/

/-- In front of a tag nothing but blanks is passed over. -/
theorem skipRemarks?_beginsTag {blanks cs : List Char} (hblanks : AreBlanks blanks)
    (h : BeginsTag cs) (fuel : Nat) : skipRemarks? (fuel + 1) (blanks ++ cs) = some cs := by
  obtain ⟨rest, rfl, hbang, hquestion⟩ := h
  have hskip : skipBlanks (blanks ++ '<' :: rest) = '<' :: rest :=
    skipBlanks_append_of_head? hblanks rfl
  have hremark : beginsRemark ('<' :: rest) = false := by
    cases rest with
    | nil => rfl
    | cons c rest =>
      have hc : '!' ≠ c ∧ '?' ≠ c := by
        simp only [List.head?_cons, ne_eq, Option.some.injEq] at hbang hquestion
        exact ⟨Ne.symm hbang, Ne.symm hquestion⟩
      simp [beginsRemark, startsWith, strip?, hc]
  simp [skipRemarks?, hskip, hremark]

/-- A text that begins with a tag has its root element there. -/
theorem read?_of_beginsTag {text : String} (h : BeginsTag text.toList) :
    read? text = rootElement? [] text.toList := by
  have hnil : AreBlanks [] := by decide
  have hremarks := skipRemarks?_beginsTag hnil h text.toList.length
  obtain ⟨rest, htext, hbang, hquestion⟩ := h
  rw [List.nil_append] at hremarks
  rw [htext, List.length_cons] at hremarks
  have hmark : strip? ['\uFEFF'] ('<' :: rest) = none := by simp [strip?]
  have hdeclaration : strip? ['<', '?', 'x', 'm', 'l', ' '] ('<' :: rest) = none := by
    cases rest with
    | nil => rfl
    | cons c rest =>
      have hc : '?' ≠ c := by simpa [eq_comm] using hquestion
      simp [strip?, hc]
  have hdoctype : strip? ['<', '!', 'D', 'O', 'C', 'T', 'Y', 'P', 'E'] ('<' :: rest) = none := by
    cases rest with
    | nil => rfl
    | cons c rest =>
      have hc : '!' ≠ c := by simpa [eq_comm] using hbang
      simp [strip?, hc]
  simp [read?, htext, hmark, hdeclaration, hdoctype, hremarks]

/-- A document type declaration is no remark, so the reader stops in front of it. -/
theorem skipRemarks?_doctype (name system : List Char) (fuel : Nat) (rest : List Char) :
    skipRemarks? (fuel + 1) ('\n' :: (doctype name system ++ rest)) =
      some (doctype name system ++ rest) := by
  simp [skipRemarks?, skipBlanks, isBlank, doctype, beginsRemark, startsWith, strip?]

/-- A declaration that is passed over leads to the document type declaration behind it. -/
theorem skipRemarks?_declaration {declaration : List Char} (h : IsDeclaration declaration)
    {name system rest : List Char}
    (hread : remark? (declaration ++ '\n' :: (doctype name system ++ rest)) =
      some ('\n' :: (doctype name system ++ rest))) :
    skipRemarks? ((declaration ++ '\n' :: (doctype name system ++ rest)).length + 1)
      (declaration ++ '\n' :: (doctype name system ++ rest)) =
        some (doctype name system ++ rest) := by
  obtain ⟨behind, rfl⟩ : ∃ behind, declaration = '<' :: '?' :: behind := by
    cases h
    exact ⟨_, rfl⟩
  have hremark : beginsRemark ('<' :: '?' :: behind ++ '\n' :: (doctype name system ++ rest)) =
      true := by
    simp [beginsRemark, startsWith, strip?]
  have hskip : skipBlanks ('<' :: '?' :: behind ++ '\n' :: (doctype name system ++ rest)) =
      '<' :: '?' :: behind ++ '\n' :: (doctype name system ++ rest) := by
    simp [skipBlanks, isBlank]
  rw [skipRemarks?]
  simp only [hskip, hremark, if_true, hread, Option.bind_eq_bind, Option.bind_some]
  exact skipRemarks?_doctype name system _ rest

section Prolog

variable {name system : List Char} (hname : IsName name)
  (hsystem : ∀ c ∈ system, isSystemCharacter c = true)

include hname hsystem

/-- An external subset is not fetched, and declares no entity. -/
theorem doctype?_doctype (rest : List Char) :
    strip? ['<', '!', 'D', 'O', 'C', 'T', 'Y', 'P', 'E'] (doctype name system ++ rest) =
        some ((doctype name system ++ rest).drop 9) ∧
      doctype? ((doctype name system ++ rest).drop 9) = some ([], rest) := by
  generalize hbehind : ' ' :: 'S' :: 'Y' :: 'S' :: 'T' :: 'E' :: 'M' :: ' ' :: '"' ::
    (system ++ '"' :: '>' :: rest) = behind
  have hdrop : (doctype name system ++ rest).drop 9 = [' '] ++ (name ++ behind) := by
    simp [doctype, ← hbehind]
  have hspace : isNamePart ' ' = false := isNamePart_of_isBlank rfl
  have hread : name? (name ++ behind) = some (name, behind) :=
    name?_append hname (by simp [← hbehind, hspace])
  have hhead : (name ++ behind).head?.all (!isBlank ·) = true := by
    rw [List.head?_append_of_ne_nil _ (by cases hname; simp)]
    exact hname.head?_isBlank
  have hblank : AreBlanks [' '] := by decide
  have hbegin := blanks?_append (by simp) hblank hhead
  have hquote : '"' ∉ system := fun hmem =>
    (isQuotable_of_isSystemCharacter (hsystem _ hmem)).notQuote rfl
  have hliteral := literal?_quoted (.inl rfl) hquote ('>' :: rest)
  refine ⟨by simp [doctype, strip?], ?_⟩
  rw [hdrop]
  simp only [doctype?, hbegin, hread, Option.bind_eq_bind, Option.bind_some]
  simp [← hbehind, skipBlanks, isBlank, startsWith, strip?, externalId?, spacedLiteral?, blanks?,
    hliteral]

/-- The root element stands behind a document type declaration that has been reached. -/
theorem read?_of_front {text : String} {front rest : List Char}
    (hmark : strip? ['\uFEFF'] text.toList = none)
    (hfront : (match strip? ['<', '?', 'x', 'm', 'l', ' '] text.toList with
      | some behind => declaration? behind
      | none => some text.toList) = some front)
    (hremarks : skipRemarks? (front.length + 1) front = some (doctype name system ++ rest)) :
    read? text = (skipRemarks? (rest.length + 1) rest).bind (rootElement? []) := by
  obtain ⟨hstrip, hread⟩ := doctype?_doctype hname hsystem rest
  rw [read?]
  simp only [hmark, Option.getD_none, Option.bind_eq_bind]
  cases hdeclaration : strip? ['<', '?', 'x', 'm', 'l', ' '] text.toList with
  | some behind =>
    rw [hdeclaration] at hfront
    simp only [hfront, Option.bind_some, hremarks, hstrip, hread]
  | none =>
    rw [hdeclaration] at hfront
    simp only [Option.some.inj hfront, Option.bind_some, hremarks, hstrip, hread]

/-- Behind an XML declaration and a document type declaration the root element is read as if it
stood at the beginning. -/
theorem read?_prolog {declaration : List Char} (hdeclaration : IsDeclaration declaration)
    {text : String} (h : BeginsTag text.toList) :
    read? (String.ofList (declaration ++ '\n' :: (doctype name system ++ '\n' :: text.toList))) =
      read? text := by
  have hcases := hdeclaration.strip?_cases ('\n' :: (doctype name system ++ '\n' :: text.toList))
  have hbreak : AreBlanks ['\n'] := by decide
  have hbehind := skipRemarks?_beginsTag hbreak h ('\n' :: text.toList).length
  have hmark : strip? ['\uFEFF']
      (declaration ++ '\n' :: (doctype name system ++ '\n' :: text.toList)) = none := by
    cases hdeclaration
    simp [strip?]
  have hroot : (skipRemarks? (('\n' :: text.toList).length + 1) ('\n' :: text.toList)).bind
      (rootElement? []) = rootElement? [] text.toList := congrArg (·.bind (rootElement? [])) hbehind
  rw [read?_of_beginsTag h, ← hroot]
  obtain ⟨behind, hstrip, hread⟩ | ⟨hstrip, hread⟩ := hcases
  · refine read?_of_front hname hsystem (by rwa [String.toList_ofList]) ?_
      (skipRemarks?_doctype name system _ _)
    simp only [String.toList_ofList, hstrip, hread]
  · refine read?_of_front hname hsystem (by rwa [String.toList_ofList]) ?_
      (skipRemarks?_declaration hdeclaration hread)
    simp only [String.toList_ofList, hstrip]

end Prolog

end Xml

open Xml

/-- A descriptor of any kind may have a prolog : an XML declaration of version 1.0, and a document
type declaration that names an external subset. Taking it in, by any registry, comes to the same as
without the prolog : to the failure that names it as malformed, or to the same registry and log. -/
theorem ingest_prolog (r : Registry) (kind : Kind) (origin : String)
    {declaration name system text : String} (hdeclaration : IsDeclaration declaration.toList)
    (hname : IsName name.toList) (hsystem : ∀ c ∈ system.toList, isSystemCharacter c = true)
    (htext : BeginsTag text.toList) :
    r.ingest ⟨kind, origin, declaration ++ "\n<!DOCTYPE " ++ name ++ " SYSTEM \"" ++ system
        ++ "\">\n" ++ text⟩ = r.ingest ⟨kind, origin, text⟩ := by
  have hsource : declaration ++ "\n<!DOCTYPE " ++ name ++ " SYSTEM \"" ++ system ++ "\">\n"
      ++ text = String.ofList (declaration.toList ++ '\n' :: (doctype name.toList system.toList ++
        '\n' :: text.toList)) := by
    rw [← String.toList_inj]
    simp [doctype]
  rw [Registry.ingest, Registry.ingest, hsource, read?_prolog hname hsystem hdeclaration htext]

/-- A declaration with a tab instead of its first space, before a descriptor that defines an
operation and before one that is malformed. -/
theorem ingest_prolog_tabbed :
    let declaration := "<?xml\tversion=\"1.0\" encoding = 'utf-8' ?>"
    let withProlog (text : String) : Source := ⟨.operations, "o.xml", declaration ++
      "\n<!DOCTYPE " ++ "o" ++ " SYSTEM \"" ++ "dtd/o.dtd" ++ "\">\n" ++ text⟩
    let well := "<o><operation name='X'/></o>"
    let ill := "<o><operation></o>"
    IsDeclaration declaration.toList ∧ IsName "o".toList ∧
      (∀ c ∈ "dtd/o.dtd".toList, isSystemCharacter c = true) ∧ BeginsTag well.toList ∧
      BeginsTag ill.toList ∧
      (Registry.empty.ingest (withProlog well)).map (·.1.operations.keys) = .ok ["X"] ∧
      (Registry.empty.ingest (withProlog ill)).map (·.1.operations.keys) =
        .error (.malformed .operations "o.xml") := by
  intro declaration withProlog well ill
  have hversion : IsAssignment ['v', 'e', 'r', 's', 'i', 'o', 'n'] ['1', '.', '0']
      "version=\"1.0\"".toList :=
    .quoted [] [] '"' (by decide) (by decide) (.inl rfl) (List.all_eq_true.1 (by decide))
  have hencoding : IsAssignment ['e', 'n', 'c', 'o', 'd', 'i', 'n', 'g'] ['u', 't', 'f', '-', '8']
      "encoding = 'utf-8'".toList :=
    .quoted [' '] [' '] '\'' (by decide) (by decide) (.inr rfl) (List.all_eq_true.1 (by decide))
  have hdeclaration : IsDeclaration declaration.toList := by
    have hparts := IsDeclaration.intro (List.cons_ne_nil '\t' []) (by decide) hversion
      (.present (List.cons_ne_nil ' ' []) (by decide) hencoding) .absent
      (show Text.AreBlanks [' '] by decide)
    have htext : declaration.toList = ['<', '?', 'x', 'm', 'l'] ++ (['\t'] ++
        ("version=\"1.0\"".toList ++ ([' '] ++ "encoding = 'utf-8'".toList ++ ([] ++
          ([' '] ++ ['?', '>']))))) := by decide
    rwa [htext]
  have hname : IsName "o".toList := by decide
  have hsystem : ∀ c ∈ "dtd/o.dtd".toList, isSystemCharacter c = true :=
    List.all_eq_true.1 (by decide)
  have hwell : BeginsTag well.toList :=
    ⟨"o><operation name='X'/></o>".toList, by decide, by decide, by decide⟩
  have hill : BeginsTag ill.toList := ⟨"o><operation></o>".toList, by decide, by decide, by decide⟩
  refine ⟨hdeclaration, hname, hsystem, hwell, hill, ?_, ?_⟩
  · rw [ingest_prolog _ _ _ hdeclaration hname hsystem hwell]
    decide +kernel
  · rw [ingest_prolog _ _ _ hdeclaration hname hsystem hill]
    decide +kernel

end ServiceContract
