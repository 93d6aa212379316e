import ServiceContract.Proofs.WrittenJson
import ServiceContract.Yaml.Token
/-!
# Blanks between tokens

The reader of YAML goes over a text with a cursor that knows its line and its place in bytes.
`Cursor.Passes` says of two cursors that some characters stand between them. Between two tokens the
reader passes over the blanks of JSON (`Progress.skips_skipToToken`), with one exception : where a
line may begin a key, and so outside of brackets, a tab is none (`admitsTabs`).

JSON knows two line breaks, and YAML three more. A text breaks its lines plainly
(`BreaksPlainly`) if it has none of these three.
-/

namespace ServiceContract.Yaml

open Text (AreBlanks)

/-! ## Lines -/

/-- Whether no character is a line break of YAML that JSON does not know. -/
def BreaksPlainly (cs : List Char) : Prop :=
  ∀ c ∈ cs, c ≠ '\u0085' ∧ c ≠ '\u2028' ∧ c ≠ '\u2029'

instance (cs : List Char) : Decidable (BreaksPlainly cs) := List.decidableBAll _ cs

/-- Whether no character ends a line. -/
def IsInline (cs : List Char) : Prop := ∀ c ∈ cs, isBreak c = false

theorem isInline_append {cs ds : List Char} : IsInline (cs ++ ds) ↔ IsInline cs ∧ IsInline ds :=
  List.forall_mem_append

theorem breaksPlainly_append {cs ds : List Char} :
    BreaksPlainly (cs ++ ds) ↔ BreaksPlainly cs ∧ BreaksPlainly ds :=
  List.forall_mem_append

/-- Whether a text begins with a character that may begin a token, if it begins with any. -/
def BeginsToken (cs : List Char) : Prop :=
  ∀ c ∈ cs.head?, isBlank c = false ∧ isBreak c = false ∧ c ≠ '#' ∧ c ≠ '\uFEFF'

/-! ## Cursors -/

namespace Cursor

theorem byteCount_cons (c : Char) (cs : List Char) :
    byteCount (c :: cs) = c.utf8Size + byteCount cs := by
  have hfold : ∀ (cs : List Char) (n : Nat),
      cs.foldl (fun n c => n + c.utf8Size) n = n + byteCount cs := by
    intro cs
    induction cs with
    | nil => simp [byteCount]
    | cons d cs ih =>
      intro n
      rw [byteCount, List.foldl_cons, List.foldl_cons, ih, ih (0 + d.utf8Size)]
      omega
  rw [byteCount, List.foldl_cons, hfold]
  omega

/-- Two texts have the bytes of both. -/
theorem byteCount_append (cs ds : List Char) :
    byteCount (cs ++ ds) = byteCount cs + byteCount ds := by
  induction cs with
  | nil => simp [byteCount]
  | cons c cs ih =>
    rw [List.cons_append, byteCount_cons, byteCount_cons, ih]
    omega

/-- Some characters stand between one cursor and another. The line is the same if none of them is a
break, and a later one otherwise. -/
structure Passes (c : Cursor) (cs : List Char) (d : Cursor) : Prop where
  rest : c.rest = cs ++ d.rest
  offset : d.offset = c.offset + byteCount cs
  stays : IsInline cs → d.line = c.line ∧ d.column = c.column + cs.length
  leaves : ¬ IsInline cs → c.line < d.line

theorem Passes.refl (c : Cursor) : c.Passes [] c :=
  ⟨rfl, rfl, fun _ => ⟨rfl, rfl⟩, fun h => absurd (by simp [IsInline]) h⟩

/-- What is passed in two parts is passed as a whole. -/
theorem Passes.trans {c d e : Cursor} {cs ds : List Char} (h : c.Passes cs d) (h' : d.Passes ds e) :
    c.Passes (cs ++ ds) e := by
  refine ⟨?_, ?_, fun hinline => ?_, fun hbroken => ?_⟩
  · rw [h.rest, h'.rest, List.append_assoc]
  · rw [h'.offset, h.offset, byteCount_append]
    omega
  · obtain ⟨hcs, hds⟩ := isInline_append.1 hinline
    have hfirst := h.stays hcs
    have hsecond := h'.stays hds
    rw [List.length_append]
    omega
  · rw [isInline_append, not_and_or] at hbroken
    by_cases hcs : IsInline cs
    · have hfirst := h.stays hcs
      have hsecond := h'.leaves (hbroken.resolve_left (not_not_intro hcs))
      omega
    · have hfirst := h.leaves hcs
      by_cases hds : IsInline ds
      · have hsecond := h'.stays hds
        omega
      · have hsecond := h'.leaves hds
        omega

/-- A text on one line is passed as it is, and its end is on the same line. -/
theorem passes_advanceBy {c : Cursor} {cs rest : List Char} (h : c.rest = cs ++ rest)
    (hinline : IsInline cs) : c.Passes cs (c.advanceBy cs.length) := by
  refine ⟨?_, ?_, fun _ => ⟨rfl, rfl⟩, fun hbroken => absurd hinline hbroken⟩
  · rw [advanceBy, h, List.drop_left]
  · rw [advanceBy, h, List.take_left]

theorem passes_advance {c : Cursor} {d : Char} {rest : List Char} (h : c.rest = d :: rest)
    (hd : isBreak d = false) : c.Passes [d] c.advance :=
  passes_advanceBy h (by simpa [IsInline] using hd)

theorem peek_of_rest {c : Cursor} {d : Char} {rest : List Char} (h : c.rest = d :: rest) :
    c.peek = some d := by
  rw [peek, h, List.head?_cons]

theorem rest_advance {c : Cursor} {d : Char} {rest : List Char} (h : c.rest = d :: rest) :
    c.advance.rest = rest := by
  rw [advance, advanceBy, h, List.drop_one, List.tail_cons]

/-- One character and some more are passed like all of them at once. -/
theorem advance_advanceBy {c : Cursor} {d : Char} {rest : List Char} (h : c.rest = d :: rest)
    (n : Nat) : c.advance.advanceBy n = c.advanceBy (n + 1) := by
  simp only [advanceBy, advance, h, List.drop_succ_cons, List.drop_zero, List.take_succ_cons,
    List.take_zero, byteCount_cons]
  rw [Cursor.mk.injEq]
  exact ⟨rfl, by simp [byteCount]; omega, rfl, by omega⟩

/-- The first of the characters that are taken may be passed before. -/
theorem takeWhile_snd_cons {c : Cursor} {d : Char} {rest : List Char} (h : c.rest = d :: rest)
    {p : Char → Bool} (hd : p d = true) : (c.takeWhile p).2 = (c.advance.takeWhile p).2 := by
  rw [takeWhile, takeWhile, h, rest_advance h, List.takeWhile_cons_of_pos hd]
  exact (advance_advanceBy h _).symm

/-- Where no character is to be taken the cursor stays. -/
theorem takeWhile_snd_of_neg {c : Cursor} {p : Char → Bool} (h : ∀ d ∈ c.rest.head?, p d = false) :
    (c.takeWhile p).2 = c := by
  have hnone : c.rest.takeWhile p = [] := by
    cases hrest : c.rest with
    | nil => rfl
    | cons d rest => exact List.takeWhile_cons_of_neg (by simp [h d (by simp [hrest])])
  rw [takeWhile, hnone]
  rfl

/-- A line break is passed as a whole, with a line feed behind a carriage return. -/
theorem exists_passes_nextLine {c : Cursor} {d : Char} {blanks tail : List Char}
    (h : c.rest = d :: (blanks ++ tail)) (hd : isBreak d = true) (htail : BeginsToken tail) :
    ∃ taken others, blanks = taken ++ others ∧ (∀ x ∈ taken, x = '\n') ∧
      c.Passes (d :: taken) c.nextLine.2 ∧ c.nextLine.2.rest = others ++ tail := by
  have hbroken : ∀ cs, ¬ IsInline (d :: cs) := fun cs hinline => by
    simp [hinline d List.mem_cons_self] at hd
  unfold nextLine
  split
  · rename_i behind hrest
    obtain ⟨rfl, hbehind⟩ := List.cons.inj (h.symm.trans hrest)
    cases blanks with
    | nil =>
      have hbreak := (htail '\n' (by rw [List.nil_append] at hbehind; simp [hbehind])).2.1
      simp [isBreak] at hbreak
    | cons x others =>
      obtain ⟨rfl, rfl⟩ := List.cons.inj hbehind
      refine ⟨['\n'], others, rfl, by simp, ⟨hrest, rfl, fun hinline => ?_, fun _ => ?_⟩, rfl⟩
      · exact absurd hinline (hbroken _)
      · exact Nat.lt_succ_self _
  · rename_i first behind _ hrest
    obtain ⟨rfl, rfl⟩ := List.cons.inj (h.symm.trans hrest)
    refine ⟨[], blanks, rfl, by simp, ⟨hrest, ?_, fun hinline => ?_, fun _ => ?_⟩, rfl⟩
    · simp [byteCount]
    · exact absurd hinline (hbroken _)
    · exact Nat.lt_succ_self _
  · rename_i hrest
    cases h.symm.trans hrest

end Cursor

/-! ## Blanks -/

/-- The blanks of JSON are blanks of YAML or end a line there. -/
theorem isBlank_or_isBreak {c : Char} (h : c ∈ [' ', '\t', '\n', '\r']) :
    isBlank c = true ∨ isBreak c = true := by
  simp only [List.mem_cons, List.not_mem_nil, or_false] at h
  obtain rfl | rfl | rfl | rfl := h <;> decide

/-- Whether tabs between two tokens stand only where they are blanks. The second argument tells
whether one is at the beginning. Behind a line break it is inside brackets only. -/
def admitsTabs (inFlow : Bool) : Bool → List Char → Bool
  | _, [] => true
  | tabs, c :: cs =>
    if c = '\t' then tabs && admitsTabs inFlow tabs cs
    else if c = ' ' then admitsTabs inFlow tabs cs
    else admitsTabs inFlow inFlow cs

theorem admitsTabs_inFlow (cs : List Char) : admitsTabs true true cs = true := by
  induction cs with
  | nil => rfl
  | cons c cs ih => simp [admitsTabs, ih]

namespace Progress

variable {p : Progress}

/-- Whether a tab is a blank at the next token. -/
def tabs (p : Progress) : Bool := p.inFlow || !p.keyAllowed

/-- One round : the line is passed up to its end, and then the next one is looked at. -/
theorem skipToToken_succ (fuel : Nat) (p : Progress) :
    skipToToken (fuel + 1) p =
      let c := if p.cursor.column = 0 && p.cursor.at? '\uFEFF' then p.cursor.advance else p.cursor
      let c := (c.takeWhile fun d => d = ' ' || (p.tabs && d = '\t')).2.skipComment
      if c.peek.any isBreak then
        skipToToken fuel
          (if p.inFlow then p.moveTo c.nextLine.2
            else { p.moveTo c.nextLine.2 with keyAllowed := true })
      else p.moveTo c := by
  rw [skipToToken]
  rfl

/-- A blank is passed over. -/
theorem skipToToken_advance {d : Char} {rest : List Char} (h : p.cursor.rest = d :: rest)
    (hd : (d = ' ' || (p.tabs && d = '\t')) = true) (fuel : Nat) :
    skipToToken (fuel + 1) p = skipToToken (fuel + 1) (p.moveTo p.cursor.advance) := by
  have hmark : p.cursor.at? '\uFEFF' = false := by
    have hne : d ≠ '\uFEFF' := by
      rintro rfl
      simp at hd
    simp [Cursor.at?, Cursor.peek, h, hne]
  rw [skipToToken_succ, skipToToken_succ]
  simp only [hmark, Bool.and_false, Bool.false_eq_true, if_false]
  rw [Cursor.takeWhile_snd_cons h hd]
  simp [moveTo, Cursor.advance, Cursor.advanceBy, tabs, inFlow]

/-- Progress behind a line break, which allows a key outside brackets. -/
def behindBreak (p : Progress) : Progress :=
  if p.inFlow then p.moveTo p.cursor.nextLine.2
  else { p.moveTo p.cursor.nextLine.2 with keyAllowed := true }

theorem behindBreak_cursor (p : Progress) : p.behindBreak.cursor = p.cursor.nextLine.2 := by
  unfold behindBreak
  split <;> rfl

theorem behindBreak_inFlow (p : Progress) : p.behindBreak.inFlow = p.inFlow := by
  unfold behindBreak
  split <;> rfl

/-- Outside brackets a new line allows no tabs. -/
theorem behindBreak_tabs (p : Progress) : p.behindBreak.tabs = p.inFlow := by
  unfold behindBreak
  split
  · rename_i hflow
    have htabs : (p.moveTo p.cursor.nextLine.2).tabs = (p.inFlow || !p.keyAllowed) := rfl
    rw [htabs, hflow]
    rfl
  · rename_i hflow
    exact Bool.or_false _

/-- Where neither a blank nor a comment begins, nothing is passed over but a line break. -/
theorem skipToToken_of_neg
    (h : ∀ d ∈ p.cursor.peek, (d = ' ' || (p.tabs && d = '\t')) = false ∧ d ≠ '#' ∧ d ≠ '\uFEFF')
    (fuel : Nat) :
    skipToToken (fuel + 1) p =
      if p.cursor.peek.any isBreak then skipToToken fuel p.behindBreak else p := by
  have hat : ∀ x, x = '#' ∨ x = '\uFEFF' → p.cursor.at? x = false := by
    intro x hx
    rw [Cursor.at?, decide_eq_false_iff_not]
    intro hpeek
    obtain ⟨-, hcomment, hmark⟩ := h x hpeek
    exact hx.elim hcomment hmark
  rw [skipToToken_succ]
  simp only [hat '\uFEFF' (.inr rfl), Bool.and_false, Bool.false_eq_true, if_false]
  rw [Cursor.takeWhile_snd_of_neg fun d hd => (h d hd).1, Cursor.skipComment, hat '#' (.inl rfl)]
  rfl

/-- Progress after blanks have been passed over, up to a tab that is none. Only the cursor moves,
and a line break outside brackets allows a key. -/
structure Skips (p : Progress) (blanks tail : List Char) (q : Progress) : Prop where
  same : q = { p with cursor := q.cursor, keyAllowed := q.keyAllowed }
  keyAllowed : p.inFlow = true → q.keyAllowed = p.keyAllowed
  passes : admitsTabs p.inFlow p.tabs blanks = true → p.cursor.Passes blanks q.cursor ∧
    q.cursor.rest = tail
  stops : admitsTabs p.inFlow p.tabs blanks = false → q.cursor.peek = some '\t'

theorem Skips.nil {tail : List Char} (hrest : p.cursor.rest = tail) : p.Skips [] tail p :=
  ⟨rfl, fun _ => rfl, fun _ => ⟨.refl _, hrest⟩, fun h => by cases h⟩

/-- Where tabs are not allowed the reader stops in front of one. -/
theorem Skips.tab {blanks tail : List Char} (hpeek : p.cursor.peek = some '\t')
    (htabs : p.tabs = false) : p.Skips ('\t' :: blanks) tail p := by
  refine ⟨rfl, fun _ => rfl, fun h => ?_, fun _ => hpeek⟩
  simp [admitsTabs, htabs] at h

/-- A blank on the line is passed. -/
theorem Skips.cons {d : Char} {blanks tail : List Char} {q : Progress}
    (h : p.cursor.rest = d :: (blanks ++ tail)) (hd : (d = ' ' || (p.tabs && d = '\t')) = true)
    (hq : (p.moveTo p.cursor.advance).Skips blanks tail q) : p.Skips (d :: blanks) tail q := by
  have hadmits : admitsTabs p.inFlow p.tabs (d :: blanks) = admitsTabs p.inFlow p.tabs blanks := by
    obtain rfl | ⟨htabs, rfl⟩ : d = ' ' ∨ p.tabs = true ∧ d = '\t' := by simpa using hd
    · simp [admitsTabs]
    · simp [admitsTabs, htabs]
  have hbreak : isBreak d = false := by
    obtain rfl | ⟨-, rfl⟩ : d = ' ' ∨ p.tabs = true ∧ d = '\t' := by simpa using hd
    · decide
    · decide
  refine ⟨hq.same, hq.keyAllowed, fun hall => ?_, fun hall => hq.stops (hadmits ▸ hall)⟩
  obtain ⟨hpasses, hrest⟩ := hq.passes (hadmits ▸ hall)
  exact ⟨(Cursor.passes_advance h hbreak).trans hpasses, hrest⟩

/-- A line break is passed, and what stands behind it is passed from a new line. -/
theorem Skips.lineBreak {d : Char} {taken others tail : List Char} {q : Progress}
    (hd : d ≠ ' ' ∧ d ≠ '\t') (htaken : ∀ x ∈ taken, x = '\n')
    (hpasses : p.cursor.Passes (d :: taken) p.cursor.nextLine.2)
    (hq : p.behindBreak.Skips others tail q) : p.Skips (d :: (taken ++ others)) tail q := by
  have hadmits : admitsTabs p.inFlow p.tabs (d :: (taken ++ others)) =
      admitsTabs p.behindBreak.inFlow p.behindBreak.tabs others := by
    rw [behindBreak_inFlow, behindBreak_tabs]
    have hlines : ∀ taken : List Char, (∀ x ∈ taken, x = '\n') →
        admitsTabs p.inFlow p.inFlow (taken ++ others) = admitsTabs p.inFlow p.inFlow others := by
      intro taken
      induction taken with
      | nil => intro _; rfl
      | cons x taken ih =>
        intro htaken
        rw [htaken x List.mem_cons_self, List.cons_append]
        simp [admitsTabs, ih fun y hy => htaken y (List.mem_cons_of_mem x hy)]
    simp [admitsTabs, hd, hlines taken htaken]
  refine ⟨?_, fun hflow => ?_, fun hall => ?_, fun hall => hq.stops (hadmits ▸ hall)⟩
  · rw [hq.same]
    unfold behindBreak
    split <;> rfl
  · rw [hq.keyAllowed (by rw [behindBreak_inFlow, hflow]), behindBreak, if_pos hflow]
    rfl
  · obtain ⟨hbehind, hrest⟩ := hq.passes (hadmits ▸ hall)
    rw [behindBreak_cursor] at hbehind
    exact ⟨hpasses.trans hbehind, hrest⟩

/-- Nothing is passed over before a token. -/
theorem skipToToken_of_beginsToken (h : BeginsToken p.cursor.rest) (fuel : Nat) :
    skipToToken (fuel + 1) p = p := by
  have hskip := skipToToken_of_neg (p := p) (fun d hd => by
    obtain ⟨hblank, -, hcomment, hmark⟩ := h d hd
    simp only [isBlank, Bool.or_eq_false_iff] at hblank
    simp [hblank, hcomment, hmark]) fuel
  have hbreak : p.cursor.peek.any isBreak = false := by
    cases hd : p.cursor.peek with
    | none => rfl
    | some d => exact (h d hd).2.1
  rw [hskip, hbreak]
  rfl

/-- A line break is passed over, and a tab that is no blank is not. -/
theorem skipToToken_of_not_blank {d : Char} {rest : List Char} (hrest : p.cursor.rest = d :: rest)
    (hmem : d ∈ [' ', '\t', '\n', '\r']) (hd : ¬ (d = ' ' || (p.tabs && d = '\t')) = true)
    (fuel : Nat) :
    skipToToken (fuel + 1) p = if isBreak d then skipToToken fuel p.behindBreak else p := by
  have hpeek : p.cursor.peek = some d := Cursor.peek_of_rest hrest
  rw [skipToToken_of_neg (p := p) (fun x hx => ?_) fuel, hpeek, Option.any_some]
  obtain rfl : d = x := Option.some.inj (hpeek.symm.trans hx)
  refine ⟨Bool.not_eq_true _ ▸ hd, ?_, ?_⟩ <;> rintro rfl <;> simp at hmem

/-- Blanks are passed over, up to a tab that is none. -/
theorem skips_skipToToken {blanks tail : List Char} (hb : AreBlanks blanks)
    (htail : BeginsToken tail) {fuel : Nat} (hfuel : blanks.length < fuel)
    (hrest : p.cursor.rest = blanks ++ tail) : p.Skips blanks tail (skipToToken fuel p) := by
  induction hn : blanks.length using Nat.strong_induction_on generalizing blanks fuel p with
  | h n ih =>
    obtain ⟨fuel, rfl⟩ : ∃ k, fuel = k + 1 := ⟨fuel - 1, by omega⟩
    cases blanks with
    | nil =>
      rw [skipToToken_of_beginsToken (hrest ▸ htail)]
      exact .nil hrest
    | cons d blanks =>
      have hbs : AreBlanks blanks := fun x hx => hb x (List.mem_cons_of_mem d hx)
      have hmem := hb d List.mem_cons_self
      simp only [List.length_cons] at hn hfuel
      by_cases hd : (d = ' ' || (p.tabs && d = '\t')) = true
      · rw [skipToToken_advance hrest hd]
        exact .cons hrest hd (ih blanks.length (by omega) hbs (by omega)
          (Cursor.rest_advance hrest) rfl)
      · rw [skipToToken_of_not_blank hrest hmem hd]
        by_cases hbreak : isBreak d = true
        · obtain ⟨taken, others, rfl, htaken, hpasses, hbehind⟩ :=
            Cursor.exists_passes_nextLine hrest hbreak htail
          have hne : d ≠ ' ' ∧ d ≠ '\t' := by
            constructor <;> rintro rfl <;> simp [isBreak] at hbreak
          rw [List.length_append] at hn hfuel
          rw [if_pos hbreak]
          refine .lineBreak hne htaken hpasses (ih others.length (by omega) ?_ (by omega) ?_ rfl)
          · exact fun x hx => hbs x (List.mem_append_right _ hx)
          · rw [behindBreak_cursor, hbehind]
        · have hblank := (isBlank_or_isBreak hmem).resolve_right hbreak
          obtain rfl | rfl : d = ' ' ∨ d = '\t' := by simpa [isBlank] using hblank
          · simp at hd
          · rw [if_neg hbreak]
            exact .tab (Cursor.peek_of_rest hrest) (by simpa using hd)

end Progress

end ServiceContract.Yaml
