import ServiceContract.Proofs.Scalars
/-!
# Values of JSON in tokens of YAML

A value of JSON is a collection of YAML in brackets, and its tokens can be said beforehand
(`Written.tokens`) : those of its text, and before the name of a member the token that announces a
key, if the colon is near enough. Between two tokens the reader of YAML is in a state that the text
behind it does not touch (`Progress.Awaits`), and from one such state it comes to another
(`Progress.Reads`), token by token, up to the end of the value (`Progress.Awaits.reads_collection`).
So the tokens of a text are those of its value (`tokens?_written`). The reader refuses a text only
for a character that is not printable, for a tab where a line may begin a key, and for a string that
is not legible.
-/

namespace ServiceContract

/-! ## The tokens of written values -/

namespace Json

open Yaml (Token Cursor)

/-- Whether a name is near enough to its colon to be a key of YAML : on one line, and in at most
1024 bytes. -/
def Label.isNear (l : Label) : Bool :=
  l.gap.text.all (!Yaml.isBreak ·) && Cursor.byteCount l.text ≤ 1024

/-- The tokens of a name and its colon. The name is announced as a key if it is near. -/
def Label.tokens (l : Label) : List Token :=
  (if l.isNear then [.key] else []) ++ [.scalar .quoted (textOf l.name), .value]

/-- Whether a value is an array or an object. -/
def Written.isCollection : Written → Bool
  | .literal .. | .string _ => false
  | _ => true

mutual

/-- The tokens of a value. -/
def Written.tokens : Written → List Token
  | .literal cs _ => [.scalar .plain (String.ofList cs)]
  | .string pieces => [.scalar .quoted (textOf pieces)]
  | .emptyArray _ => [.flowSequence, .flowSequenceEnd]
  | .array items => .flowSequence :: (items.tokens ++ [.flowSequenceEnd])
  | .emptyObject _ => [.flowMapping, .flowMappingEnd]
  | .object members => .flowMapping :: (members.tokens ++ [.flowMappingEnd])

/-- The tokens of items. -/
def WrittenItems.tokens : WrittenItems → List Token
  | .last _ v _ => v.tokens
  | .next _ v _ rest => v.tokens ++ .comma :: rest.tokens

/-- The tokens of members. -/
def WrittenMembers.tokens : WrittenMembers → List Token
  | .last label _ v _ => label.tokens ++ v.tokens
  | .next label _ v _ rest => label.tokens ++ (v.tokens ++ .comma :: rest.tokens)

end

/-- Whether no tab stands outside of the root where a line may begin a key. Behind the root this is
so from the first line break on. -/
def WrittenText.isUntabbed (w : WrittenText) : Bool :=
  Yaml.admitsTabs false false w.before.text && Yaml.admitsTabs false true w.after.text

end Json

namespace Yaml

open Text (AreBlanks)
open Json (Piece IsLiteral Label Written WrittenItems WrittenMembers WrittenText quoted
  textOf)

namespace Progress

/-! ## Where reading leads -/

/-- Whether progress leads to some tokens, or to none, in any number of steps that suffices. -/
def Leads (p : Progress) (r : Option (List Token)) : Prop :=
  ∀ fuel, p.cursor.rest.length < fuel → (run? fuel p).map (·.tokens.reverse) = r

/-- Whether progress leads where all progress of some kind leads, if what is read on the way is
legible, and to no tokens otherwise. -/
def Reads (p : Progress) (legible : Bool) (P : Progress → Prop) : Prop :=
  ∀ r, (∀ q, P q → Leads q r) → Leads p (if legible then r else none)

theorem Reads.trans {p : Progress} {legible legible' : Bool} {P Q : Progress → Prop}
    (h : p.Reads legible P) (h' : ∀ q, P q → q.Reads legible' Q) :
    p.Reads (legible && legible') Q := by
  intro r hr
  have hlead := h _ fun q hq => h' q hq r hr
  cases legible <;> cases legible' <;> simpa using hlead

theorem Reads.of {p : Progress} {P : Progress → Prop} (h : P p) : p.Reads true P :=
  fun _ hr => hr p h

theorem Reads.mono {p : Progress} {legible : Bool} {P Q : Progress → Prop}
    (h : p.Reads legible P) (hPQ : ∀ q, P q → Q q) : p.Reads legible Q :=
  fun r hr => h r fun q hq => hr q (hPQ q hq)

/-- Progress that has read some tokens and stands inside so many brackets, with no collection
outside of them and no place where a key must begin. -/
structure IsCalm (done : List Token) (depth : Nat) (p : Progress) : Prop where
  tokens : p.tokens = done.reverse
  depth : p.places.length = depth
  indent : p.indent = -1
  outer : p.outer = []
  optional : ∀ place ∈ p.place :: p.places, ∀ k ∈ place, k.required = false

/-- Calm progress in front of a text, with blanks between. -/
structure Awaits (done : List Token) (depth : Nat) (text : List Char) (p : Progress) : Prop where
  calm : p.IsCalm done depth
  rest : ∃ blanks, AreBlanks blanks ∧ admitsTabs p.inFlow p.tabs blanks = true ∧
    p.cursor.rest = blanks ++ text

variable {p q : Progress} {done : List Token} {depth : Nat}

theorem IsCalm.inFlow (h : p.IsCalm done (depth + 1)) : p.inFlow = true := by
  have hne : p.places ≠ [] := List.ne_nil_of_length_eq_add_one h.depth
  simp [Progress.inFlow, hne]

theorem IsCalm.awaits (h : p.IsCalm done (depth + 1)) {blanks text : List Char}
    (hb : AreBlanks blanks) (hrest : p.cursor.rest = blanks ++ text) :
    p.Awaits done (depth + 1) text := by
  refine ⟨h, blanks, hb, ?_, hrest⟩
  rw [Progress.tabs, h.inFlow, Bool.true_or]
  exact admitsTabs_inFlow blanks

/-- Blanks between brackets make no difference. -/
theorem Awaits.skip {blanks text : List Char} (hb : AreBlanks blanks)
    (h : p.Awaits done (depth + 1) (blanks ++ text)) : p.Awaits done (depth + 1) text := by
  obtain ⟨hcalm, before, hbefore, -, hrest⟩ := h
  rw [← List.append_assoc] at hrest
  exact hcalm.awaits (fun c hc => (List.mem_append.1 hc).elim (hbefore c) (hb c)) hrest

/-- Progress without the places that are too far behind. -/
def fresh (p : Progress) : Progress :=
  { p with
    place := p.place.filter (!p.isStale ·)
    places := p.places.map fun k => k.filter (!p.isStale ·) }

theorem IsCalm.dropStale? (h : p.IsCalm done depth) : p.dropStale? = some p.fresh := by
  rw [Progress.dropStale?, if_neg]
  · rfl
  · rw [List.any_eq_true]
    rintro ⟨place, hplace, hany⟩
    obtain ⟨k, hk, hrequired⟩ := (Option.any_eq_true _ _).1 hany
    rw [h.optional place hplace k hk, Bool.and_false] at hrequired
    cases hrequired

theorem IsCalm.fresh (h : p.IsCalm done depth) : p.fresh.IsCalm done depth := by
  refine ⟨h.tokens, ?_, h.indent, h.outer, fun place hplace k hk => ?_⟩
  · rw [Progress.fresh, List.length_map, h.depth]
  · obtain rfl | hplaces := List.mem_cons.1 hplace
    · exact h.optional _ List.mem_cons_self k (Option.mem_filter_iff.1 hk).1
    · obtain ⟨around, haround, rfl⟩ := List.mem_map.1 hplaces
      exact h.optional _ (List.mem_cons_of_mem _ haround) k (Option.mem_filter_iff.1 hk).1

theorem IsCalm.unindentTo (h : p.IsCalm done depth) (column : Int) : p.unindentTo column = p := by
  rw [Progress.unindentTo, h.outer]
  exact ite_self p

/-- Progress at the next token. -/
structure IsReady (p : Progress) (blanks tail : List Char) (q : Progress) : Prop where
  passes : p.cursor.Passes blanks q.cursor
  rest : q.cursor.rest = tail
  count : q.count = p.count
  keyAllowed : p.inFlow = true → q.keyAllowed = p.keyAllowed
  place : q.place = p.place.filter (!q.isStale ·)

theorem IsCalm.of_skips (h : p.IsCalm done depth) {blanks tail : List Char}
    (hq : p.Skips blanks tail q) : q.IsCalm done depth := by
  rw [hq.same]
  exact ⟨h.tokens, h.depth, h.indent, h.outer, h.optional⟩

/-- In front of a token the reader passes over the blanks, and then the token decides. -/
theorem IsCalm.exists_run?_succ (h : p.IsCalm done depth) {blanks tail : List Char}
    (hb : AreBlanks blanks) (htail : BeginsToken tail) (hrest : p.cursor.rest = blanks ++ tail)
    (hadmits : admitsTabs p.inFlow p.tabs blanks = true) {fuel : Nat}
    (hfuel : blanks.length ≤ fuel) :
    ∃ q, q.IsCalm done depth ∧ p.IsReady blanks tail q ∧
      run? (fuel + 1) p = tail.head?.elim q.finish? fun d => q.next? d >>= run? fuel := by
  have hskips := skips_skipToToken hb htail (Nat.lt_succ_of_le hfuel) hrest
  obtain ⟨hpasses, hbehind⟩ := hskips.passes hadmits
  rw [run?]
  generalize skipToToken (fuel + 1) p = s at hskips hpasses hbehind
  have hs := h.of_skips hskips
  refine ⟨s.fresh, hs.fresh, ⟨hpasses, hbehind, ?_, hskips.keyAllowed, ?_⟩, ?_⟩
  · rw [hskips.same]
    rfl
  · rw [Progress.fresh, hskips.same]
    rfl
  · have hpeek : s.fresh.cursor.peek = tail.head? := by rw [← hbehind]; rfl
    rw [hs.dropStale?]
    simp only [Option.bind_eq_bind, Option.bind_some, hs.fresh.unindentTo, hpeek]
    cases tail <;> rfl

/-- What is read is decided by the next token. -/
theorem Awaits.reads_of_next? {d : Char} {tail : List Char}
    (h : p.Awaits done depth (d :: tail)) (hd : BeginsToken (d :: tail)) {legible : Bool}
    {P : Progress → Prop}
    (hnext : ∀ blanks q, q.IsCalm done depth → p.IsReady blanks (d :: tail) q →
      if legible then ∃ q', q.next? d = some q' ∧ P q' ∧ q'.cursor.rest.length ≤ tail.length
      else q.next? d = none) :
    p.Reads legible P := by
  intro r hr fuel hfuel
  obtain ⟨hcalm, blanks, hb, hadmits, hrest⟩ := h
  rw [hrest, List.length_append, List.length_cons] at hfuel
  obtain ⟨fuel, rfl⟩ : ∃ k, fuel = k + 1 := ⟨fuel - 1, by omega⟩
  obtain ⟨q, hq, hready, hrun⟩ :=
    hcalm.exists_run?_succ hb hd hrest hadmits (show blanks.length ≤ fuel by omega)
  have hstep := hnext blanks q hq hready
  rw [hrun, List.head?_cons]
  cases legible with
  | false =>
    simp only [Bool.false_eq_true, if_false] at hstep ⊢
    simp [hstep]
  | true =>
    simp only [if_true] at hstep ⊢
    obtain ⟨q', hq', hP, hshort⟩ := hstep
    simpa [hq'] using hr q' hP fuel (by omega)

/-! ## Single tokens -/

theorem IsCalm.dropPlace? (h : p.IsCalm done depth) :
    p.dropPlace? = some { p with place := none } := by
  rw [Progress.dropPlace?, if_neg]
  intro hany
  obtain ⟨k, hk, hrequired⟩ := (Option.any_eq_true _ _).1 hany
  rw [h.optional _ List.mem_cons_self k hk] at hrequired
  cases hrequired

theorem IsCalm.withKey (h : p.IsCalm done depth) (place : Option KeyPlace) (keyAllowed : Bool)
    (hplace : ∀ k ∈ place, k.required = false) :
    IsCalm done depth { p with place, keyAllowed } := by
  refine ⟨h.tokens, h.depth, h.indent, h.outer, fun around haround => ?_⟩
  obtain rfl | haround := List.mem_cons.1 haround
  · exact hplace
  · exact h.optional around (List.mem_cons_of_mem _ haround)

/-- A place of a key is kept in mind, where one is allowed. -/
theorem IsCalm.exists_savePlace? (h : p.IsCalm done depth) :
    ∃ place, p.savePlace? = some { p with place } ∧ (∀ k ∈ place, k.required = false) ∧
      (p.keyAllowed = true → place = some ⟨false, p.count, p.cursor⟩) := by
  by_cases hallowed : p.keyAllowed = true
  · have hindent : ¬ p.indent = p.cursor.column := by
      rw [h.indent]
      omega
    refine ⟨some ⟨false, p.count, p.cursor⟩, ?_, by simp, fun _ => rfl⟩
    simp [savePlace?, hallowed, h.dropPlace?, hindent]
  · exact ⟨p.place, if_neg hallowed, h.optional _ List.mem_cons_self, fun h => absurd h hallowed⟩

/-- Calm progress adds a token and moves on. -/
theorem IsCalm.awaits_push (h : p.IsCalm done depth) (t : Token) {c : Cursor} {text : List Char}
    (hc : c.rest = text) : ((p.push t).moveTo c).Awaits (done ++ [t]) depth text := by
  refine ⟨⟨?_, h.depth, h.indent, h.outer, h.optional⟩, [], by simp [AreBlanks], rfl, hc⟩
  rw [List.reverse_append, ← h.tokens]
  rfl

/-- A bracket opens, and a key may begin behind it. -/
theorem IsCalm.exists_openFlow? (h : p.IsCalm done depth) (t : Token) {d : Char}
    {tail : List Char} (hrest : p.cursor.rest = d :: tail) :
    ∃ q, p.openFlow? t = some q ∧ q.Awaits (done ++ [t]) (depth + 1) tail ∧
      q.keyAllowed = true ∧ q.cursor.rest = tail := by
  obtain ⟨place, hsave, hplace, -⟩ := h.exists_savePlace?
  have hinner : IsCalm done (depth + 1)
      { p with places := place :: p.places, place := none, keyAllowed := true } := by
    refine ⟨h.tokens, by simp [h.depth], h.indent, h.outer, ?_⟩
    simp only [List.forall_mem_cons]
    exact ⟨by simp, hplace, fun around hmem => h.optional around (List.mem_cons_of_mem _ hmem)⟩
  have hbehind := Cursor.rest_advance hrest
  refine ⟨_, ?_, hinner.awaits_push t hbehind, rfl, hbehind⟩
  rw [openFlow?, hsave]
  rfl

/-- Calm progress right behind a bracket that closes. -/
structure IsBehind (done : List Token) (depth : Nat) (text : List Char) (p : Progress) : Prop where
  calm : p.IsCalm done depth
  keyAllowed : p.keyAllowed = false
  rest : p.cursor.rest = text

/-- A bracket closes. -/
theorem IsCalm.exists_closeFlow? (h : p.IsCalm done (depth + 1)) (t : Token) {d : Char}
    {tail : List Char} (hrest : p.cursor.rest = d :: tail) :
    ∃ q, p.closeFlow? t = some q ∧ q.IsBehind (done ++ [t]) depth tail := by
  have hplaces := h.depth
  have houter : IsCalm done depth
      { p with place := p.places.head?.join, places := p.places.tail, keyAllowed := false } := by
    cases hcases : p.places with
    | nil => simp [hcases] at hplaces
    | cons place places =>
      refine ⟨h.tokens, by simpa [hcases] using hplaces, h.indent, h.outer, fun around hmem => ?_⟩
      refine h.optional around (List.mem_cons_of_mem _ ?_)
      simpa [hcases] using hmem
  have hbehind := Cursor.rest_advance hrest
  refine ⟨_, ?_, (houter.awaits_push t hbehind).calm, rfl, hbehind⟩
  rw [closeFlow?, h.dropPlace?]
  rfl

/-- Behind a comma a key may begin. -/
theorem Awaits.reads_comma {tail : List Char} (h : p.Awaits done (depth + 1) (',' :: tail)) :
    p.Reads true fun q => q.Awaits (done ++ [.comma]) (depth + 1) tail ∧ q.keyAllowed = true := by
  refine h.reads_of_next? (by simp [BeginsToken, isBlank, isBreak]) fun blanks q hq hready => ?_
  have hbehind := Cursor.rest_advance hready.rest
  have hnext : q.next? ',' = q.comma? := by simp [next?, atMarker_of_rest hready.rest]
  refine ⟨_, ?_, ⟨(hq.withKey none true (by simp)).awaits_push .comma hbehind, rfl⟩, ?_⟩
  · rw [hnext, comma?, hq.dropPlace?]
    rfl
  · exact Nat.le_of_eq (congrArg List.length hbehind)

/-- The brackets that open, with their tokens. -/
def openers : List (Char × Token) := [('[', .flowSequence), ('{', .flowMapping)]

/-- The brackets that close, with their tokens. -/
def finishers : List (Char × Token) := [(']', .flowSequenceEnd), ('}', .flowMappingEnd)]

theorem next?_openers {d : Char} {t : Token} (ht : (d, t) ∈ openers) {tail : List Char}
    (hrest : p.cursor.rest = d :: tail) : p.next? d = p.openFlow? t := by
  simp only [openers, List.mem_cons, List.not_mem_nil, or_false, Prod.mk.injEq] at ht
  obtain ⟨rfl, rfl⟩ | ⟨rfl, rfl⟩ := ht <;> simp [next?, atMarker_of_rest hrest]

theorem next?_finishers {d : Char} {t : Token} (ht : (d, t) ∈ finishers) {tail : List Char}
    (hrest : p.cursor.rest = d :: tail) : p.next? d = p.closeFlow? t := by
  simp only [finishers, List.mem_cons, List.not_mem_nil, or_false, Prod.mk.injEq] at ht
  obtain ⟨rfl, rfl⟩ | ⟨rfl, rfl⟩ := ht <;> simp [next?, atMarker_of_rest hrest]

theorem beginsToken_brackets {d : Char} {t : Token} (ht : (d, t) ∈ openers ++ finishers)
    (tail : List Char) : BeginsToken (d :: tail) := by
  simp only [openers, finishers, List.mem_append, List.mem_cons, List.not_mem_nil, or_false,
    Prod.mk.injEq] at ht
  obtain (⟨rfl, -⟩ | ⟨rfl, -⟩) | ⟨rfl, -⟩ | ⟨rfl, -⟩ := ht <;>
    simp [BeginsToken, isBlank, isBreak]

theorem Awaits.reads_openFlow {d : Char} {t : Token} (ht : (d, t) ∈ openers) {tail : List Char}
    (h : p.Awaits done depth (d :: tail)) :
    p.Reads true fun q => q.Awaits (done ++ [t]) (depth + 1) tail ∧ q.keyAllowed = true := by
  have hbegins := beginsToken_brackets (List.mem_append_left finishers ht) tail
  refine h.reads_of_next? hbegins fun blanks q hq hready => ?_
  obtain ⟨q', hopen, hawaits, hallowed, hbehind⟩ := hq.exists_openFlow? t hready.rest
  refine ⟨q', ?_, ⟨hawaits, hallowed⟩, Nat.le_of_eq (congrArg List.length hbehind)⟩
  rw [next?_openers ht hready.rest, hopen]

theorem Awaits.reads_closeFlow {d : Char} {t : Token} (ht : (d, t) ∈ finishers)
    {tail : List Char} (h : p.Awaits done (depth + 1) (d :: tail)) :
    p.Reads true (IsBehind (done ++ [t]) depth tail) := by
  have hbegins := beginsToken_brackets (List.mem_append_right openers ht) tail
  refine h.reads_of_next? hbegins fun blanks q hq hready => ?_
  obtain ⟨q', hclose, hbehind⟩ := hq.exists_closeFlow? t hready.rest
  refine ⟨q', ?_, hbehind, Nat.le_of_eq (congrArg List.length hbehind.rest)⟩
  rw [next?_finishers ht hready.rest, hclose]

/-- What stands between two brackets is read together with them. -/
theorem Awaits.reads_between {d e : Char} {t u : Token} (ht : (d, t) ∈ openers)
    (hu : (e, u) ∈ finishers) {inner tail : List Char} (between : List Token) {legible : Bool}
    (h : p.Awaits done depth (d :: (inner ++ e :: tail)))
    (hinner : ∀ q : Progress, q.Awaits (done ++ [t]) (depth + 1) (inner ++ e :: tail) →
      q.keyAllowed = true →
      q.Reads legible (Awaits (done ++ [t] ++ between) (depth + 1) (e :: tail))) :
    p.Reads legible (IsBehind (done ++ t :: (between ++ [u])) depth tail) := by
  have hread : p.Reads (true && (legible && true)) _ :=
    (h.reads_openFlow ht).trans fun q hq =>
      (hinner q hq.1 hq.2).trans fun r hr => hr.reads_closeFlow hu
  simpa using hread

/-! ## Scalars and labels -/

/-- A string is read where it is legible. Where a key is allowed, its place is kept in mind. -/
theorem Awaits.reads_string {pieces : List Piece} {tail : List Char}
    (h : p.Awaits done (depth + 1) (quoted pieces ++ tail))
    (hplain : BreaksPlainly (quoted pieces)) :
    p.Reads (pieces.all Piece.isLegible) fun q =>
      q.IsCalm (done ++ [.scalar .quoted (textOf pieces)]) (depth + 1) ∧ q.cursor.rest = tail ∧
        (p.keyAllowed = true → ∃ k, q.place = some k ∧ q.count = k.count + 1 ∧
          k.mark.Passes (quoted pieces) q.cursor) := by
  refine h.reads_of_next? (by simp [BeginsToken, isBlank, isBreak]) fun blanks q hq hready => ?_
  have hnext : q.next? '"' = q.word? fun c =>
      (quoted? c).map fun found => (.scalar .quoted (String.ofList found.1), found.2) := by
    simp [next?, atMarker_of_rest hready.rest]
  obtain ⟨c, hpasses, hbehind, hread⟩ := quoted?_quoted hplain hready.rest
  obtain ⟨place, hsave, hplace, hkey⟩ := hq.exists_savePlace?
  rw [hnext, word?, hsave]
  cases hall : pieces.all Piece.isLegible with
  | false => simp [hread, hall]
  | true =>
    have hawaits :=
      (hq.withKey place false hplace).awaits_push (.scalar .quoted (textOf pieces)) hbehind
    refine ⟨_, by simp [hread, hall]; rfl, ⟨hawaits.calm, hbehind, fun hallowed => ?_⟩, ?_⟩
    · rw [← hready.keyAllowed h.calm.inFlow] at hallowed
      exact ⟨_, hkey hallowed, rfl, hpasses⟩
    · have hshort : c.rest.length ≤ (pieces.flatMap Piece.text ++ ['"'] ++ tail).length := by
        rw [hbehind, List.length_append]
        omega
      exact hshort

/-- A literal is no other token. -/
theorem next?_literal {d : Char} {others rest : List Char} (h : IsLiteral (d :: others))
    (hrest : p.cursor.rest = d :: (others ++ rest)) : p.next? d = p.plainScalar? := by
  obtain ⟨d', others', heq, hd, hsign⟩ := exists_cons_of_isLiteral h
  obtain ⟨rfl, rfl⟩ := List.cons.inj heq
  have hsolid := isSolid_of_isLiteral h
  have hindicator := not_mem_indicators hd
  simp only [indicators, List.mem_cons, List.not_mem_nil, or_false, not_or] at hindicator
  simp only [List.all_cons, isSolid, Bool.and_eq_true, Bool.not_eq_true'] at hsolid
  have hdot := atMarker_of_rest hrest fun hd => absurd hd hindicator.2.1
  by_cases hminus : d = '-'
  · obtain ⟨e, digits, rfl, he⟩ := hsign hminus
    have hdash := atMarker_of_rest hrest (x := '-') fun _ => by
      rintro ⟨⟩
      exact absurd he (by decide)
    have hdigit := isSolid_of_isDecimal he
    simp only [isSolid, Bool.and_eq_true, Bool.not_eq_true'] at hdigit
    have hstands : Cursor.endsWord (some e) = false := by simp [Cursor.endsWord, hdigit]
    subst hminus
    simp [next?, beginsPlain, hdash, hdot, peekAt_one hrest, hstands, hdigit]
  · have hdash := atMarker_of_rest hrest fun hd => absurd hd hminus
    simp [next?, beginsPlain, hdash, hdot, hindicator, hminus, hsolid]

/-- A literal is read as a plain scalar, and with it the blanks behind it. -/
theorem Awaits.reads_literal {cs blanks tail : List Char} (hcs : IsLiteral cs)
    (hb : AreBlanks blanks) {e : Char} (he : e ∈ closers)
    (h : p.Awaits done (depth + 1) (cs ++ (blanks ++ e :: tail))) :
    p.Reads true
      (Awaits (done ++ [.scalar .plain (String.ofList cs)]) (depth + 1) (e :: tail)) := by
  obtain ⟨d, others, rfl, -, -⟩ := exists_cons_of_isLiteral hcs
  refine h.reads_of_next? ?_ fun before q hq hready => ?_
  · have hsolid := isSolid_of_isLiteral hcs
    simp only [List.all_cons, isSolid, Bool.and_eq_true, Bool.not_eq_true',
      decide_eq_true_eq] at hsolid
    simp [BeginsToken, hsolid]
  · obtain ⟨place, hsave, hplace, -⟩ := hq.exists_savePlace?
    obtain ⟨broken, c, hbehind, hread⟩ := plain?_literal hcs hb he hready.rest
    have hlimit : (q.indent + 1).toNat = 0 := by rw [hq.indent]; rfl
    refine ⟨_, ?_, (hq.withKey place broken hplace).awaits_push _ hbehind, ?_⟩
    · rw [next?_literal hcs hready.rest, plainScalar?, hsave]
      change (plain? q.inFlow (q.indent + 1).toNat q.cursor >>= _) = _
      rw [hlimit, hq.inFlow, hread]
      rfl
    · have hshort : c.rest.length ≤ (others ++ (blanks ++ e :: tail)).length := by
        rw [hbehind, List.length_append, List.length_append]
        omega
      exact hshort

/-! ### Labels -/

/-- A place of a key is too far behind at the colon exactly if the name is not near. -/
theorem isStale_label {l : Label} (hplain : BreaksPlainly (quoted l.name)) {k : KeyPlace}
    (h : k.mark.Passes l.text p.cursor) : p.isStale k = !l.isNear := by
  have hinline := isInline_quoted hplain
  have hgap : l.gap.text.all (!isBreak ·) = true ↔ IsInline l.gap.text := by simp [IsInline]
  by_cases hall : l.gap.text.all (!isBreak ·) = true
  · have hline := (h.stays (isInline_append.2 ⟨hinline, hgap.1 hall⟩)).1
    have hbytes : (k.mark.offset + 1024 < p.cursor.offset) ↔
        ¬ Cursor.byteCount l.text ≤ 1024 := by
      rw [h.offset]
      omega
    simp only [isStale, hline, hbytes, Label.isNear, hall, lt_irrefl, decide_false, Bool.false_or,
      decide_not, Bool.true_and]
  · have hline := h.leaves fun hinline => hall (hgap.2 (isInline_append.1 hinline).2)
    simp [isStale, Label.isNear, hall, hline]

theorem indentTo_of_inFlow (h : p.inFlow = true) (column before : Nat) (t : Token) :
    p.indentTo column before t = p := by
  simp [indentTo, h]

/-- A token is put back by one place. -/
theorem IsCalm.pushAt {t : Token} (h : p.IsCalm (done ++ [t]) depth) {n : Nat}
    (hcount : p.count = n + 1) (u : Token) : (p.pushAt n u).IsCalm (done ++ [u, t]) depth := by
  refine ⟨?_, h.depth, h.indent, h.outer, h.optional⟩
  have htokens : p.tokens = t :: done.reverse := by simpa using h.tokens
  simp [Progress.pushAt, hcount, htokens]

/-- At a colon behind the place of a key, the key is announced. -/
theorem IsCalm.exists_value?_key {t : Token} (h : p.IsCalm (done ++ [t]) (depth + 1))
    {k : KeyPlace} (hplace : p.place = some k) (hcount : p.count = k.count + 1) {d : Char}
    {tail : List Char} (hrest : p.cursor.rest = d :: tail) :
    ∃ q, p.value? = some q ∧ q.Awaits (done ++ [.key, t, .value]) (depth + 1) tail ∧
      q.cursor.rest = tail := by
  have hkeyed := h.pushAt hcount .key
  have hbehind := Cursor.rest_advance hrest
  have hawaits := (hkeyed.withKey none false (by simp)).awaits_push .value hbehind
  refine ⟨_, ?_, by simpa using hawaits, hbehind⟩
  rw [value?, hplace]
  dsimp only
  rw [indentTo_of_inFlow hkeyed.inFlow]
  rfl

/-- At a colon behind no such place, no key is announced. -/
theorem IsCalm.exists_value? (h : p.IsCalm done (depth + 1)) (hplace : p.place = none) {d : Char}
    {tail : List Char} (hrest : p.cursor.rest = d :: tail) :
    ∃ q, p.value? = some q ∧ q.Awaits (done ++ [.value]) (depth + 1) tail ∧
      q.cursor.rest = tail := by
  have hbehind := Cursor.rest_advance hrest
  refine ⟨_, ?_, (h.withKey none false (by simp)).awaits_push .value hbehind, hbehind⟩
  rw [value?, hplace]
  simp only [h.inFlow, indentTo_of_inFlow h.inFlow, hplace, Bool.not_true, Bool.false_and,
    Bool.false_eq_true, if_false]

/-- A name and its colon are read where the name is legible. The name is announced as a key if the
colon is near. -/
theorem Awaits.reads_label {l : Label} {tail : List Char}
    (h : p.Awaits done (depth + 1) (l.text ++ ':' :: tail)) (hallowed : p.keyAllowed = true)
    (hplain : BreaksPlainly (quoted l.name)) :
    p.Reads (l.name.all Piece.isLegible) (Awaits (done ++ l.tokens) (depth + 1) tail) := by
  rw [Label.text, List.append_assoc] at h
  rw [← Bool.and_true (l.name.all Piece.isLegible)]
  refine (h.reads_string hplain).trans fun q hstring => ?_
  obtain ⟨hq, hrest, hkey⟩ := hstring
  obtain ⟨k, hplace, hcount, hpasses⟩ := hkey hallowed
  refine (hq.awaits l.gap.areBlanks hrest).reads_of_next?
    (by simp [BeginsToken, isBlank, isBreak]) fun blanks s hs hready => ?_
  have hblanks : blanks = l.gap.text := by
    have hsame := hready.passes.rest
    rw [hrest, hready.rest] at hsame
    exact (List.append_cancel_right hsame).symm
  have hstale := isStale_label hplain (hblanks ▸ hpasses.trans hready.passes)
  have hnext : s.next? ':' = s.value? := by
    simp [next?, atMarker_of_rest hready.rest, hs.inFlow]
  -- The place of the key has been given up if the colon is not near.
  have hkept := hready.place
  rw [hplace, Option.filter_some, hstale, Bool.not_not] at hkept
  rw [if_pos rfl, hnext]
  cases hnear : l.isNear with
  | true =>
    rw [hnear, if_pos rfl] at hkept
    obtain ⟨r, hvalue, hr, hbehind⟩ :=
      hs.exists_value?_key hkept (hready.count.trans hcount) hready.rest
    exact ⟨r, hvalue, by simpa [Label.tokens, hnear] using hr, by rw [hbehind]⟩
  | false =>
    rw [hnear, if_neg Bool.false_ne_true] at hkept
    obtain ⟨r, hvalue, hr, hbehind⟩ := hs.exists_value? hkept hready.rest
    exact ⟨r, hvalue, by simpa [Label.tokens, hnear] using hr, by rw [hbehind]⟩

/-! ## Values -/

mutual

/-- An array or an object is read as its tokens, where it is legible. -/
theorem Awaits.reads_collection (w : Written) {p : Progress} {done : List Token} {depth : Nat}
    {tail : List Char} (hw : w.isCollection = true) (hplain : BreaksPlainly w.text)
    (h : p.Awaits done depth (w.text ++ tail)) :
    p.Reads w.isLegible (IsBehind (done ++ w.tokens) depth tail) := by
  have hpart : ∀ {cs : List Char} {d e : Char}, w.text = d :: (cs ++ [e]) → BreaksPlainly cs :=
    fun htext c hc => hplain c (by simp [htext, hc])
  cases w with
  | literal | string => cases hw
  | emptyArray inner =>
    rw [Written.text, List.cons_append, List.append_assoc] at h
    refine h.reads_between (u := .flowSequenceEnd) (by simp [openers]) (by simp [finishers]) []
      fun q hq _ => .of ?_
    simpa using hq.skip inner.areBlanks
  | array items =>
    rw [Written.text, List.cons_append, List.append_assoc] at h
    exact h.reads_between (by simp [openers]) (by simp [finishers]) items.tokens
      fun q hq _ => hq.reads_items items (hpart rfl)
  | emptyObject inner =>
    rw [Written.text, List.cons_append, List.append_assoc] at h
    refine h.reads_between (u := .flowMappingEnd) (by simp [openers]) (by simp [finishers]) []
      fun q hq _ => .of ?_
    simpa using hq.skip inner.areBlanks
  | object members =>
    rw [Written.text, List.cons_append, List.append_assoc] at h
    exact h.reads_between (by simp [openers]) (by simp [finishers]) members.tokens
      fun q hq hallowed => hq.reads_members members (hpart rfl) hallowed
termination_by (sizeOf w, 0)

/-- A value between brackets is read as its tokens, where it is legible. -/
theorem Awaits.reads_written (w : Written) {p : Progress} {done : List Token} {depth : Nat}
    {after tail : List Char} {e : Char} (hafter : AreBlanks after) (he : e ∈ closers)
    (hplain : BreaksPlainly w.text)
    (h : p.Awaits done (depth + 1) (w.text ++ (after ++ e :: tail))) :
    p.Reads w.isLegible (Awaits (done ++ w.tokens) (depth + 1) (e :: tail)) := by
  cases hw : w.isCollection with
  | true =>
    exact (h.reads_collection w hw hplain).mono fun q hq => hq.calm.awaits hafter hq.rest
  | false =>
    cases w with
    | literal cs hcs => exact h.reads_literal hcs hafter he
    | string pieces =>
      exact (h.reads_string hplain).mono fun q hq => hq.1.awaits hafter hq.2.1
    | emptyArray | array | emptyObject | object => cases hw
termination_by (sizeOf w, 1)

/-- Items are read as their tokens, where they are legible. -/
theorem Awaits.reads_items (items : WrittenItems) {p : Progress} {done : List Token} {depth : Nat}
    {tail : List Char} (h : p.Awaits done (depth + 1) (items.text ++ ']' :: tail))
    (hplain : BreaksPlainly items.text) :
    p.Reads items.isLegible (Awaits (done ++ items.tokens) (depth + 1) (']' :: tail)) := by
  cases items with
  | last before v after =>
    simp only [WrittenItems.text, List.append_assoc] at h hplain
    have hvalue : BreaksPlainly v.text := fun c hc => hplain c (by simp [hc])
    exact (h.skip before.areBlanks).reads_written v after.areBlanks (by simp [closers]) hvalue
  | next before v after rest =>
    simp only [WrittenItems.text, List.append_assoc, List.cons_append] at h hplain
    have hvalue : BreaksPlainly v.text := fun c hc => hplain c (by simp [hc])
    have hrest : BreaksPlainly rest.text := fun c hc => hplain c (by simp [hc])
    have hread : p.Reads (v.isLegible && (true && rest.isLegible)) _ :=
      ((h.skip before.areBlanks).reads_written v after.areBlanks (by simp [closers])
        hvalue).trans fun q hq => hq.reads_comma.trans fun r hr => hr.1.reads_items rest hrest
    simpa [WrittenItems.isLegible, WrittenItems.tokens] using hread
termination_by (sizeOf items, 0)

/-- Members are read as their tokens, where they are legible. -/
theorem Awaits.reads_members (members : WrittenMembers) {p : Progress} {done : List Token}
    {depth : Nat} {tail : List Char}
    (h : p.Awaits done (depth + 1) (members.text ++ '}' :: tail))
    (hplain : BreaksPlainly members.text) (hallowed : p.keyAllowed = true) :
    p.Reads members.isLegible (Awaits (done ++ members.tokens) (depth + 1) ('}' :: tail)) := by
  cases members with
  | last label before v after =>
    simp only [WrittenMembers.text, List.append_assoc, List.cons_append] at h hplain
    have hname : BreaksPlainly (quoted label.name) := fun c hc =>
      hplain c (by simp [Label.text, hc])
    have hvalue : BreaksPlainly v.text := fun c hc => hplain c (by simp [hc])
    have hread : p.Reads (label.name.all Piece.isLegible && v.isLegible) _ :=
      ((h.skip label.before.areBlanks).reads_label hallowed hname).trans fun q hq =>
        (hq.skip before.areBlanks).reads_written v after.areBlanks (by simp [closers]) hvalue
    simpa [WrittenMembers.isLegible, WrittenMembers.tokens] using hread
  | next label before v after rest =>
    simp only [WrittenMembers.text, List.append_assoc, List.cons_append] at h hplain
    have hname : BreaksPlainly (quoted label.name) := fun c hc =>
      hplain c (by simp [Label.text, hc])
    have hvalue : BreaksPlainly v.text := fun c hc => hplain c (by simp [hc])
    have hrest : BreaksPlainly rest.text := fun c hc => hplain c (by simp [hc])
    have hread : p.Reads (label.name.all Piece.isLegible &&
        (v.isLegible && (true && rest.isLegible))) _ :=
      ((h.skip label.before.areBlanks).reads_label hallowed hname).trans fun q hq =>
        ((hq.skip before.areBlanks).reads_written v after.areBlanks (by simp [closers])
          hvalue).trans fun r hr => hr.reads_comma.trans fun s hs =>
            hs.1.reads_members rest hrest hs.2
    simpa [WrittenMembers.isLegible, WrittenMembers.tokens] using hread
termination_by (sizeOf members, 0)

end

/-! ## Whole texts -/

/-- With a tab no token begins. -/
theorem next?_tab (h : p.cursor.peek = some '\t') : p.next? '\t' = none := by
  obtain ⟨rest, hrest⟩ := List.head?_eq_some_iff.1 h
  simp [next?, atMarker_of_rest hrest, beginsPlain, isBlank]

/-- A tab where a line may begin a key ends the reading. -/
theorem IsCalm.run?_of_not_admitsTabs (h : p.IsCalm done depth) {blanks tail : List Char}
    (hb : AreBlanks blanks) (htail : BeginsToken tail) (hrest : p.cursor.rest = blanks ++ tail)
    (hnot : admitsTabs p.inFlow p.tabs blanks = false) {fuel : Nat}
    (hfuel : blanks.length ≤ fuel) : run? (fuel + 1) p = none := by
  have hskips := skips_skipToToken hb htail (Nat.lt_succ_of_le hfuel) hrest
  have hstops := hskips.stops hnot
  rw [run?]
  generalize skipToToken (fuel + 1) p = s at hskips hstops
  have hs := h.of_skips hskips
  have hpeek : s.fresh.cursor.peek = some '\t' := hstops
  rw [hs.dropStale?]
  simp only [Option.bind_eq_bind, Option.bind_some, hs.fresh.unindentTo, hpeek, next?_tab hpeek,
    Option.bind_none]

/-- Behind the root the text ends. -/
theorem IsBehind.leads {after : List Char} (h : p.IsBehind done 0 after) (hb : AreBlanks after) :
    p.Leads (if admitsTabs false true after then some done else none) := by
  intro fuel hfuel
  obtain ⟨fuel, rfl⟩ : ∃ k, fuel = k + 1 := ⟨fuel - 1, by omega⟩
  have hflow : p.inFlow = false := by
    simp [Progress.inFlow, List.length_eq_zero_iff.1 h.calm.depth]
  have htabs : p.tabs = true := by simp [Progress.tabs, h.keyAllowed]
  have hrest : p.cursor.rest = after ++ [] := by rw [h.rest, List.append_nil]
  have hnil : BeginsToken [] := by simp [BeginsToken]
  have hlong : after.length ≤ fuel := by
    rw [h.rest] at hfuel
    omega
  have hsame : admitsTabs false true after = admitsTabs p.inFlow p.tabs after := by
    rw [hflow, htabs]
  rw [hsame]
  cases hadmits : admitsTabs p.inFlow p.tabs after with
  | false =>
    rw [h.calm.run?_of_not_admitsTabs hb hnil hrest hadmits hlong]
    rfl
  | true =>
    obtain ⟨q, hq, -, hrun⟩ := h.calm.exists_run?_succ hb hnil hrest hadmits hlong
    rw [hrun]
    simp [finish?, hq.unindentTo, hq.dropPlace?, hq.tokens]

theorem isCalm_start (text : List Char) : (start text).IsCalm [] 0 :=
  ⟨rfl, rfl, rfl, rfl, by simp [start]⟩

end Progress

theorem beginsToken_collection {w : Written} (hw : w.isCollection = true) (rest : List Char) :
    BeginsToken (w.text ++ rest) := by
  cases w with
  | literal | string => cases hw
  | _ => simp [BeginsToken, Written.text, isBlank, isBreak]

/-- The tokens of a text with an array or an object in it are those of the array or the object, if
all characters are printable, no tab is where a line may begin a key, and all strings are legible.
Otherwise it is refused. -/
theorem tokens?_written (w : WrittenText) (hw : w.root.isCollection = true)
    (hplain : BreaksPlainly w.text) :
    tokens? w.text =
      if w.text.all isPrintable && (w.isUntabbed && w.root.isLegible) then some w.root.tokens
      else none := by
  obtain ⟨before, root, after⟩ := w
  simp only [WrittenText.text, WrittenText.isUntabbed, List.append_assoc] at hw hplain ⊢
  rw [tokens?]
  set text := before.text ++ (root.text ++ after.text) with htext
  have hcalm := Progress.isCalm_start text
  have hbegins := beginsToken_collection hw after.text
  have hroot : BreaksPlainly root.text := fun c hc => hplain c (by simp [htext, hc])
  cases hprintable : text.all isPrintable with
  | false => simp
  | true =>
    rw [if_pos rfl]
    cases hbefore : admitsTabs false false before.text with
    | false =>
      have hlong : before.text.length ≤ text.length := by simp [htext]
      rw [hcalm.run?_of_not_admitsTabs before.areBlanks hbegins htext hbefore hlong]
      simp
    | true =>
      have hawaits : (Progress.start text).Awaits [] 0 (root.text ++ after.text) :=
        ⟨hcalm, before.text, before.areBlanks, hbefore, htext⟩
      have hleads := hawaits.reads_collection root hw hroot _ fun q hq => hq.leads after.areBlanks
      rw [hleads (text.length + 1) (Nat.lt_succ_self text.length)]
      cases root.isLegible <;> cases admitsTabs false true after.text <;> simp

end Yaml

end ServiceContract
