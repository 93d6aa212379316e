import ServiceContract.Program
import Mathlib.Data.List.Induction
/-!
# The order of options

A command line is a list of options, each in one of its spellings (`Spells`), and what it comes to
depends on few things about them : whether `--deny-warnings` is among them, and for every other
option the list of its values. So options may stand in any order as long as the values of those that
list inputs do not change places among each other, and `resolves_reordered` says what the settings
and the log are then in terms of these values, of the environment and of the file of settings.
-/

namespace ServiceContract.CommandLine

/-! ## Options -/

/-- What an option says. -/
inductive Choice where
  /-- That something has a value. -/
  | value (f : Flag) (v : String)
  /-- That findings end the build. -/
  | denyWarnings
deriving DecidableEq, Repr

/-- The ways to write an option. -/
inductive Spells : List String → Choice → Prop
  /-- The value is the next argument. -/
  | apart {name : String} {f : Flag} {v : String} (hname : (name, f) ∈ flags)
      (hv : isValue v = true) : Spells ["--" ++ name, v] (.value f v)
  /-- The value stands behind an equals sign. -/
  | joined {name : String} {f : Flag} (hname : (name, f) ∈ flags) (v : String) :
      Spells ["--" ++ name ++ "=" ++ v] (.value f v)
  /-- The output in short, with the path in the next argument. -/
  | shortApart {v : String} (hv : isValue v = true) : Spells ["-o", v] (.value .output v)
  /-- The output in short, with the path in the same argument. -/
  | shortJoined {v : String} (hv : v ≠ "") (hequals : v.toList.head? ≠ some '=') :
      Spells ["-o" ++ v] (.value .output v)
  /-- The output in short, with the path behind an equals sign. -/
  | shortEquals (v : String) : Spells ["-o=" ++ v] (.value .output v)
  /-- That findings end the build. -/
  | denyWarnings : Spells ["--deny-warnings"] .denyWarnings

/-- An option as it is written. -/
structure Spelled where
  /-- The arguments that it takes. -/
  words : List String
  /-- What it says. -/
  choice : Choice
  spells : Spells words choice

/-- The arguments that options are, with the mark that ends them if it is there. -/
def line (options : List Spelled) (marked : Bool) : List String :=
  options.flatMap (·.words) ++ if marked then ["--"] else []

/-- The values that an option is given, in order. -/
def values (f : Flag) (choices : List Choice) : List String :=
  choices.filterMap fun
    | .value g v => if g = f then some v else none
    | .denyWarnings => none

/-- Whether an option lists inputs, and so may be given again. -/
def Flag.repeats : Flag → Bool
  | errors | operations | services | schemas => true
  | _ => false

/-- Options in another order, and maybe with another spelling, in which the values of each option
that lists inputs have kept their order. -/
def Reorders (options others : List Spelled) : Prop :=
  (options.map (·.choice)).Perm (others.map (·.choice)) ∧
    ∀ f : Flag, f.repeats = true →
      values f (options.map (·.choice)) = values f (others.map (·.choice))

/-! ## Reading one option -/

/-- Take in what an option says. -/
def Arguments.take? (a : Arguments) : Choice → Option Arguments
  | .value f v => a.give? f v
  | .denyWarnings => if a.denyWarnings then Option.none else some { a with denyWarnings := true }

/-- The name of a flag, the value of which is the next word. -/
theorem word_name {name : String} {f : Flag} (h : (name, f) ∈ flags) :
    word ("--" ++ name) = .flag f none := by
  have hall : ∀ p ∈ flags, word ("--" ++ p.1) = .flag p.2 none := by decide
  exact hall _ h

theorem word_of_long {arg : String} {cs : List Char} (hcs : cs ≠ [])
    (harg : arg.toList = '-' :: '-' :: cs) : word arg = longWord cs := by
  obtain ⟨c, cs, rfl⟩ := List.exists_cons_of_ne_nil hcs
  simp only [word, harg]

/-- A flag and its value in one word. -/
theorem word_joined {name : String} {f : Flag} (h : (name, f) ∈ flags) (v : String) :
    word ("--" ++ name ++ "=" ++ v) = .flag f (some v) := by
  have hall : ∀ p ∈ flags,
      flags.lookup p.1 = some p.2 ∧ (p.1.toList.all fun c => decide (c ≠ '=')) = true := by decide
  obtain ⟨hlookup, hname⟩ := hall _ h
  rw [List.all_eq_true] at hname
  have htext : ("--" ++ name ++ "=" ++ v).toList =
      '-' :: '-' :: (name.toList ++ '=' :: v.toList) := by simp
  rw [word_of_long (by simp) htext, longWord, List.takeWhile_append_of_pos hname,
    List.dropWhile_append_of_pos hname]
  simp [hlookup]

/-- The short flag with its value right behind it. -/
theorem word_shortJoined {v : String} (hv : v ≠ "") (hequals : v.toList.head? ≠ some '=') :
    word ("-o" ++ v) = .flag .output (some v) := by
  have htext : ("-o" ++ v).toList = '-' :: 'o' :: v.toList := by simp
  have hcs : v.toList ≠ [] := by simpa using hv
  obtain ⟨c, cs, hlist⟩ := List.exists_cons_of_ne_nil hcs
  have hc : c ≠ '=' := by simpa [hlist] using hequals
  have hback : String.ofList (c :: cs) = v := by rw [← hlist, String.ofList_toList]
  rw [word, htext, hlist]
  simp [hc, hback]

theorem word_shortEquals (v : String) : word ("-o=" ++ v) = .flag .output (some v) := by
  have htext : ("-o=" ++ v).toList = '-' :: 'o' :: '=' :: v.toList := by simp
  simp only [word, htext, String.ofList_toList]

/-- A long option is a name, and maybe an equals sign and a value. -/
theorem exists_longWord_eq (cs : List Char) : ∃ (name : String) (value : Option String),
    cs = name.toList ++ value.elim [] ('=' :: ·.toList) ∧
      longWord cs = match flags.lookup name with
        | some f => .flag f value
        | none =>
          if value.isSome then .unknown
          else if name = "deny-warnings" then .denyWarnings
          else if name = "help" then .help
          else if name = "version" then .version
          else .unknown := by
  refine ⟨_, _, ?_, rfl⟩
  have hparts := List.takeWhile_append_dropWhile (p := fun c => decide (c ≠ '=')) (l := cs)
  have hsign := List.head?_dropWhile_not (fun c => decide (c ≠ '=')) cs
  cases hbehind : cs.dropWhile fun c => decide (c ≠ '=') with
  | nil => rw [hbehind] at hparts; simpa using hparts.symm
  | cons c value =>
    rw [hbehind] at hparts hsign
    obtain rfl : c = '=' := by simpa using hsign
    simpa using hparts.symm

/-- A long word that gives a flag consists of its name, and of a value behind an equals sign if
there is one. -/
theorem longWord_eq_flag {cs : List Char} {f : Flag} {value : Option String}
    (h : longWord cs = .flag f value) : ∃ name, (name, f) ∈ flags ∧
      cs = name.toList ++ value.elim [] ('=' :: ·.toList) := by
  obtain ⟨name, value', hcs, hword⟩ := exists_longWord_eq cs
  rw [hword] at h
  split at h
  · rename_i g hlookup
    obtain ⟨rfl, rfl⟩ := Word.flag.inj h
    obtain ⟨before, behind, hflags, -⟩ := List.lookup_eq_some_iff.1 hlookup
    exact ⟨name, hflags ▸ List.mem_append_right _ List.mem_cons_self, hcs⟩
  · split_ifs at h

theorem eq_of_longWord_eq_denyWarnings {cs : List Char} (h : longWord cs = .denyWarnings) :
    cs = "deny-warnings".toList := by
  obtain ⟨name, value, hcs, hword⟩ := exists_longWord_eq cs
  rw [hword] at h
  split at h
  · cases h
  · split_ifs at h with hvalue hname
    rw [Bool.not_eq_true, Option.isSome_eq_false_iff, Option.isNone_iff_eq_none] at hvalue
    rw [hcs, hvalue, hname]
    rfl

theorem longWord_ne_stop (cs : List Char) : longWord cs ≠ .stop := by
  obtain ⟨name, value, -, hword⟩ := exists_longWord_eq cs
  rw [hword]
  split
  · exact Word.noConfusion
  · split_ifs <;> exact Word.noConfusion

/-- Only two hyphens alone end the options. -/
theorem eq_of_word_eq_stop {arg : String} (h : word arg = .stop) : arg = "--" := by
  unfold word at h
  split at h
  case h_1 harg => exact String.toList_inj.1 harg
  case h_2 => exact absurd h (longWord_ne_stop _)
  all_goals cases h

theorem eq_of_word_eq_denyWarnings {arg : String} (h : word arg = .denyWarnings) :
    arg = "--deny-warnings" := by
  unfold word at h
  split at h
  case h_2 cs _ harg =>
    rw [eq_of_longWord_eq_denyWarnings h] at harg
    exact String.toList_inj.1 harg
  all_goals cases h

/-- An option that has no value yet takes the next argument as its value. -/
theorem spells_of_word_eq_flag {arg v : String} {f : Flag} (h : word arg = .flag f none)
    (hv : isValue v = true) : Spells [arg, v] (.value f v) := by
  unfold word at h
  split at h
  case h_2 cs _ harg =>
    obtain ⟨name, hname, rfl⟩ := longWord_eq_flag h
    have htext : arg = "--" ++ name := by
      rw [← String.toList_inj, harg]
      simp
    exact htext ▸ .apart hname hv
  case h_3 harg =>
    obtain ⟨rfl, -⟩ := Word.flag.inj h
    have htext : arg = "-o" := String.toList_inj.1 harg
    exact htext ▸ .shortApart hv
  all_goals cases h

/-- A word that gives a flag with its value spells this choice. -/
theorem spells_of_word_eq_flag_some {arg v : String} {f : Flag} (h : word arg = .flag f (some v)) :
    Spells [arg] (.value f v) := by
  unfold word at h
  split at h
  case h_2 cs _ harg =>
    obtain ⟨name, hname, rfl⟩ := longWord_eq_flag h
    have htext : arg = "--" ++ name ++ "=" ++ v := by
      rw [← String.toList_inj, harg]
      simp
    exact htext ▸ .joined hname v
  case h_4 value harg =>
    obtain ⟨rfl, hvalue⟩ := Word.flag.inj h
    have htext : arg = "-o=" ++ v := by
      rw [← String.toList_inj, harg, ← Option.some.inj hvalue]
      simp
    exact htext ▸ .shortEquals v
  case h_5 value hnil hequals harg =>
    obtain ⟨rfl, hvalue⟩ := Word.flag.inj h
    rw [Option.some.injEq] at hvalue
    have hlist : v.toList = value := by rw [← hvalue, String.toList_ofList]
    have htext : arg = "-o" ++ v := by
      rw [← String.toList_inj, harg, ← hlist]
      simp
    have hempty : v ≠ "" := by
      rintro rfl
      exact hnil hlist.symm
    have hhead : v.toList.head? ≠ some '=' := by
      rw [hlist]
      intro hhead
      obtain ⟨tail, htail⟩ := List.head?_eq_some_iff.1 hhead
      exact hequals tail htail
    exact htext ▸ .shortJoined hempty hhead
  all_goals cases h

/-! ## Reading a line -/

/-- Words that spell a choice come to that choice, and the reading goes on behind them. -/
theorem parseAfter_spells {words : List String} {c : Choice} (h : Spells words c) (a : Arguments)
    (rest : List String) :
    parseAfter a (words ++ rest) = (a.take? c).elim .refused (parseAfter · rest) := by
  have hjoined : ∀ {arg v : String} {f : Flag}, word arg = .flag f (some v) →
      parseAfter a ([arg] ++ rest) = (a.give? f v).elim .refused (parseAfter · rest) := by
    intro arg v f hword
    simp only [List.singleton_append, parseAfter, hword]
    cases a.give? f v <;> rfl
  have hapart : ∀ {arg v : String} {f : Flag}, word arg = .flag f none → isValue v = true →
      parseAfter a ([arg, v] ++ rest) = (a.give? f v).elim .refused (parseAfter · rest) := by
    intro arg v f hword hv
    simp only [List.cons_append, List.nil_append, parseAfter, hword, hv, if_true]
    cases a.give? f v <;> rfl
  cases h with
  | apart hname hv => exact hapart (word_name hname) hv
  | joined hname v => exact hjoined (word_joined hname v)
  | shortApart hv => exact hapart (show word "-o" = .flag .output none by decide) hv
  | shortJoined hv hequals => exact hjoined (word_shortJoined hv hequals)
  | shortEquals v => exact hjoined (word_shortEquals v)
  | denyWarnings =>
    have hword : word "--deny-warnings" = .denyWarnings := by decide
    simp only [List.singleton_append, parseAfter, hword, Arguments.take?]
    cases a.denyWarnings <;> rfl

theorem line_cons (o : Spelled) (options : List Spelled) (marked : Bool) :
    line (o :: options) marked = o.words ++ line options marked := by
  simp [line]

/-- A line comes to what its options say, taken in one after the other. -/
theorem parseAfter_line (options : List Spelled) (marked : Bool) (a : Arguments) :
    parseAfter a (line options marked) =
      ((options.map (·.choice)).foldlM Arguments.take? a).elim .refused .accepted := by
  induction options generalizing a with
  | nil =>
    have hstop : word "--" = .stop := by decide
    cases marked with
    | false => rfl
    | true => simp [line, parseAfter, hstop]
  | cons o options ih =>
    rw [line_cons, parseAfter_spells o.spells, List.map_cons, List.foldlM_cons]
    cases a.take? o.choice with
    | none => rfl
    | some b => exact ih b

/-- All that is accepted is a line of options. -/
theorem exists_line_of_parseAfter {a b : Arguments} {args : List String}
    (h : parseAfter a args = .accepted b) : ∃ options marked, args = line options marked := by
  have hcons : ∀ {words rest : List String} {c : Choice}, Spells words c →
      (∃ options marked, rest = line options marked) →
      ∃ options marked, words ++ rest = line options marked := by
    rintro words rest c hspells ⟨options, marked, rfl⟩
    exact ⟨⟨words, c, hspells⟩ :: options, marked, (line_cons ⟨words, c, hspells⟩ _ _).symm⟩
  fun_induction parseAfter a args
  case case1 => exact ⟨[], false, rfl⟩
  case case2 arg rest f v hword _ _ ih => exact hcons (spells_of_word_eq_flag_some hword) (ih h)
  case case5 arg f hword v rest _ hgiven ih =>
    have hv : isValue v = true := by
      by_contra hv
      simp [hv] at hgiven
    exact hcons (spells_of_word_eq_flag hword hv) (ih h)
  case case8 arg rest hword _ ih =>
    rw [eq_of_word_eq_denyWarnings hword]
    exact hcons Spells.denyWarnings (ih h)
  case case11 arg hword => exact ⟨[], true, by rw [eq_of_word_eq_stop hword]; rfl⟩
  all_goals cases h

/-! ## What options say together -/

/-- What arguments have been given for an option. -/
def Arguments.texts (a : Arguments) : Flag → List String
  | .config => a.config.toList
  | .errors => a.errors
  | .operations => a.operations
  | .services => a.services
  | .schemas => a.schemas
  | .output => a.output.toList
  | .warnings => (a.warnings.map WarningPolicy.name).toList
  | .duplicateStatus => (a.duplicateStatus.map DuplicateStatus.name).toList
  | .layout => (a.layout.map Layout.name).toList
  | .title => a.title.toList
  | .apiVersion => a.apiVersion.toList
  | .logLevel => a.logLevel.toList
  | .logFormat => (a.logFormat.map LogFormat.name).toList

/-- Whether an option may have a value. -/
def Flag.admits (f : Flag) (v : String) : Bool :=
  match f with
  | config | errors | operations | services | schemas | output => v ≠ ""
  | warnings => (WarningPolicy.ofName? v).isSome
  | duplicateStatus => (DuplicateStatus.ofName? v).isSome
  | layout => (Layout.ofName? v).isSome
  | logFormat => (LogFormat.ofName? v).isSome
  | title | apiVersion | logLevel => true

/-- Arguments hold exactly what options say. -/
structure Arguments.Says (a : Arguments) (choices : List Choice) : Prop where
  texts : ∀ f, a.texts f = values f choices
  denyWarnings : a.denyWarnings = true ↔ .denyWarnings ∈ choices

/-- The values of options are admitted, and only the options that list inputs are given again. -/
structure Acceptable (choices : List Choice) : Prop where
  admits : ∀ f, ∀ v ∈ values f choices, f.admits v = true
  once : ∀ f : Flag, f.repeats = false → (values f choices).length ≤ 1
  denyOnce : choices.count .denyWarnings ≤ 1

/-- An option that may be given once is accepted if it is new and its value is read. -/
theorem once?_eq_some_iff {α : Type} {before x : Option α} {read : String → Option α} {v : String} :
    once? before read v = some x ↔ before = none ∧ ∃ y, read v = some y ∧ x = some y := by
  cases before <;> simp [once?, eq_comm]

theorem path?_eq_some_iff {v x : String} : path? v = some x ↔ v ≠ "" ∧ x = v := by
  unfold path?
  split <;> simp_all [eq_comm]

/-- Arguments with one more value for an option that may have it. -/
structure Arguments.Gains (a : Arguments) (f : Flag) (v : String) (b : Arguments) : Prop where
  admits : f.admits v = true
  free : f.repeats = true ∨ a.texts f = []
  texts : ∀ g, b.texts g = a.texts g ++ if f = g then [v] else []
  denyWarnings : b.denyWarnings = a.denyWarnings

/-- A flag that is accepted adds its value to those of that flag, and nothing else changes. -/
theorem Arguments.gains_of_give? {a b : Arguments} {f : Flag} {v : String}
    (h : a.give? f v = some b) : a.Gains f v b := by
  cases f with
  | errors | operations | services | schemas =>
    simp only [give?, Option.map_eq_some_iff, path?_eq_some_iff] at h
    obtain ⟨_, ⟨hv, rfl⟩, rfl⟩ := h
    refine ⟨by simpa [Flag.admits] using hv, .inl rfl, fun g => ?_, rfl⟩
    cases g <;> simp [texts]
  | config | output =>
    simp only [give?, Option.map_eq_some_iff, once?_eq_some_iff, path?_eq_some_iff] at h
    obtain ⟨_, ⟨hbefore, _, ⟨hv, rfl⟩, rfl⟩, rfl⟩ := h
    refine ⟨by simpa [Flag.admits] using hv, .inr (by simp [texts, hbefore]), fun g => ?_, rfl⟩
    cases g <;> simp [texts, hbefore]
  | title | apiVersion | logLevel =>
    simp only [give?, Option.map_eq_some_iff, once?_eq_some_iff, Option.some.injEq] at h
    obtain ⟨_, ⟨hbefore, _, rfl, rfl⟩, rfl⟩ := h
    refine ⟨rfl, .inr (by simp [texts, hbefore]), fun g => ?_, rfl⟩
    cases g <;> simp [texts, hbefore]
  | warnings | duplicateStatus | layout | logFormat =>
    simp only [give?, Option.map_eq_some_iff, once?_eq_some_iff] at h
    obtain ⟨_, ⟨hbefore, y, hread, rfl⟩, rfl⟩ := h
    have hname : y.name = v := by simpa using List.find?_some hread
    refine ⟨by simp [Flag.admits, hread], .inr (by simp [texts, hbefore]), fun g => ?_, rfl⟩
    cases g <;> simp [texts, hbefore, hname]

/-- A value that a flag admits is accepted, unless the flag was given before and may not be
repeated. -/
theorem Arguments.exists_give? {a : Arguments} {f : Flag} {v : String} (hv : f.admits v = true)
    (hfree : f.repeats = true ∨ a.texts f = []) : ∃ b, a.give? f v = some b := by
  rw [← Option.isSome_iff_exists]
  cases f <;> simp_all [Flag.admits, Flag.repeats, texts, give?, once?, path?]

theorem Arguments.texts_denyWarnings (a : Arguments) (deny : Bool) (f : Flag) :
    { a with denyWarnings := deny }.texts f = a.texts f := by
  cases f <;> rfl

@[simp]
theorem values_append_value (f g : Flag) (choices : List Choice) (v : String) :
    values g (choices ++ [.value f v]) = values g choices ++ if f = g then [v] else [] := by
  by_cases hfg : f = g <;> simp [values, hfg]

@[simp]
theorem values_append_denyWarnings (f : Flag) (choices : List Choice) :
    values f (choices ++ [.denyWarnings]) = values f choices := by
  simp [values]

/-- What options say grows by what one more option says. -/
theorem Arguments.Says.take? {a b : Arguments} {choices : List Choice} {c : Choice}
    (h : a.Says choices) (htake : a.take? c = some b) : b.Says (choices ++ [c]) := by
  cases c with
  | value f v =>
    have hgains := gains_of_give? htake
    constructor
    · intro g
      rw [hgains.texts, h.texts, values_append_value]
    · rw [hgains.denyWarnings, h.denyWarnings]
      simp
  | denyWarnings =>
    rw [Arguments.take?] at htake
    split_ifs at htake
    obtain rfl := Option.some.inj htake
    constructor
    · intro g
      rw [texts_denyWarnings, values_append_denyWarnings, h.texts]
    · simp

/-- A further value is acceptable if the flag admits it and may be repeated or is new. -/
theorem acceptable_append_value_iff {choices : List Choice} {f : Flag} {v : String} :
    Acceptable (choices ++ [.value f v]) ↔
      Acceptable choices ∧ f.admits v = true ∧ (f.repeats = true ∨ values f choices = []) := by
  constructor
  · intro h
    refine ⟨⟨fun g w hw => h.admits g w ?_, fun g hg => ?_, ?_⟩, h.admits f v (by simp), ?_⟩
    · simp [hw]
    · have hlength := h.once g hg
      rw [values_append_value, List.length_append] at hlength
      omega
    · simpa using h.denyOnce
    · by_cases hf : f.repeats = true
      · exact .inl hf
      · have hlength := h.once f (by simpa using hf)
        rw [values_append_value, if_pos rfl, List.length_append, List.length_singleton] at hlength
        exact .inr (List.eq_nil_of_length_eq_zero (by omega))
  · rintro ⟨h, hv, hfree⟩
    refine ⟨fun g w hw => ?_, fun g hg => ?_, by simpa using h.denyOnce⟩
    · rw [values_append_value, List.mem_append] at hw
      obtain hw | hw := hw
      · exact h.admits g w hw
      · split_ifs at hw with hfg
        · rw [List.mem_singleton.1 hw, ← hfg]
          exact hv
        · simp at hw
    · rw [values_append_value]
      split_ifs with hfg
      · subst hfg
        simp [hfree.resolve_left (by simp [hg])]
      · simpa using h.once g hg

/-- The flag without a value may be given once. -/
theorem acceptable_append_denyWarnings_iff {choices : List Choice} :
    Acceptable (choices ++ [.denyWarnings]) ↔ Acceptable choices ∧ .denyWarnings ∉ choices := by
  rw [← List.count_eq_zero]
  constructor
  · intro h
    have hcount := h.denyOnce
    rw [List.count_append, List.count_singleton_self] at hcount
    refine ⟨⟨fun f v hv => h.admits f v (by simpa using hv), fun f hf => ?_, by omega⟩, by omega⟩
    simpa using h.once f hf
  · rintro ⟨h, hnone⟩
    refine ⟨fun f v hv => h.admits f v (by simpa using hv), fun f hf => ?_, ?_⟩
    · simpa using h.once f hf
    · rw [List.count_append, List.count_singleton_self]
      omega

/-- The last of several options is taken in if it is acceptable behind the others. -/
theorem acceptable_append_singleton_iff {a : Arguments} {choices : List Choice} {c : Choice}
    (h : a.Says choices) :
    Acceptable (choices ++ [c]) ↔ Acceptable choices ∧ ∃ b, a.take? c = some b := by
  cases c with
  | value f v =>
    rw [acceptable_append_value_iff, ← h.texts]
    refine and_congr_right fun _ => ⟨fun hv => Arguments.exists_give? hv.1 hv.2, ?_⟩
    rintro ⟨b, hb⟩
    have hgains := Arguments.gains_of_give? hb
    exact ⟨hgains.admits, hgains.free⟩
  | denyWarnings =>
    rw [acceptable_append_denyWarnings_iff, ← h.denyWarnings]
    cases hdeny : a.denyWarnings <;> simp [Arguments.take?, hdeny]

theorem foldlM_take?_append_singleton (choices : List Choice) (c : Choice) (a : Arguments) :
    (choices ++ [c]).foldlM Arguments.take? a =
      (choices.foldlM Arguments.take? a).bind (·.take? c) := by
  rw [List.foldlM_append]
  cases choices.foldlM Arguments.take? a <;> simp

/-- Before any option nothing is said. -/
theorem says_none : Arguments.none.Says [] := by
  refine ⟨fun f => ?_, by simp [Arguments.none]⟩
  cases f <;> rfl

/-- Accepted options say all that was chosen. -/
theorem says_of_foldlM {choices : List Choice} {a : Arguments}
    (h : choices.foldlM Arguments.take? Arguments.none = some a) : a.Says choices := by
  induction choices using List.reverseRecOn generalizing a with
  | nil => exact Option.some.inj h ▸ says_none
  | append_singleton choices c ih =>
    rw [foldlM_take?_append_singleton, Option.bind_eq_some_iff] at h
    obtain ⟨b, hfold, htake⟩ := h
    exact (ih hfold).take? htake

/-- Choices are acceptable exactly if the reader can take them one by one. -/
theorem acceptable_iff {choices : List Choice} :
    Acceptable choices ↔ ∃ a, choices.foldlM Arguments.take? Arguments.none = some a := by
  induction choices using List.reverseRecOn with
  | nil => exact ⟨fun _ => ⟨_, rfl⟩, fun _ => ⟨by simp [values], by simp [values], by simp⟩⟩
  | append_singleton choices c ih =>
    simp only [foldlM_take?_append_singleton, Option.bind_eq_some_iff]
    constructor
    · intro h
      have hbefore : Acceptable choices := by
        cases c with
        | value f v => exact (acceptable_append_value_iff.1 h).1
        | denyWarnings => exact (acceptable_append_denyWarnings_iff.1 h).1
      obtain ⟨a, hfold⟩ := ih.1 hbefore
      obtain ⟨-, b, htake⟩ := (acceptable_append_singleton_iff (says_of_foldlM hfold)).1 h
      exact ⟨b, a, hfold, htake⟩
    · rintro ⟨b, a, hfold, htake⟩
      exact (acceptable_append_singleton_iff (says_of_foldlM hfold)).2
        ⟨ih.2 ⟨a, hfold⟩, b, htake⟩

/-- Whether choices are acceptable does not depend on their order. -/
theorem Acceptable.perm {choices others : List Choice} (h : Acceptable choices)
    (hperm : choices.Perm others) : Acceptable others := by
  have hvalues : ∀ f, (values f choices).Perm (values f others) := fun f => hperm.filterMap _
  refine ⟨fun f v hv => h.admits f v ((hvalues f).mem_iff.2 hv), fun f hf => ?_, ?_⟩
  · rw [← (hvalues f).length_eq]
    exact h.once f hf
  · rw [← hperm.count_eq]
    exact h.denyOnce

theorem eq_of_toList {α : Type} {x y : Option α} (h : x.toList = y.toList) : x = y := by
  simpa using congrArg List.head? h

theorem eq_of_toList_map {α : Type} {name : α → String} (hname : Function.Injective name)
    {x y : Option α} (h : (x.map name).toList = (y.map name).toList) : x = y :=
  Option.map_injective hname (eq_of_toList h)

/-- What options say is all that arguments hold. -/
theorem Arguments.Says.unique {a b : Arguments} {choices : List Choice} (ha : a.Says choices)
    (hb : b.Says choices) : a = b := by
  have htexts : ∀ f, a.texts f = b.texts f := fun f => (ha.texts f).trans (hb.texts f).symm
  have hdeny : a.denyWarnings = b.denyWarnings := by
    rw [Bool.eq_iff_iff, ha.denyWarnings, hb.denyWarnings]
  have hwarnings := eq_of_toList_map (by intro p q; cases p <;> cases q <;> decide)
    (htexts .warnings)
  have hduplicate := eq_of_toList_map (by intro p q; cases p <;> cases q <;> decide)
    (htexts .duplicateStatus)
  have hlayout := eq_of_toList_map (by intro p q; cases p <;> cases q <;> decide) (htexts .layout)
  have hformat := eq_of_toList_map (by intro p q; cases p <;> cases q <;> decide)
    (htexts .logFormat)
  have hconfig := eq_of_toList (htexts .config)
  have houtput := eq_of_toList (htexts .output)
  have htitle := eq_of_toList (htexts .title)
  have hversion := eq_of_toList (htexts .apiVersion)
  have hlevel := eq_of_toList (htexts .logLevel)
  cases a
  cases b
  rw [Arguments.mk.injEq]
  exact ⟨hconfig, htexts .errors, htexts .operations, htexts .services, htexts .schemas, houtput,
    hwarnings, hdeny, hduplicate, hlayout, htitle, hversion, hlevel, hformat⟩

/-- One thing at most has one order. -/
theorem eq_of_perm_of_length_le_one {α : Type} {xs ys : List α} (h : xs.Perm ys)
    (hlength : xs.length ≤ 1) : ys = xs := by
  match xs, hlength with
  | [], _ => exact h.nil_eq.symm
  | [x], _ => exact List.perm_singleton.1 h.symm

/-- Options in another order come to the same. -/
theorem foldlM_take?_reorders {options others : List Spelled} (h : Reorders options others)
    {a : Arguments}
    (ha : (options.map (·.choice)).foldlM Arguments.take? Arguments.none = some a) :
    (others.map (·.choice)).foldlM Arguments.take? Arguments.none = some a := by
  obtain ⟨hperm, hrepeats⟩ := h
  have hsays := says_of_foldlM ha
  have hacceptable := acceptable_iff.2 ⟨a, ha⟩
  obtain ⟨b, hb⟩ := acceptable_iff.1 (hacceptable.perm hperm)
  have hvalues : ∀ f, values f (others.map (·.choice)) = values f (options.map (·.choice)) := by
    intro f
    have hpermuted : (values f (options.map (·.choice))).Perm (values f (others.map (·.choice))) :=
      hperm.filterMap _
    by_cases hf : f.repeats = true
    · exact (hrepeats f hf).symm
    · exact eq_of_perm_of_length_le_one hpermuted (hacceptable.once f (by simpa using hf))
  have hother : b.Says (options.map (·.choice)) :=
    ⟨fun f => ((says_of_foldlM hb).texts f).trans (hvalues f),
      (says_of_foldlM hb).denyWarnings.trans hperm.mem_iff.symm⟩
  rw [hb, hother.unique hsays]

/-! ## What a command line comes to -/

/-- What a command line comes to. -/
structure Resolution where
  /-- The settings. -/
  settings : Settings
  /-- Which events are logged. -/
  logLevel : String
  /-- How log lines are written. -/
  logFormat : LogFormat
deriving DecidableEq, Repr

/-- What a command line comes to in an environment and with a file of settings, if it is
accepted. -/
def resolution? (t : FileTree) (env : Environment) (args : List String) :
    Option (Except ConfigFailure Resolution) :=
  match parse args with
  | .accepted a =>
    (complete? a env).map fun a => (resolve t a).map fun s => ⟨s, a.level, a.format⟩
  | _ => none

/-- The value of an option that is given at most once. -/
def given? (f : Flag) (choices : List Choice) : Option String := (values f choices).head?

/-- What a command line comes to, put together from what its options say, from the environment and
from the settings in the file. -/
structure Combines (t : FileTree) (env : Environment) (choices : List Choice) (file : Settings)
    (r : Resolution) : Prop where
  loads : match (given? .config choices).or env.config with
    | some path => load t path = .ok file
    | none => file = Settings.default
  errors : r.settings.errors = file.errors ++ values .errors choices
  operations : r.settings.operations = file.operations ++ values .operations choices
  services : r.settings.services = file.services ++ values .services choices
  schemas : r.settings.schemas = file.schemas ++ values .schemas choices
  output : r.settings.output = ((given? .output choices).or env.output).getD file.output
  warnings : r.settings.warnings.name =
    if .denyWarnings ∈ choices then WarningPolicy.fail.name
    else (given? .warnings choices).getD file.warnings.name
  duplicateStatus : r.settings.style.duplicateStatus.name =
    (given? .duplicateStatus choices).getD file.style.duplicateStatus.name
  layout : r.settings.style.layout.name = (given? .layout choices).getD file.style.layout.name
  title : r.settings.style.info.title = (given? .title choices).getD file.style.info.title
  version : r.settings.style.info.version =
    (given? .apiVersion choices).getD file.style.info.version
  logLevel : r.logLevel = ((given? .logLevel choices).or env.logLevel).getD defaultLogLevel
  logFormat : r.logFormat.name = (given? .logFormat choices).getD LogFormat.text.name

theorem pathOr?_eq_some {given fallback x : Option String} (h : pathOr? given fallback = some x) :
    x = given.or fallback := by
  cases given with
  | some v => simpa [pathOr?] using h.symm
  | none =>
    cases fallback with
    | none => simpa [pathOr?] using h.symm
    | some v =>
      simp only [pathOr?, Option.map_eq_some_iff, path?_eq_some_iff] at h
      obtain ⟨_, ⟨-, rfl⟩, rfl⟩ := h
      rfl

/-- The environment stands in where an option is not given. -/
theorem complete?_eq_some {a b : Arguments} {env : Environment} (h : complete? a env = some b) :
    b = { a with
      config := a.config.or env.config
      output := a.output.or env.output
      logLevel := a.logLevel.or env.logLevel } := by
  simp only [complete?, Option.bind_eq_bind, Option.bind_eq_some_iff, Option.pure_def,
    Option.some.injEq] at h
  obtain ⟨config, hconfig, output, houtput, rfl⟩ := h
  rw [pathOr?_eq_some hconfig, pathOr?_eq_some houtput]

/-- The settings are those of the file, or the usual ones without a file, under the arguments. -/
theorem resolve_eq_ok {t : FileTree} {a : Arguments} {s : Settings} (h : resolve t a = .ok s) :
    ∃ file, (match a.config with
      | some path => load t path = .ok file
      | none => file = Settings.default) ∧ s = override file a := by
  unfold resolve at h
  cases hconfig : a.config with
  | none =>
    rw [hconfig] at h
    exact ⟨Settings.default, rfl, (Except.ok.inj h).symm⟩
  | some path =>
    rw [hconfig] at h
    cases hload : load t path with
    | error e => simp [hload, bind, Except.bind] at h
    | ok file =>
      simp only [hload] at h
      exact ⟨file, hload, (Except.ok.inj h).symm⟩

/-- Arguments that hold what options say come to what the options say. -/
theorem combines_of_says {t : FileTree} {env : Environment} {a b : Arguments}
    {choices : List Choice} (ha : a.Says choices) (hb : complete? a env = some b) {s : Settings}
    (hs : resolve t b = .ok s) : ∃ file, Combines t env choices file ⟨s, b.level, b.format⟩ := by
  have hgiven : ∀ f, given? f choices = (a.texts f).head? := fun f =>
    congrArg List.head? (ha.texts f).symm
  obtain rfl := complete?_eq_some hb
  obtain ⟨file, hfile, rfl⟩ := resolve_eq_ok hs
  simp only [Arguments.texts] at hgiven
  refine ⟨file, by simpa [hgiven] using hfile, ?_, ?_, ?_, ?_, ?_, ?_, ?_, ?_, ?_, ?_, ?_, ?_⟩
  · exact congrArg _ (ha.texts .errors)
  · exact congrArg _ (ha.texts .operations)
  · exact congrArg _ (ha.texts .services)
  · exact congrArg _ (ha.texts .schemas)
  · simp [hgiven, override]
  · by_cases hdeny : a.denyWarnings = true
    · simp [override, hdeny, ha.denyWarnings.1 hdeny]
    · simp [override, hdeny, mt ha.denyWarnings.2 hdeny, hgiven]
  · simp [hgiven, override]
  · simp [hgiven, override]
  · simp [hgiven, override]
  · simp [hgiven, override]
  · simp [hgiven, Arguments.level]
  · simp [hgiven, Arguments.format]

/-- The options of an accepted command line may be written in any order, as long as the values of
those that list inputs keep theirs : the whole run stays the same. What the line comes to can be
said in terms of the values of its options, of the environment and of the file of settings. -/
theorem resolves_reordered {t : FileTree} {env : Environment} {args : List String} {r : Resolution}
    (h : resolution? t env args = some (.ok r)) :
    (∃ options marked, args = line options marked) ∧
      ∀ options marked, args = line options marked →
        (∀ others, Reorders options others →
          resolution? t env (line others marked) = some (.ok r) ∧
            Program.run (line others marked) env t = Program.run args env t) ∧
        ∃ file, Combines t env (options.map (·.choice)) file r := by
  unfold resolution? at h
  cases hparse : parse args with
  | refused | help | version => simp [hparse] at h
  | accepted a =>
    simp only [hparse] at h
    refine ⟨exists_line_of_parseAfter hparse, ?_⟩
    rintro options marked rfl
    have hfold : (options.map (·.choice)).foldlM Arguments.take? Arguments.none = some a := by
      rw [parse, parseAfter_line] at hparse
      cases hfold : (options.map (·.choice)).foldlM Arguments.take? Arguments.none with
      | none => simp [hfold] at hparse
      | some b =>
        rw [hfold] at hparse
        exact congrArg some (Parsed.accepted.inj hparse)
    constructor
    · intro others hothers
      have hother : parse (line others marked) = .accepted a := by
        rw [parse, parseAfter_line, foldlM_take?_reorders hothers hfold]
        rfl
      exact ⟨by rw [resolution?, hother]; exact h, by rw [Program.run, Program.run, hother, hparse]⟩
    · obtain ⟨b, hb, hr⟩ := Option.map_eq_some_iff.1 h
      cases hs : resolve t b with
      | error e => simp [hs, Except.map] at hr
      | ok s =>
        rw [hs] at hr
        obtain rfl := Except.ok.inj hr
        exact combines_of_says (says_of_foldlM hfold) hb hs

/-- Two lines with the same options, in different spellings and orders, in an environment that names
the file of settings and the events that are logged. -/
theorem resolves_reordered_respelled :
    let t : FileTree := ⟨Table.ofList
      [("b", .file "errors: [a.xml]\nwarnings: ignore\n".toUTF8)]⟩
    let env : Environment := ⟨some "b", none, some "debug", none⟩
    let r : Resolution :=
      ⟨{ Settings.default with
          errors := ["a.xml", "b.xml", "c.xml"], output := "out.json", warnings := .fail },
        "debug", .text⟩
    resolution? t env ["--errors", "b.xml", "--warnings=warn", "-oout.json", "--errors=c.xml",
        "--deny-warnings", "--"] = some (.ok r) ∧
      resolution? t env ["--deny-warnings", "-o", "out.json", "--errors=b.xml", "--errors", "c.xml",
        "--warnings", "warn", "--"] = some (.ok r) := by
  intro t env r
  have hroute : Route.ofPath "b" = ⟨false, ["b"], false⟩ := by decide
  have hcontent : Settings.ofContent? false "errors: [a.xml]\nwarnings: ignore\n".toUTF8 =
      some { Settings.default with errors := ["a.xml"], warnings := .ignore } := by decide +kernel
  have hload : load t "b" =
      .ok { Settings.default with errors := ["a.xml"], warnings := .ignore } := by
    have hread : t.read "b" = .ok "errors: [a.xml]\nwarnings: ignore\n".toUTF8 := by
      rw [FileTree.read, hroute]
      rfl
    have hjson : isJson "b" = false := by
      rw [isJson, extension?, hroute]
      decide +kernel
    rw [load, hread, hjson]
    simp only [hcontent]
  have hline : resolution? t env ["--errors", "b.xml", "--warnings=warn", "-oout.json",
      "--errors=c.xml", "--deny-warnings", "--"] = some (.ok r) := by
    have hparse : parse ["--errors", "b.xml", "--warnings=warn", "-oout.json", "--errors=c.xml",
        "--deny-warnings", "--"] = .accepted { Arguments.none with
          errors := ["b.xml", "c.xml"], output := some "out.json", warnings := some .warn,
          denyWarnings := true } := by decide +kernel
    simp only [resolution?, hparse]
    rw [show complete? _ env = some _ from rfl, Option.map_some]
    simp only [resolve, hload]
    rfl
  have herrors : ("errors", Flag.errors) ∈ flags := by decide
  have hwarnings : ("warnings", Flag.warnings) ∈ flags := by decide
  refine ⟨hline, ?_⟩
  have hlines := (resolves_reordered hline).2
    [⟨_, _, .apart herrors (v := "b.xml") (by decide)⟩, ⟨_, _, .joined hwarnings "warn"⟩,
      ⟨_, _, .shortJoined (v := "out.json") (by decide) (by decide)⟩,
      ⟨_, _, .joined herrors "c.xml"⟩, ⟨_, _, .denyWarnings⟩] true rfl
  have hother := hlines.1
    [⟨_, _, .denyWarnings⟩, ⟨_, _, .shortApart (v := "out.json") (by decide)⟩,
      ⟨_, _, .joined herrors "b.xml"⟩, ⟨_, _, .apart herrors (v := "c.xml") (by decide)⟩,
      ⟨_, _, .apart hwarnings (v := "warn") (by decide)⟩]
    ⟨by simp only [List.map]; decide, fun f _ => by cases f <;> rfl⟩
  exact hother.1

end ServiceContract.CommandLine
