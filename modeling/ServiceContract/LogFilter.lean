import ServiceContract.Event
/-!
# Which events are logged

A `LogFilter` is a list of rules. A rule is about the events of the reporters whose names begin
in some way, or of all, and it may ask for a field; it says up to which level such events are
shown. Of the rules that are about an event the most specific one decides (`deciding?`), and an
event that no rule is about is not shown.
-/

namespace ServiceContract

/-- A rule of a log filter. -/
structure LogRule where
  /-- How the name of the reporter begins; nothing if that does not matter. -/
  target : Option String
  /-- The field that an event has; nothing if that does not matter. -/
  field : Option String
  /-- Whether the rule is about the surroundings of an event or the values of its fields, as
  no event of this library is. -/
  isContextual : Bool
  /-- The number of levels that are shown. -/
  levels : Nat
deriving DecidableEq, Repr

namespace LogRule

/-- Whether a rule is about an event. -/
def concerns (r : LogRule) (e : Event) : Bool :=
  !r.isContextual && r.target.all (fun start => e.reporter.name.startsWith start)
    && r.field.all e.fieldNames.contains

/-- How much of the name of the reporter a rule gives. -/
def reach (r : LogRule) : Nat := (r.target.map fun start => start.length + 1).getD 0

/-- Whether a rule asks for no more of the fields than another : a rule without a field comes
before all with one, and those are in the order of their fields. -/
def fieldPrecedes (r s : LogRule) : Bool :=
  match r.field, s.field with
  | none, _ => true
  | some _, none => false
  | some f, some g => f ≤ g

/-- Whether a rule is at most as specific as another. -/
def yields (r s : LogRule) : Bool :=
  r.reach < s.reach || (r.reach = s.reach && r.fieldPrecedes s)

end LogRule

/-- A choice of the events that are logged. -/
structure LogFilter where
  /-- The rules, of which a later one counts more than an earlier one like it. -/
  rules : List LogRule
deriving DecidableEq, Repr

namespace LogFilter

/-- The filter that shows all events up to some level. -/
def upTo (levels : Nat) : LogFilter := ⟨[⟨none, none, false, levels⟩]⟩

/-- The more specific of two rules, the second one if both are alike. -/
def prefer (r : Option LogRule) (s : LogRule) : Option LogRule :=
  if r.all (·.yields s) then some s else r

/-- The rule that decides about an event. -/
def deciding? (f : LogFilter) (e : Event) : Option LogRule :=
  (f.rules.filter (·.concerns e)).foldl prefer none

/-- Whether an event is shown. -/
def shows (f : LogFilter) (e : Event) : Bool :=
  (f.deciding? e).any fun r => e.level.rank ≤ r.levels

/-- The events that a filter shows. -/
def apply (f : LogFilter) (log : List Event) : List Event := log.filter f.shows

end LogFilter

end ServiceContract
