/-!
# Log events

What a build does is reported as a list of events in order. An event has a level, a part
of the program that reports it, a message, and for one kind of event a few named values.
-/

namespace ServiceContract

/-- How important an event is, the most important first. -/
inductive Level where
  /-- Something stops the build. -/
  | error
  /-- Something needs attention. -/
  | warn
  /-- A step of the build. -/
  | info
  /-- A detail. -/
  | debug
deriving DecidableEq, Repr

namespace Level

/-- The name of a level as it stands in a log. -/
def name : Level → String
  | error => "ERROR"
  | warn => "WARN"
  | info => "INFO"
  | debug => "DEBUG"

/-- The number of levels up to this one. -/
def rank : Level → Nat
  | error => 1
  | warn => 2
  | info => 3
  | debug => 4

end Level

/-- The parts of the program that report events. -/
inductive Reporter where
  /-- The command line. -/
  | commandLine
  /-- The reader of descriptors. -/
  | descriptors
  /-- The table of error codes. -/
  | errorCodes
  /-- The table of operations. -/
  | operations
  /-- The table of services. -/
  | services
  /-- The reader of schema documents. -/
  | schemas
  /-- The build as a whole. -/
  | compiler
deriving DecidableEq, Repr

/-- The name of a reporter, by which its events can be chosen. -/
def Reporter.name : Reporter → String
  | commandLine => "unrelated_contract_compiler"
  | descriptors => "unrelated_contract_compiler::descriptor"
  | errorCodes => "unrelated_contract_compiler::error_codes"
  | operations => "unrelated_contract_compiler::operations"
  | services => "unrelated_contract_compiler::services"
  | schemas => "unrelated_contract_compiler::schemas"
  | compiler => "unrelated_contract_compiler::compiler"

/-- The value of a field of an event. -/
inductive FieldValue where
  /-- A number. -/
  | number (value : Nat)
  /-- A text. -/
  | text (value : String)
deriving DecidableEq, Repr

/-- One entry of the log. -/
structure Event where
  /-- How important it is. -/
  level : Level
  /-- Who reports it. -/
  reporter : Reporter
  /-- What happened. -/
  message : String
  /-- Named values that go with the message. -/
  fields : List (String × FieldValue)
deriving DecidableEq, Repr

namespace Event

/-- An event without fields that reports a detail. -/
def debug (reporter : Reporter) (message : String) : Event := ⟨.debug, reporter, message, []⟩

/-- An event without fields that reports a step. -/
def info (reporter : Reporter) (message : String) : Event := ⟨.info, reporter, message, []⟩

/-- The names of the parts of an event that have a name, the message among them. -/
def fieldNames (e : Event) : List String := "message" :: e.fields.map Prod.fst

end Event

end ServiceContract
