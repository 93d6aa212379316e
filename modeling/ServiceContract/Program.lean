import ServiceContract.Compilation
import ServiceContract.LogFilter.Read
import ServiceContract.LogLine
/-!
# The program

`Program.run` is the whole program on a file tree : it reads the command line, compiles, and
says what is printed, what is logged and how the program ends.
-/

namespace ServiceContract.Program

open CommandLine

/-- What a run of the program leaves behind. -/
structure Outcome where
  /-- The exit status. -/
  status : Nat
  /-- What is printed. -/
  printed : String
  /-- The lines of complaints, without those of the log. -/
  complaints : List String
  /-- The lines of the log. -/
  log : List LogLine
  /-- The files at the end. -/
  files : FileTree

/-- How the command line is taken. -/
inductive Reception where
  /-- The program runs. -/
  | run (outcome : Outcome)
  /-- The arguments are refused. -/
  | usage
  /-- Help is shown. -/
  | help

/-- The name and version of the program. -/
def version : String := "unrelated-contract-compiler 0.1.0"

/-! ## What is printed -/

/-- A text in bold and in a colour of the terminal. -/
def highlight (colour text : String) : String :=
  "\x1b[1m\x1b[" ++ colour ++ "m" ++ text ++ "\x1b[39m\x1b[0m"

/-- A dimmed text. -/
def dim (text : String) : String := "\x1b[2m" ++ text ++ "\x1b[0m"

/-- What is printed about a contract that has been written. -/
def summary (r : Report) : String :=
  highlight "32" "ok" ++ " " ++ toString r.paths ++ " path(s) from " ++ toString r.services
    ++ " service(s) -> " ++ r.output ++ " (" ++ dim r.digest ++ ")\n"

/-- What is printed about findings, if there are any. -/
def listing (findings : List Finding) : String :=
  if findings.isEmpty then ""
  else
    highlight "33" "warn" ++ " " ++ toString findings.length ++ " warning(s):\n"
      ++ String.join (findings.map fun f => "  - " ++ f.message ++ "\n")

/-- A complaint, line by line. -/
def complaint (message : String) : List String :=
  linesOf (highlight "31" "error:" ++ " " ++ message)

/-- The event that tells the settings. -/
def resolved (s : Settings) : Event :=
  ⟨.debug, .commandLine, "Resolved build config",
    [("errors", .number s.errors.length), ("operations", .number s.operations.length),
      ("services", .number s.services.length), ("schemas", .number s.schemas.length),
      ("output", .text s.output)]⟩

/-! ## Running -/

/-- The filter of the log, with complaints about it : that of the environment if all of it can
be read, and else what can be read of that of the arguments. -/
def logFilter (a : Arguments) (env : Environment) : LogFilter × List String :=
  match env.logFilter.bind LogFilter.ofText? with
  | some filter => (filter, [])
  | none =>
    let (filter, complaints) := LogFilter.ofLenient a.level
    (filter, complaints.flatMap linesOf)

/-- Compile as accepted arguments ask. -/
def runWith (a : Arguments) (filter : LogFilter) (t : FileTree) : Outcome :=
  match resolve t a with
  | .error e => ⟨1, "", complaint e.chain, [], t⟩
  | .ok s =>
    let (files, compiled) := compile t s
    let (log, further) := showEvents a.format (filter.apply (resolved s :: compiled.log))
    match compiled.result with
    | .ok report => ⟨0, summary report ++ listing report.findings, further, log, files⟩
    | .error e => ⟨1, "", further ++ complaint e.chain, log, files⟩

/-- Run the program. -/
def run (args : List String) (env : Environment) (t : FileTree) : Reception :=
  match parse args with
  | .refused => .usage
  | .help => .help
  | .version => .run ⟨0, version ++ "\n", [], [], t⟩
  | .accepted a =>
    match complete? a env with
    | none => .usage
    | some a =>
      let (filter, complaints) := logFilter a env
      let outcome := runWith a filter t
      .run { outcome with complaints := complaints ++ outcome.complaints }

/-- The paths that a run looks at, as far as a tree tells : the file of settings, and once it
is known what it says, the inputs and the output. -/
def paths (args : List String) (env : Environment) (t : FileTree) : List String :=
  match parse args with
  | .accepted a =>
    match complete? a env with
    | none => []
    | some a =>
      a.config.toList ++ match resolve t a with
        | .ok s => s.descriptors.map Prod.snd ++ s.schemas ++ [s.output]
        | .error _ => []
  | _ => []

end ServiceContract.Program
