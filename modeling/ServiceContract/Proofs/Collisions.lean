import ServiceContract.Proofs.Items
import ServiceContract.Proofs.Responses
/-!
# Which response a status code has

An operation asks for one response under `200` and for one more under the status code of each of
its errors (`wanted`). All that ask for one status code get one response between them : that of the
first or of the last, as the rule says (`get?_responses`). Each of the others is dropped and
reported once, when the rule decides between it and the one that has the status code at that moment
(`filter_isCollision_responses`). Under keep-first this is always the first, and under keep-last the
one before (`filter_collidesUnder_clashes`).
-/

namespace ServiceContract.Contract

/-! ## What asks for a response -/

/-- The responses that an operation asks for under their status codes : the success, then the
errors in order. -/
def wanted (codes : Table String) (op : Operation) : List (String × Response) :=
  (successStatus, success op) :: op.errors.map fun error =>
    (ErrorStatus.resolve codes error, failure (ErrorStatus.resolve codes error) error)

/-- What asks for a response under which status code : the success, which goes by the name of the
output if there is one, then the errors in order. -/
def sources (codes : Table String) (op : Operation) : List (String × String) :=
  ("200", op.output.getD "success response") ::
    op.errors.map fun error => (ErrorStatus.resolve codes error, error)

/-- What asks for a response under a status code. -/
def sourcesUnder (code : String) (l : List (String × String)) : List String :=
  (l.filter (·.1 = code)).map Prod.snd

/-- The one of several responses that a status code has in the end. -/
def kept? (rule : DuplicateStatus) (code : String) (l : List (String × Response)) :
    Option Response :=
  match rule with
  | .keepFirst => l.lookup code
  | .keepLast => l.reverse.lookup code

/-- The one of several sources whose response stands in the end. -/
def standing (rule : DuplicateStatus) (l : List String) : Option String :=
  match rule with
  | .keepFirst => l.head?
  | .keepLast => l.getLast?

/-- The sources are those of the wanted responses. -/
theorem sources_eq_map_wanted (codes : Table String) (op : Operation) :
    sources codes op = (wanted codes op).map fun w => (w.1, w.2.source) := by
  have hsuccess : (success op).source = op.output.getD "success response" := by
    unfold success
    cases op.output <;> rfl
  rw [sources, wanted, List.map_cons, List.map_map, hsuccess]
  rfl

theorem map_fst_wanted (codes : Table String) (op : Operation) :
    (wanted codes op).map Prod.fst =
      successStatus :: op.errors.map (ErrorStatus.resolve codes) := by
  rw [wanted, List.map_cons, List.map_map]
  rfl

/-- The response that is kept is that of the source that stands. -/
theorem source_kept? (rule : DuplicateStatus) (code : String) (l : List (String × Response)) :
    (kept? rule code l).map (·.source) =
      standing rule (sourcesUnder code (l.map fun w => (w.1, w.2.source))) := by
  have hunder : sourcesUnder code (l.map fun w => (w.1, w.2.source)) =
      (l.filter (·.1 = code)).map (·.2.source) := by
    rw [sourcesUnder, List.filter_map, List.map_map]
    rfl
  rw [hunder]
  cases rule with
  | keepFirst =>
    rw [kept?, standing, Table.lookup_eq_head?, ← List.head?_map, List.map_map]
    rfl
  | keepLast =>
    rw [kept?, standing, Table.lookup_eq_head?, ← List.head?_map, List.map_map,
      List.filter_reverse, List.map_reverse, List.head?_reverse]
    rfl

theorem kept?_append_singleton (rule : DuplicateStatus) (code other : String)
    (l : List (String × Response)) (response : Response) :
    kept? rule other (l ++ [(code, response)]) = match rule with
      | .keepFirst => (kept? rule other l).or (if code = other then some response else none)
      | .keepLast => if code = other then some response else kept? rule other l := by
  by_cases hcode : code = other
  · cases rule <;> simp [kept?, List.lookup_append, hcode]
  · cases rule <;> simp [kept?, List.lookup_append, hcode, Table.lookup_cons_of_ne]

/-! ## One more error -/

section AddResponse

variable (rule : DuplicateStatus) (operation : String) (table : Table Response)
  (code error : String)

theorem keys_addResponse :
    (addResponse rule operation table code error).1.keys = (table.keys ++ [code]).eraseDups := by
  unfold addResponse
  cases hcode : table.get? code with
  | none => exact Table.keys_insert table code _
  | some existing =>
    cases rule with
    | keepFirst =>
      have htaken : code ∈ table.keys := by
        rw [← Table.contains_iff, Table.contains, hcode]
        rfl
      rw [eraseDups_append_singleton table.nodup_keys, if_pos htaken]
    | keepLast => exact Table.keys_insert table code _

theorem get?_addResponse (other : String) :
    (addResponse rule operation table code error).1.get? other = match rule with
      | .keepFirst =>
        (table.get? other).or (if code = other then some (failure code error) else none)
      | .keepLast => if code = other then some (failure code error) else table.get? other := by
  unfold addResponse
  cases hcode : table.get? code with
  | none =>
    cases rule with
    | keepFirst =>
      rw [Table.get?_insert]
      split_ifs with hother
      · rw [← hother, hcode, Option.none_or]
      · rw [Option.or_none]
    | keepLast => exact Table.get?_insert table code other _
  | some existing =>
    cases rule with
    | keepFirst =>
      split_ifs with hother
      · rw [← hother, hcode, Option.some_or]
      · rw [Option.or_none]
    | keepLast => exact Table.get?_insert table code other _

/-- The finding that a source meets another that has its status code, of which the rule drops
one. -/
def clash (former source : String) : Finding :=
  match rule with
  | .keepFirst => .statusCodeCollision operation code former source
  | .keepLast => .statusCodeCollision operation code source former

/-- A response for a code that is taken is a collision with the one that stands there. -/
theorem addResponse_snd : (addResponse rule operation table code error).2 =
    ((table.get? code).map fun existing =>
      clash rule operation code existing.source error).toList := by
  unfold addResponse
  cases table.get? code with
  | none => rfl
  | some existing => cases rule <;> rfl

end AddResponse

/-! ## All errors -/

section Responses

variable (codes : Table String) (rule : DuplicateStatus) (operation : String)

theorem responses_append_singleton (input output : Option String) (errors : List String)
    (error : String) : responses codes rule operation ⟨input, output, errors ++ [error]⟩ =
      addError codes rule operation (responses codes rule operation ⟨input, output, errors⟩)
        error := by
  rw [responses, List.foldl_append]
  rfl

theorem wanted_append_singleton (input output : Option String) (errors : List String)
    (error : String) : wanted codes ⟨input, output, errors ++ [error]⟩ =
      wanted codes ⟨input, output, errors⟩ ++
        [(ErrorStatus.resolve codes error, failure (ErrorStatus.resolve codes error) error)] := by
  rw [wanted, List.map_append]
  rfl

/-- Status codes stand in the order in which they are first asked for. -/
theorem keys_responses (op : Operation) : (responses codes rule operation op).1.keys =
    ((wanted codes op).map Prod.fst).eraseDups := by
  obtain ⟨input, output, errors⟩ := op
  induction errors using List.reverseRecOn with
  | nil => rfl
  | append_singleton errors error ih =>
    rw [responses_append_singleton, wanted_append_singleton, List.map_append,
      ← eraseDups_append_left, ← ih]
    exact keys_addResponse rule operation _ _ error

/-- A status code has the response that the rule keeps of those which ask for it. -/
theorem get?_responses (op : Operation) (code : String) :
    (responses codes rule operation op).1.get? code = kept? rule code (wanted codes op) := by
  obtain ⟨input, output, errors⟩ := op
  induction errors using List.reverseRecOn with
  | nil => cases rule <;> rfl
  | append_singleton errors error ih =>
    rw [responses_append_singleton, wanted_append_singleton, kept?_append_singleton, ← ih]
    exact get?_addResponse rule operation _ _ error code

/-- The collisions of sources that stand behind others. -/
def clashesBehind (past : List (String × String)) : List (String × String) → List Finding
  | [] => []
  | (code, source) :: rest =>
    ((standing rule (sourcesUnder code past)).map
      fun former => clash rule operation code former source).toList
      ++ clashesBehind (past ++ [(code, source)]) rest

/-- The collisions of several sources : each meets the one that stands under its status code, of
those before it, if there are any. -/
def clashes (l : List (String × String)) : List Finding := clashesBehind rule operation [] l

theorem clashesBehind_append_singleton (past l : List (String × String)) (code source : String) :
    clashesBehind rule operation past (l ++ [(code, source)]) =
      clashesBehind rule operation past l ++
        ((standing rule (sourcesUnder code (past ++ l))).map
          fun former => clash rule operation code former source).toList := by
  induction l generalizing past with
  | nil => simp [clashesBehind]
  | cons e l ih => simp [clashesBehind, ih]

/-- The collisions of the responses are those of the sources, in the order of the errors. -/
theorem filter_isCollision_responses (op : Operation) :
    (responses codes rule operation op).2.filter isCollision =
      clashes rule operation (sources codes op) := by
  obtain ⟨input, output, errors⟩ := op
  induction errors using List.reverseRecOn with
  | nil => cases rule <;> rfl
  | append_singleton errors error ih =>
    have hfilled : (if codes.contains error then []
        else [Finding.defaultedErrorCode operation error]).filter isCollision = [] := by
      split_ifs <;> simp [isCollision]
    have hadded : (addResponse rule operation
        (responses codes rule operation ⟨input, output, errors⟩).1
        (ErrorStatus.resolve codes error) error).2.filter isCollision =
          (addResponse rule operation (responses codes rule operation ⟨input, output, errors⟩).1
            (ErrorStatus.resolve codes error) error).2 := by
      rw [List.filter_eq_self]
      exact fun f hf => isCollision_of_mem_addResponse hf
    rw [sources_eq_map_wanted] at ih ⊢
    rw [responses_append_singleton, wanted_append_singleton, List.map_append, List.map_singleton,
      clashes, clashesBehind_append_singleton, ← clashes, ← ih, List.nil_append, ← source_kept?,
      ← get?_responses codes rule operation, Option.map_map]
    rw [addError, List.filter_append, List.filter_append, hfilled, hadded, List.append_nil,
      addResponse_snd]
    rfl

end Responses

/-! ## Collisions under one status code -/

section Under

variable (rule : DuplicateStatus) (operation code : String)

/-- Whether a finding is a collision under a status code. -/
def collidesUnder : Finding → Bool
  | .statusCodeCollision _ c .. => c = code
  | _ => false

/-- The collisions of several sources under one status code : under keep-first each is dropped for
the first, and under keep-last each but the last is dropped for the next. -/
def chain (l : List String) : List Finding :=
  match rule, l with
  | .keepFirst, [] => []
  | .keepFirst, first :: rest => rest.map (.statusCodeCollision operation code first)
  | .keepLast, l =>
    l.zipWith (fun former source => .statusCodeCollision operation code source former) l.tail

/-- All sources under one status code but the one that stands. -/
def dropped (l : List String) : List String :=
  match rule with
  | .keepFirst => l.tail
  | .keepLast => l.dropLast

/-- What a collision under a status code drops. -/
def dropped? : Finding → Option String
  | .statusCodeCollision _ c _ source => if c = code then some source else none
  | _ => none

theorem chain_append_singleton (l : List String) (source : String) :
    chain rule operation code (l ++ [source]) = chain rule operation code l ++
      ((standing rule l).map fun former => clash rule operation code former source).toList := by
  cases rule with
  | keepFirst => cases l <;> simp [chain, standing, clash]
  | keepLast => exact zipWith_tail_append_singleton _ l source

theorem collidesUnder_clash (other former source : String) :
    collidesUnder code (clash rule operation other former source) = decide (other = code) := by
  cases rule <;> rfl

theorem sourcesUnder_append_singleton (l : List (String × String)) (other source : String) :
    sourcesUnder code (l ++ [(other, source)]) =
      sourcesUnder code l ++ if other = code then [source] else [] := by
  rw [sourcesUnder, List.filter_append, List.map_append]
  congr 1
  by_cases h : other = code <;> simp [h]

theorem filter_collidesUnder_clashes (l : List (String × String)) :
    (clashes rule operation l).filter (collidesUnder code) =
      chain rule operation code (sourcesUnder code l) := by
  induction l using List.reverseRecOn with
  | nil => cases rule <;> rfl
  | append_singleton l e ih =>
    obtain ⟨other, source⟩ := e
    rw [clashes, clashesBehind_append_singleton, ← clashes, List.filter_append, ih,
      sourcesUnder_append_singleton, List.nil_append]
    by_cases hcode : other = code
    · subst hcode
      rw [if_pos rfl, chain_append_singleton]
      congr 1
      cases standing rule (sourcesUnder other l) <;> simp [collidesUnder_clash]
    · rw [if_neg hcode, List.append_nil, List.append_right_eq_self]
      cases standing rule (sourcesUnder other l) <;> simp [collidesUnder_clash, hcode]

/-- Every source under a status code but the one that stands is dropped once. -/
theorem filterMap_dropped?_chain (l : List String) :
    (chain rule operation code l).filterMap (dropped? code) = dropped rule l := by
  cases rule with
  | keepFirst =>
    cases l with
    | nil => rfl
    | cons first rest =>
      rw [chain, List.filterMap_map]
      refine (List.filterMap_congr fun source _ => ?_).trans List.filterMap_some
      exact if_pos rfl
  | keepLast =>
    induction l using List.reverseRecOn with
    | nil => rfl
    | append_singleton l source ih =>
      rw [chain_append_singleton, List.filterMap_append, ih, dropped, dropped,
        List.dropLast_concat]
      cases hlast : l.getLast? with
      | none =>
        rw [List.getLast?_eq_none_iff] at hlast
        subst hlast
        rfl
      | some former =>
        have hdropped : l.dropLast ++ [former] = l := List.dropLast_append_getLast? former hlast
        simpa [standing, hlast, clash, dropped?] using hdropped

end Under

/-! ## The response table -/

/-- The response that reports an error under a status code, whichever error it is. -/
def errorBody (code : String) : Json :=
  .object [("description", .string (code ++ " response")), ("content", content openObject)]

/-- What asks for a response under another code than that of the success is an error. -/
theorem body_of_mem_wanted {codes : Table String} {op : Operation} {code : String}
    {response : Response} (h : (code, response) ∈ wanted codes op) :
    (code = successStatus ∧ response = success op) ∨
      code ∈ op.errors.map (ErrorStatus.resolve codes) ∧ response.body = errorBody code := by
  rcases List.mem_cons.1 h with heq | hmem
  · exact Or.inl (Prod.mk.inj heq)
  · obtain ⟨error, herror, heq⟩ := List.mem_map.1 hmem
    obtain ⟨rfl, rfl⟩ := Prod.mk.inj heq
    exact Or.inr ⟨List.mem_map_of_mem herror, rfl⟩

theorem mem_of_kept? {rule : DuplicateStatus} {code : String} {l : List (String × Response)}
    {response : Response} (h : kept? rule code l = some response) : (code, response) ∈ l := by
  cases rule with
  | keepFirst => exact Table.mem_of_lookup h
  | keepLast => exact List.mem_reverse.1 (Table.mem_of_lookup h)

/-- The success has its status code unless an error has taken it. -/
theorem kept?_successStatus (codes : Table String) (rule : DuplicateStatus) (op : Operation) :
    ∃ response, kept? rule successStatus (wanted codes op) = some response ∧
      response.body =
        if rule = .keepLast ∧ successStatus ∈ op.errors.map (ErrorStatus.resolve codes)
        then errorBody successStatus else (success op).body := by
  cases rule with
  | keepFirst => exact ⟨success op, by simp [kept?, wanted], by simp⟩
  | keepLast =>
    have hsplit : kept? .keepLast successStatus (wanted codes op) =
        (kept? .keepLast successStatus (wanted codes op).tail).or (some (success op)) := by
      rw [kept?, kept?, wanted, List.reverse_cons, List.lookup_append, List.tail_cons]
      rfl
    cases herror : kept? .keepLast successStatus (wanted codes op).tail with
    | none =>
      have hnone : successStatus ∉ op.errors.map (ErrorStatus.resolve codes) := by
        rw [kept?, Table.lookup_eq_none_iff_not_mem, List.map_reverse, List.mem_reverse,
          List.map_tail, map_fst_wanted] at herror
        exact herror
      rw [hsplit, herror]
      exact ⟨success op, rfl, by simp [hnone]⟩
    | some response =>
      obtain ⟨error, hmem, heq⟩ := List.mem_map.1 (mem_of_kept? herror)
      obtain ⟨hcode, rfl⟩ := Prod.mk.inj heq
      have htaken : successStatus ∈ op.errors.map (ErrorStatus.resolve codes) :=
        List.mem_map.2 ⟨error, hmem, hcode⟩
      rw [hsplit, herror]
      refine ⟨_, rfl, ?_⟩
      rw [if_pos ⟨rfl, htaken⟩, ← hcode]
      rfl

/-- Whether an error of an operation asks for the status code of the success. -/
def competes (codes : Table String) (op : Operation) : Bool :=
  op.errors.any fun error => ErrorStatus.resolve codes error = successStatus

/-- An error competes with the success if it has its status code. -/
theorem competes_iff {codes : Table String} {op : Operation} :
    competes codes op = true ↔ successStatus ∈ op.errors.map (ErrorStatus.resolve codes) := by
  simp [competes]

/-- What stands under a status code is the success or the one error response of this code. -/
theorem body_of_get?_responses {codes : Table String} {rule : DuplicateStatus} {operation : String}
    {op : Operation} {code : String} {response : Response}
    (h : (responses codes rule operation op).1.get? code = some response) :
    response.body = if code = successStatus ∧ ¬ (rule = .keepLast ∧ competes codes op = true)
      then (success op).body else errorBody code := by
  rw [get?_responses] at h
  by_cases hcode : code = successStatus
  · subst hcode
    obtain ⟨kept, hkept, hbody⟩ := kept?_successStatus codes rule op
    rw [h] at hkept
    obtain rfl := Option.some.inj hkept
    simp only [← competes_iff] at hbody
    rw [hbody]
    by_cases htaken : rule = .keepLast ∧ competes codes op = true
    · rw [if_pos htaken, if_neg fun hstays => hstays.2 htaken]
    · rw [if_neg htaken, if_pos ⟨rfl, htaken⟩]
  · rw [if_neg fun hstays => hcode hstays.1]
    rcases body_of_mem_wanted (mem_of_kept? h) with ⟨hsuccess, -⟩ | ⟨-, hbody⟩
    · exact absurd hsuccess hcode
    · exact hbody

/-- Responses and findings that account for all that asks for a response. -/
structure Accounts (codes : Table String) (rule : DuplicateStatus) (operation : String)
    (op : Operation) (table : Table Response) (findings : List Finding) : Prop where
  /-- The success comes first, then the status codes of errors in the order of their first
  mentions. -/
  statuses : (responsesJson table).members.map Prod.fst =
    "200" :: ((op.errors.map (ErrorStatus.resolve codes)).filter (· ≠ "200")).eraseDups
  /-- Any other status code than that of the success has the response of an error. -/
  failed : ∀ code body, (code, body) ∈ (responsesJson table).members → code ≠ "200" →
    body = errorBody code
  /-- The success has its status code unless the last one counts and an error asks for it too. -/
  succeeded : (responsesJson table).members.lookup "200" =
    some (if rule = .keepLast ∧ "200" ∈ op.errors.map (ErrorStatus.resolve codes)
      then errorBody "200" else (success op).body)
  /-- The response under a status code is that of the first or of the last that asks for it. -/
  survivor : ∀ code, (table.get? code).map (·.source) =
    standing rule (sourcesUnder code (sources codes op))
  /-- The collisions stand in the order of the errors. -/
  collisions : findings.filter isCollision = clashes rule operation (sources codes op)
  /-- Under one status code the rule says which two sources meet. -/
  underCode : ∀ code, findings.filter (collidesUnder code) =
    chain rule operation code (sourcesUnder code (sources codes op))
  /-- Each source under a status code but the one that stands is dropped once. -/
  dropped : ∀ code, findings.filterMap (dropped? code) =
    dropped rule (sourcesUnder code (sources codes op))

section Responses

variable (codes : Table String) (rule : DuplicateStatus) (operation : String) (op : Operation)

/-- The status codes of the table are that of the success and those that errors mention. -/
theorem map_fst_members_responses :
    (responsesJson (responses codes rule operation op).1).members.map Prod.fst =
      "200" :: ((op.errors.map (ErrorStatus.resolve codes)).filter (· ≠ "200")).eraseDups := by
  have hkeys := keys_responses codes rule operation op
  rw [map_fst_wanted, List.eraseDups_cons] at hkeys
  have hothers : (op.errors.map (ErrorStatus.resolve codes)).filter (fun c => !c == "200") =
      (op.errors.map (ErrorStatus.resolve codes)).filter (· ≠ "200") :=
    List.filter_congr fun c _ => by by_cases hc : c = "200" <;> simp [hc]
  rw [← hothers, map_fst_members_responsesJson]
  exact hkeys

/-- What the table reports under a status code has been asked for under it. -/
theorem exists_wanted_of_mem_members {code : String} {body : Json}
    (h : (code, body) ∈ (responsesJson (responses codes rule operation op).1).members) :
    ∃ response, (code, response) ∈ wanted codes op ∧ body = response.body := by
  obtain ⟨⟨c, response⟩, hentry, heq⟩ := List.mem_map.1 h
  obtain ⟨rfl, rfl⟩ := Prod.mk.inj heq
  rw [Table.mem_entries_iff, get?_responses] at hentry
  exact ⟨response, mem_of_kept? hentry, rfl⟩

/-- The collisions under a status code are the chain of the sources under it. -/
theorem filter_collidesUnder_responses (code : String) :
    (responses codes rule operation op).2.filter (collidesUnder code) =
      chain rule operation code (sourcesUnder code (sources codes op)) := by
  rw [← filter_collidesUnder_clashes, ← filter_isCollision_responses, List.filter_filter]
  refine List.filter_congr fun f _ => ?_
  cases f <;> simp [collidesUnder, isCollision]

/-- The sources that are dropped under a status code are found in the chain of this code. -/
theorem filterMap_dropped?_responses (code : String) :
    (responses codes rule operation op).2.filterMap (dropped? code) =
      dropped rule (sourcesUnder code (sources codes op)) := by
  rw [← filterMap_dropped?_chain rule operation code, ← filter_collidesUnder_responses,
    List.filterMap_filter]
  refine List.filterMap_congr fun f _ => ?_
  cases f <;> simp [collidesUnder, dropped?]

/-- The response under the status code of the success is that of an error only if the last one
counts and an error asks for this code. -/
theorem lookup_success_responses :
    (responsesJson (responses codes rule operation op).1).members.lookup "200" =
      some (if rule = .keepLast ∧ "200" ∈ op.errors.map (ErrorStatus.resolve codes)
        then errorBody "200" else (success op).body) := by
  obtain ⟨response, hkept, hbody⟩ := kept?_successStatus codes rule op
  have hentry : (successStatus, response) ∈ (responses codes rule operation op).1.entries := by
    rw [Table.mem_entries_iff, get?_responses, hkept]
  refine Table.lookup_of_mem ?_ (List.mem_map.2 ⟨_, hentry, congrArg (Prod.mk "200") hbody⟩)
  rw [map_fst_members_responsesJson]
  exact (responses codes rule operation op).1.nodup_keys

end Responses

/-- The responses of an operation account for the success and all errors, whatever their status
codes are. -/
theorem accounts_responses (codes : Table String) (rule : DuplicateStatus) (operation : String)
    (op : Operation) :
    Accounts codes rule operation op (responses codes rule operation op).1
      (responses codes rule operation op).2 := by
  constructor
  case statuses => exact map_fst_members_responses codes rule operation op
  case failed =>
    intro code body hmem hcode
    obtain ⟨response, hresponse, rfl⟩ := exists_wanted_of_mem_members codes rule operation op hmem
    rcases body_of_mem_wanted hresponse with ⟨hsuccess, -⟩ | ⟨-, hbody⟩
    · exact absurd hsuccess hcode
    · exact hbody
  case succeeded => exact lookup_success_responses codes rule operation op
  case survivor =>
    intro code
    rw [get?_responses, source_kept?, sources_eq_map_wanted]
  case collisions => exact filter_isCollision_responses codes rule operation op
  case underCode => exact filter_collidesUnder_responses codes rule operation op
  case dropped => exact filterMap_dropped?_responses codes rule operation op

/-- Three errors ask for one status code, and one for that of the success : the last of them have
them in the end, and all others are dropped. -/
example :
    let codes := Table.ofList [("E", "404"), ("F", "404"), ("G", "404"), ("S", "200")]
    let result := responses codes .keepLast "X" ⟨none, some "O", ["E", "F", "S", "G"]⟩
    result.1.entries.map (fun e => (e.1, e.2.source)) = [("200", "S"), ("404", "G")] ∧
      result.2 = [.statusCodeCollision "X" "404" "F" "E", .statusCodeCollision "X" "200" "S" "O",
        .statusCodeCollision "X" "404" "G" "F"] := by
  decide +kernel

end ServiceContract.Contract
