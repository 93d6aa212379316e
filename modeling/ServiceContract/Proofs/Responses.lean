import ServiceContract.Proofs.Reporting
/-!
# The findings of the responses of an operation

Every error target either gets a status code of its own or meets one that is taken. In the
second case there is one finding more and no response more, whichever of the two responses
stays, so responses and collisions are together as many as the errors and the success
(`size_add_countP_collides`). Besides, each mention of an error target without a status code is
reported (`count_defaultedErrorCode_responses`).
-/

namespace ServiceContract

namespace Contract

/-- The operation that a finding of a path item names. -/
def operation? : Finding → Option String
  | .statusCodeCollision operation .. => some operation
  | f => subject? f

/-- Whether a finding says that two responses of an operation have one status code. -/
def collides (operation : String) : Finding → Bool
  | .statusCodeCollision o .. => o = operation
  | _ => false

/-- Whether a finding is about the status code of a response. -/
def aboutCodes : Finding → Bool
  | .defaultedErrorCode .. | .statusCodeCollision .. => true
  | _ => false

/-! ## One more error -/

section AddError

variable (codes : Table String) (rule : DuplicateStatus) (operation : String)

/-- A response that is added has a new status code, or there is one collision. -/
theorem size_addResponse (table : Table Response) (code error : String) :
    (addResponse rule operation table code error).1.size +
        (addResponse rule operation table code error).2.countP (collides operation) =
      table.size + 1 := by
  unfold addResponse
  cases hcode : table.get? code with
  | none =>
    have hnew : code ∉ table.keys := Table.get?_eq_none_iff.1 hcode
    simp [Table.size_insert_of_not_mem hnew]
  | some existing =>
    have htaken : code ∈ table.keys := by
      rw [← Table.contains_iff, Table.contains, hcode]
      rfl
    cases rule with
    | keepFirst => simp [collides]
    | keepLast => simp [collides, Table.size_insert_of_mem htaken]

theorem size_addError (state : Table Response × List Finding) (error : String) :
    (addError codes rule operation state error).1.size +
        (addError codes rule operation state error).2.countP (collides operation) =
      state.1.size + state.2.countP (collides operation) + 1 := by
  have hadded := size_addResponse rule operation state.1 (ErrorStatus.resolve codes error) error
  have hfilled : (if codes.contains error then []
      else [Finding.defaultedErrorCode operation error]).countP (collides operation) = 0 := by
    split_ifs <;> simp [collides]
  simp only [addError, List.countP_append, hfilled]
  omega

theorem count_defaultedErrorCode_addError (state : Table Response × List Finding)
    (error target : String) :
    (addError codes rule operation state error).2.count (.defaultedErrorCode operation target) =
      state.2.count (.defaultedErrorCode operation target) +
        if error = target ∧ codes.get? target = none then 1 else 0 := by
  have hcollisions : (addResponse rule operation state.1 (ErrorStatus.resolve codes error)
      error).2.count (.defaultedErrorCode operation target) = 0 := by
    rw [List.count_eq_zero]
    intro hmem
    simpa [isCollision] using isCollision_of_mem_addResponse hmem
  simp only [addError, List.count_append, hcollisions, Nat.add_zero, Nat.add_left_cancel_iff]
  by_cases herror : error = target
  · subst herror
    cases hcode : codes.get? error <;> simp [Table.contains, hcode]
  · cases hcode : codes.get? error <;> simp [Table.contains, hcode, herror]

theorem operation?_of_mem_addError {state : Table Response × List Finding} {error : String}
    {f : Finding} (h : f ∈ (addError codes rule operation state error).2) :
    f ∈ state.2 ∨ operation? f = some operation := by
  unfold addError addResponse at h
  simp only [List.mem_append] at h
  rcases h with (hbefore | hfilled) | hadded
  · exact Or.inl hbefore
  · right
    split_ifs at hfilled
    · simp at hfilled
    · rw [List.mem_singleton.1 hfilled]
      rfl
  · right
    cases hcode : state.1.get? (ErrorStatus.resolve codes error) with
    | none => simp [hcode] at hadded
    | some existing =>
      rw [hcode] at hadded
      cases rule with
      | keepFirst => rw [List.mem_singleton.1 hadded]; rfl
      | keepLast => rw [List.mem_singleton.1 hadded]; rfl

end AddError

/-! ## All errors -/

section Responses

variable (codes : Table String) (rule : DuplicateStatus) (operation : String) (op : Operation)

/-- Responses and collisions are together as many as the errors and the success. -/
theorem size_add_countP_collides :
    (responses codes rule operation op).1.size +
        (responses codes rule operation op).2.countP (collides operation) =
      op.errors.length + 1 := by
  unfold responses
  induction op.errors using List.reverseRecOn with
  | nil => rfl
  | append_singleton errors error ih =>
    rw [List.foldl_append, List.foldl_cons, List.foldl_nil, size_addError, ih,
      List.length_append, List.length_singleton]

/-- Each mention of an error target without a status code is reported. -/
theorem count_defaultedErrorCode_responses (target : String) :
    (responses codes rule operation op).2.count (.defaultedErrorCode operation target) =
      if codes.get? target = none then op.errors.count target else 0 := by
  unfold responses
  induction op.errors using List.reverseRecOn with
  | nil => simp
  | append_singleton errors error ih =>
    rw [List.foldl_append, List.foldl_cons, List.foldl_nil, count_defaultedErrorCode_addError, ih,
      List.count_append, List.count_singleton]
    by_cases hcode : codes.get? target = none <;> simp [hcode]

/-- The findings of the responses name the operation. -/
theorem operation?_of_mem_responses {f : Finding}
    (h : f ∈ (responses codes rule operation op).2) : operation? f = some operation := by
  unfold responses at h
  generalize op.errors = errors at h
  induction errors using List.reverseRecOn with
  | nil => simp at h
  | append_singleton errors error ih =>
    rw [List.foldl_append, List.foldl_cons, List.foldl_nil] at h
    rcases operation?_of_mem_addError codes rule operation h with hbefore | hnew
    · exact ih hbefore
    · exact hnew

/-- All findings of responses are about status codes. -/
theorem aboutCodes_of_mem_responses {f : Finding}
    (h : f ∈ (responses codes rule operation op).2) : aboutCodes f = true := by
  cases hf : isCollision f with
  | true =>
    cases f with
    | statusCodeCollision => rfl
    | _ => simp [isCollision] at hf
  | false =>
    obtain ⟨error, -, -, rfl⟩ := (mem_responses_iff hf).1 h
    rfl

end Responses

end Contract

end ServiceContract
