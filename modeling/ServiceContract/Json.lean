import ServiceContract.Number
import ServiceContract.Table
/-!
# JSON values

A `Json` value keeps the members of an object in the order in which they are written,
and keeps integers apart from floating point numbers. The text of a value is in
`ServiceContract.Json.Render`, the reader in `ServiceContract.Json.Read`.
-/

namespace ServiceContract

/-- A JSON value. -/
inductive Json where
  /-- The literal for nothing. -/
  | null
  /-- A truth value. -/
  | bool (value : Bool)
  /-- A number without fraction and exponent. -/
  | int (value : Int)
  /-- A number with a fraction or an exponent. -/
  | float (value : Binary64)
  /-- A text. -/
  | string (value : String)
  /-- Values in order. -/
  | array (items : List Json)
  /-- Named values in order. -/
  | object (members : List (String × Json))
deriving Inhabited, Repr

namespace Json

mutual

/-- Whether two values are the same, members in order. -/
def beq : Json → Json → Bool
  | .null, .null => true
  | .bool a, .bool b => a == b
  | .int a, .int b => a == b
  | .float a, .float b => a == b
  | .string a, .string b => a == b
  | .array as, .array bs => beqItems as bs
  | .object as, .object bs => beqMembers as bs
  | _, _ => false

/-- Whether two lists of values are the same. -/
def beqItems : List Json → List Json → Bool
  | [], [] => true
  | a :: as, b :: bs => beq a b && beqItems as bs
  | _, _ => false

/-- Whether two lists of named values are the same. -/
def beqMembers : List (String × Json) → List (String × Json) → Bool
  | [], [] => true
  | (m, a) :: as, (n, b) :: bs => m == n && beq a b && beqMembers as bs
  | _, _ => false

end

instance : BEq Json := ⟨beq⟩

mutual

/-- Values that are compared as equal are equal. -/
theorem eq_of_beq : ∀ {v w : Json}, beq v w = true → v = w
  | .null, w, h => by cases w <;> simp_all [beq]
  | .bool _, w, h => by cases w <;> simp_all [beq]
  | .int _, w, h => by cases w <;> simp_all [beq]
  | .float _, w, h => by cases w <;> simp_all [beq]
  | .string _, w, h => by cases w <;> simp_all [beq]
  | .array vs, w, h => by
    cases w with
    | array ws => rw [eq_of_beqItems h]
    | _ => simp [beq] at h
  | .object vs, w, h => by
    cases w with
    | object ws => rw [eq_of_beqMembers h]
    | _ => simp [beq] at h

theorem eq_of_beqItems : ∀ {vs ws : List Json}, beqItems vs ws = true → vs = ws
  | [], ws, h => by cases ws <;> simp_all [beqItems]
  | v :: vs, [], h => by simp [beqItems] at h
  | v :: vs, w :: ws, h => by
    rw [beqItems, Bool.and_eq_true] at h
    rw [eq_of_beq h.1, eq_of_beqItems h.2]

theorem eq_of_beqMembers : ∀ {vs ws : List (String × Json)}, beqMembers vs ws = true → vs = ws
  | [], ws, h => by cases ws <;> simp_all [beqMembers]
  | v :: vs, [], h => by simp [beqMembers] at h
  | (m, v) :: vs, (n, w) :: ws, h => by
    rw [beqMembers, Bool.and_eq_true, Bool.and_eq_true, beq_iff_eq] at h
    rw [h.1.1, eq_of_beq h.1.2, eq_of_beqMembers h.2]

end

mutual

theorem beq_self : ∀ v : Json, beq v v = true
  | .null => rfl
  | .bool _ | .int _ | .float _ | .string _ => by simp [beq]
  | .array vs => beqItems_self vs
  | .object vs => beqMembers_self vs

theorem beqItems_self : ∀ vs : List Json, beqItems vs vs = true
  | [] => rfl
  | v :: vs => by rw [beqItems, beq_self v, beqItems_self vs]; rfl

theorem beqMembers_self : ∀ vs : List (String × Json), beqMembers vs vs = true
  | [] => rfl
  | (m, v) :: vs => by rw [beqMembers, beq_self v, beqMembers_self vs]; simp

end

instance : LawfulBEq Json where
  eq_of_beq := eq_of_beq
  rfl := beq_self _

instance : DecidableEq Json := instDecidableEqOfLawfulBEq

/-! ## Kinds of values -/

/-- Whether a value is a string. -/
def isString : Json → Bool
  | .string _ => true
  | _ => false

/-- Whether a value is a truth value. -/
def isBool : Json → Bool
  | .bool _ => true
  | _ => false

/-- Whether a value is a number. -/
def isNumber : Json → Bool
  | .int _ | .float _ => true
  | _ => false

/-- Whether a value is an object. -/
def isObject : Json → Bool
  | .object _ => true
  | _ => false

/-! ## Objects -/

/-- The object with the entries of a table. -/
def ofTable (t : Table Json) : Json := .object t.entries

/-- The value of the first member with the given name; nothing if this is no object. -/
def member? (key : String) : Json → Option Json
  | .object members => members.lookup key
  | _ => none

/-- The members of an object; none for any other value. -/
def members : Json → List (String × Json)
  | .object members => members
  | _ => []

end Json

end ServiceContract
