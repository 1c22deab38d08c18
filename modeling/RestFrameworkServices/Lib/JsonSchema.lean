import Mathlib.Data.List.Count
import Mathlib.Data.Rat.Defs

/-!
# What a JSON Schema accepts

A schema over constants of a type `κ` is a conjunction of keywords (`all`), each of which constrains the
values of one kind and lets the others be. `valid` is the validator: it runs, and is what a schema means.
A constant that cannot be written as JSON is one no value is equal to.

A `oneOf` fails where two of its schemas accept a value. `valid_oneOf_iff_anyOf` says it accepts what an
`anyOf` of them does, where no value is accepted by two.
-/

namespace Lib

universe u

/-- A JSON value. A number is what its text writes. -/
inductive Instance where
  | null
  | bool (b : Bool)
  | number (q : ℚ)
  | string (s : String)
  | array (items : List Instance)
  | object (members : List (String × Instance))

namespace Instance

mutual

/-- Two values are equal: objects in any order of their members, numbers as numbers. -/
def equal : Instance → Instance → Bool
  | null, null => true
  | bool a, bool b => a == b
  | number a, number b => a == b
  | string a, string b => a == b
  | array xs, array ys => equalItems xs ys
  | object xs, object ys => xs.length == ys.length && equalMembers xs ys
  | _, _ => false

/-- Two arrays are equal, item by item. -/
def equalItems : List Instance → List Instance → Bool
  | [], [] => true
  | x :: xs, y :: ys => equal x y && equalItems xs ys
  | _, _ => false

/-- Each member of an object is one of the other's. -/
def equalMembers : List (String × Instance) → List (String × Instance) → Bool
  | [], _ => true
  | (name, x) :: xs, ys => ys.any (fun m => m.1 == name && equal x m.2) && equalMembers xs ys

end

/-- No two items are equal. -/
def Distinct (items : List Instance) : Prop := items.Pairwise fun x y => equal x y = false

instance (items : List Instance) : Decidable (Distinct items) :=
  inferInstanceAs (Decidable (items.Pairwise fun x y => equal x y = false))

/-- The types of the `type` keyword. An integer is a number too, and `1.0` an integer. -/
def hasType : String → Instance → Bool
  | "null", null => true
  | "boolean", bool _ => true
  | "integer", number q => q.isInt
  | "number", number _ => true
  | "string", string _ => true
  | "array", array _ => true
  | "object", object _ => true
  | _, _ => false

end Instance

open Instance

/-- A schema: a conjunction of keywords, or a keyword. An `additionalProperties` says which properties are
declared beside it, and a keyword that only describes is a `note`. -/
inductive Schema (κ : Type u) where
  | all (keywords : List (Schema κ))
  | type (name : String)
  | note (keyword text : String)
  | enum (values : List κ)
  | const (value : κ)
  | anyOf (schemas : List (Schema κ))
  | oneOf (schemas : List (Schema κ))
  | items (schema : Schema κ)
  | uniqueItems
  | minItems (n : ℕ)
  | properties (schemas : List (String × Schema κ))
  | required (names : List String)
  | additionalProperties (declared : List String) (schema : Schema κ)

namespace Schema

variable {κ : Type u}

/-- `{}`, which accepts anything. -/
def any : Schema κ := all []

variable (encode : κ → Option Instance)

/-- A value is what a constant is written as. -/
def isConstant (value : κ) (x : Instance) : Bool := (encode value).any fun y => equal y x

mutual

/-- A schema accepts a value. -/
def valid : Schema κ → Instance → Bool
  | all keywords => validAll keywords
  | type name => hasType name
  | note _ _ => fun _ => true
  | enum values => fun x => values.any fun value => isConstant encode value x
  | const value => isConstant encode value
  | anyOf schemas => fun x => validCount schemas x != 0
  | oneOf schemas => fun x => validCount schemas x == 1
  | items schema => fun
    | .array xs => xs.all (valid schema)
    | _ => true
  | uniqueItems => fun
    | .array xs => decide (Distinct xs)
    | _ => true
  | minItems n => fun
    | .array xs => decide (n ≤ xs.length)
    | _ => true
  | properties schemas => fun
    | .object ms => validProperties schemas ms
    | _ => true
  | required names => fun
    | .object ms => names.all fun name => (ms.lookup name).isSome
    | _ => true
  | additionalProperties declared schema => fun
    | .object ms => ms.all fun m => declared.contains m.1 || valid schema m.2
    | _ => true

/-- Every keyword accepts a value. -/
def validAll : List (Schema κ) → Instance → Bool
  | [] => fun _ => true
  | keyword :: keywords => fun x => valid keyword x && validAll keywords x

/-- How many of the schemas accept a value. -/
def validCount : List (Schema κ) → Instance → ℕ
  | [] => fun _ => 0
  | schema :: schemas => fun x => (valid schema x).toNat + validCount schemas x

/-- Each property accepts the member of its name, where there is one. -/
def validProperties : List (String × Schema κ) → List (String × Instance) → Bool
  | [] => fun _ => true
  | (name, schema) :: schemas => fun ms =>
    ((ms.lookup name).all fun x => valid schema x) && validProperties schemas ms

end

/-! ### What each keyword accepts -/

section
variable {encode} {x : Instance}

attribute [local simp] valid validAll validCount validProperties

/-- A constant is what is equal to its encoding. -/
theorem isConstant_iff {value : κ} :
    isConstant encode value x = true ↔ ∃ y, encode value = some y ∧ equal y x = true := by
  rw [isConstant, Option.any_eq_true]

/-- A list of keywords accepts what each of them does. -/
theorem validAll_iff : ∀ {keywords : List (Schema κ)},
    validAll encode keywords x = true ↔ ∀ keyword ∈ keywords, valid encode keyword x = true
  | [] => by simp
  | keyword :: keywords => by
    rw [validAll, Bool.and_eq_true, validAll_iff, List.forall_mem_cons]

/-- So does a schema of them. -/
@[simp] theorem valid_all {keywords : List (Schema κ)} :
    valid encode (all keywords) x = true ↔
      ∀ keyword ∈ keywords, valid encode keyword x = true := by
  rw [valid, validAll_iff]

@[simp] theorem valid_any : valid encode any x = true := by
  rw [any, valid_all]
  exact nofun

@[simp] theorem valid_type {name : String} : valid encode (type name) x = hasType name x := by
  rw [valid]

@[simp] theorem valid_note {keyword text : String} : valid encode (note keyword text) x = true := by
  rw [valid]

@[simp] theorem valid_enum {values : List κ} :
    valid encode (enum values) x = true ↔ ∃ value ∈ values, isConstant encode value x = true := by
  rw [valid, List.any_eq_true]

@[simp] theorem valid_const {value : κ} :
    valid encode (const value) x = isConstant encode value x := by
  rw [valid]

/-- The count is of the schemas that accept. -/
theorem validCount_eq : ∀ {schemas : List (Schema κ)},
    validCount encode schemas x = schemas.countP fun schema => valid encode schema x
  | [] => rfl
  | schema :: schemas => by
    simp only [validCount]
    rw [validCount_eq, List.countP_cons, Nat.add_comm]
    cases valid encode schema x <;> rfl

/-- `anyOf` accepts what one of the schemas does. -/
@[simp] theorem valid_anyOf {schemas : List (Schema κ)} :
    valid encode (anyOf schemas) x = true ↔ ∃ schema ∈ schemas, valid encode schema x = true := by
  simp only [valid]
  rw [validCount_eq, bne_iff_ne, Nat.ne_zero_iff_zero_lt, List.countP_pos_iff]

/-- `oneOf` accepts what exactly one of them does. -/
theorem valid_oneOf {schemas : List (Schema κ)} :
    valid encode (oneOf schemas) x = true ↔
      schemas.countP (fun schema => valid encode schema x) = 1 := by
  simp only [valid]
  rw [validCount_eq, beq_iff_eq]

/-- A `oneOf` of schemas no two of which accept one value is an `anyOf` of them. -/
theorem valid_oneOf_iff_anyOf {schemas : List (Schema κ)}
    (h : schemas.Pairwise fun s t => ¬ (valid encode s x = true ∧ valid encode t x = true)) :
    valid encode (oneOf schemas) x = true ↔ ∃ schema ∈ schemas, valid encode schema x = true := by
  rw [valid_oneOf, ← List.countP_pos_iff]
  have hle : schemas.countP (fun schema => valid encode schema x) ≤ 1 := by
    induction schemas with
    | nil => exact Nat.zero_le 1
    | cons s schemas ih =>
      rw [List.pairwise_cons] at h
      rw [List.countP_cons]
      split
      · next hs =>
        have hnone : schemas.countP (fun schema => valid encode schema x) = 0 :=
          List.countP_eq_zero.2 fun t ht hx => h.1 t ht ⟨hs, hx⟩
        omega
      · exact ih h.2
  omega

@[simp] theorem valid_items {schema : Schema κ} {xs : List Instance} :
    valid encode (items schema) (.array xs) = true ↔ ∀ y ∈ xs, valid encode schema y = true := by
  rw [valid, List.all_eq_true]

@[simp] theorem valid_uniqueItems {xs : List Instance} :
    valid encode uniqueItems (.array xs) = true ↔ Distinct xs := by
  rw [valid, decide_eq_true_iff]

@[simp] theorem valid_minItems {n : ℕ} {xs : List Instance} :
    valid encode (minItems n) (.array xs) = true ↔ n ≤ xs.length := by
  rw [valid, decide_eq_true_iff]

/-- An object has its required members. -/
@[simp] theorem valid_required {names : List String} {ms : List (String × Instance)} :
    valid encode (required names) (.object ms) = true ↔
      ∀ name ∈ names, (ms.lookup name).isSome = true := by
  rw [valid, List.all_eq_true]

/-- The loop accepts an object whose members are each as their schema says. -/
theorem validProperties_iff {ms : List (String × Instance)} :
    ∀ {schemas : List (String × Schema κ)}, validProperties encode schemas ms = true ↔
      ∀ e ∈ schemas, ∀ y, ms.lookup e.1 = some y → valid encode e.2 y = true
  | [] => by simp
  | (name, schema) :: schemas => by
    rw [validProperties, Bool.and_eq_true, validProperties_iff, List.forall_mem_cons]
    rw [Option.all_eq_true]

/-- So does `properties`. -/
@[simp] theorem valid_properties {schemas : List (String × Schema κ)} {ms : List (String × Instance)} :
    valid encode (properties schemas) (.object ms) = true ↔
      ∀ e ∈ schemas, ∀ y, ms.lookup e.1 = some y → valid encode e.2 y = true := by
  rw [valid, validProperties_iff]

/-- Where no member is named, each is as `additionalProperties` says. -/
@[simp] theorem valid_additionalProperties {schema : Schema κ} {ms : List (String × Instance)} :
    valid encode (additionalProperties [] schema) (.object ms) = true ↔
      ∀ m ∈ ms, valid encode schema m.2 = true := by
  rw [valid, List.all_eq_true]
  simp

/-- Only an array is of its type. -/
theorem hasType_array : hasType "array" x = true ↔ ∃ xs, x = .array xs := by
  cases x <;> simp [hasType]

/-- Only an object is. -/
theorem hasType_object : hasType "object" x = true ↔ ∃ ms, x = .object ms := by
  cases x <;> simp [hasType]

end

end Schema

end Lib
