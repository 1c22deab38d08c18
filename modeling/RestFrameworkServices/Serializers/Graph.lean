import RestFrameworkServices.Types.Value
import RestFrameworkServices.Lib.Walk
import Mathlib.Algebra.Order.BigOperators.Group.Finset
import Mathlib.Data.Fintype.Basic

/-!
# Serializer declarations as a graph

A serializer nests others through its fields, directly, through `many=True` or as the child of a
list, to any depth (`Shape`). DRF builds a serializer's fields when they are read, so unfolding a
class that nests itself never ends: the serializers are the nodes `S` of a graph that may be
infinite, each of a class in `C`, with its fields in order (`Declarations`).

Every walk of the package over such a graph is a `Lib.Walk`. The two walks that describe an input
carry the classes on their path and stop at a class that appears on it too often; `budget` is the
measure that comes down along such a path.
-/

namespace RestFrameworkServices

open Lib

universe u v w

/-! ## Fields -/

/-- What a field is, as far as a walk reads it: a `ListField` of a child, a `DictField` of one, a
`ListSerializer` (a nested serializer under `many=True`), a nested serializer, or a field of another
class, by its name. -/
inductive Shape (S : Type v) where
  | leaf (kind : String)
  | list (child : Shape S)
  | dict (child : Shape S)
  | many (s : S)
  | nested (s : S)
deriving DecidableEq, Repr

namespace Shape

variable {S : Type v}

/-- The serializer the schema describes a field by, through any number of lists. It describes a
`DictField` by no more than its type. -/
def serializers : Shape S → List S
  | leaf _ | dict _ => []
  | list child => child.serializers
  | many s => [s]
  | nested s => [s]

/-- `getattr(field, "child", None)`. -/
def child : Shape S → Option (Shape S)
  | leaf _ | nested _ => none
  | list child | dict child => some child
  | many s => some (nested s)

/-- The serializer a field is, if it is one. -/
def serializer : Shape S → Option S
  | nested s => some s
  | _ => none

/-- How many list layers a field wraps a serializer in. -/
def lists : Shape S → ℕ
  | leaf _ | dict _ | nested _ => 0
  | list child => child.lists + 1
  | many _ => 1

end Shape

/-- The default a field declares: none (DRF's `empty`), the package's `UNSET`, a callable computed
per call, or a value. -/
inductive FieldDefault where
  | empty
  | unset
  | callable
  | value (v : Value)

/-- Whom a field is for, where an agent reads the output. -/
inductive FieldAudience where
  | handle
  | hidden
  | label
deriving DecidableEq, Repr

/-- A field's marking. -/
structure FieldMarking where
  audience : FieldAudience
deriving DecidableEq, Repr

/-- A value of a field's `style` bag: a marking, or anything else, as it prints. -/
inductive StyleEntry where
  | marking (m : FieldMarking)
  | other (repr : String)
deriving DecidableEq, Repr

/-- A field of a serializer. Its `label` is the one its author wrote, where that is not the one DRF
derives from the name; `choices` are a `ChoiceField`'s values and displays, as text. -/
structure DeclaredField (S : Type v) where
  source : String
  readOnly : Bool
  writeOnly : Bool
  required : Bool
  allowNull : Bool
  hidden : Bool
  default : FieldDefault
  label : Option String
  helpText : Option String
  style : List (String × StyleEntry)
  choices : Option (List (String × String))
  shape : Shape S

/-- The declarations of a program's serializers: the class and the fields, in order, of each. -/
structure Declarations (C : Type u) (S : Type v) where
  cls : S → C
  fields : S → Dict String (DeclaredField S)

/-- How many times one class may appear on a walk's path (`MAX_SERIALIZER_APPEARANCES`). -/
def maxSerializerAppearances : ℕ := 4

/-! ## Paths of classes -/

section
variable {C : Type u} [DecidableEq C]

/-- A class appears on the path as often as it may. -/
def Exhausted (path : List C) (c : C) : Prop := maxSerializerAppearances ≤ path.count c

instance (path : List C) (c : C) : Decidable (Exhausted path c) :=
  inferInstanceAs (Decidable (_ ≤ _))

/-- How many further appearances a path has room for, over all classes. -/
def budget [Fintype C] (path : List C) : ℕ :=
  Finset.univ.sum fun c => maxSerializerAppearances - path.count c

/-- **A class that has room on the path takes some of it up.** -/
theorem budget_lt [Fintype C] {path : List C} {c : C} (h : ¬ Exhausted path c) :
    budget (path ++ [c]) < budget path := by
  refine Finset.sum_lt_sum (fun d _ => ?_) ⟨c, Finset.mem_univ c, ?_⟩
  · rw [List.count_append]
    omega
  · have hroom : path.count c < maxSerializerAppearances := Nat.lt_of_not_le h
    have hone : [c].count c = 1 := by simp
    rw [List.count_append, hone]
    omega

end

end RestFrameworkServices
