import GradualRuntime.Binary64

/-!
# Values and their identity

The values that programs pass around: two null sentinels, booleans, 64-bit integers, double
precision numbers, text, and references to functions, objects and classes. A reference is a number
of a store, so two references are the same exactly when their numbers are.

`Value.identical` is identity as programs see it. Primitives compare by value, and numbers compare
across their two representations, so an integer is identical to the double that denotes it exactly;
references compare by number. `Value.identityKey` is the key under which tables file a value.
-/

set_option autoImplicit false

namespace GradualRuntime

/-- A reference to a function. -/
structure FunctionId where
  index : Nat
  deriving DecidableEq, Repr

/-- A reference to an object. -/
structure ObjectId where
  index : Nat
  deriving DecidableEq, Repr

/-- A reference to a class. -/
structure ClassId where
  index : Nat
  deriving DecidableEq, Repr

/-- A reference to the cell behind a lazy binding. -/
structure CellId where
  index : Nat
  deriving DecidableEq, Repr

/-- A reference to a memoized generic type. -/
structure GenericId where
  index : Nat
  deriving DecidableEq, Repr

/-- A reference to the table behind a linked map. -/
structure TableId where
  index : Nat
  deriving DecidableEq, Repr

/-- A runtime value. A class used as a value is a `type`. -/
inductive Value where
  | undefined
  | null
  | boolean (truth : Bool)
  | integer (number : Int64)
  | float (number : Binary64)
  | string (text : String)
  | function (reference : FunctionId)
  | object (reference : ObjectId)
  | type (reference : ClassId)
  deriving DecidableEq

/-- The key of a value in a table that files values by identity. -/
inductive IdentityKey where
  | undefined
  | null
  | boolean (truth : Bool)
  | integer (number : Int64)
  | float (number : Binary64)
  | string (text : String)
  | function (reference : FunctionId)
  | object (reference : ObjectId)
  | type (reference : ClassId)
  deriving DecidableEq

/-- The kinds of primitive values whose members can be looked up on a registered prototype. -/
inductive PrimitiveKind where
  | boolean
  | number
  | string
  | function
  deriving DecidableEq, Repr

namespace PrimitiveKind

/-- The name of a primitive kind. -/
def name : PrimitiveKind → String
  | boolean => "Boolean"
  | number => "Number"
  | string => "String"
  | function => "Function"

end PrimitiveKind

namespace Value

instance : Inhabited Value := ⟨undefined⟩

/-- Both null sentinels are nullish. -/
def isNullish : Value → Bool
  | undefined | null => true
  | _ => false

theorem isNullish_iff {value : Value} :
    value.isNullish = true ↔ value = undefined ∨ value = null := by
  cases value <;> simp [isNullish]

theorem isNullish_eq_false_iff {value : Value} :
    value.isNullish = false ↔ value ≠ undefined ∧ value ≠ null := by
  rw [← Bool.not_eq_true, isNullish_iff, not_or]

/-- Truth of a value as a condition: sentinels, zeros, numbers that are none and empty text are
false, references are true. -/
def isTruthy : Value → Bool
  | undefined | null => false
  | boolean truth => truth
  | integer number => number != 0
  | float number => !number.isZero && !number.isNaN
  | string text => !text.isEmpty
  | function _ | object _ | type _ => true

/-- The falsy values are the sentinels, `false`, the zeros, the doubles that are no numbers and the
empty text. -/
theorem isTruthy_eq_false_iff {value : Value} :
    value.isTruthy = false ↔
      value ∈ [undefined, null, boolean false, integer 0, string ""] ∨
        ∃ number : Binary64, value = float number ∧
          (number.isZero = true ∨ number.isNaN = true) := by
  cases value with
  | float number =>
    simp only [isTruthy, List.mem_cons, List.not_mem_nil, reduceCtorEq, or_self, false_or,
      float.injEq, exists_eq_left', Bool.and_eq_false_iff, Bool.not_eq_false']
  | _ => simp [isTruthy]

/-- The type name of a value as diagnostics report it. -/
def typeName : Value → String
  | undefined => "undefined"
  | null => "Null"
  | boolean _ => "bool"
  | integer _ => "int"
  | float _ => "double"
  | string _ => "String"
  | function _ => "Function"
  | object _ => "Object"
  | type _ => "Type"

/-- The primitive kind of a value: both representations of numbers are one kind, and sentinels,
objects and classes have none. -/
def primitiveKind? : Value → Option PrimitiveKind
  | boolean _ => some .boolean
  | integer _ | float _ => some .number
  | string _ => some .string
  | function _ => some .function
  | _ => none

/-- Identity as programs see it. A number that is none is not identical to itself. -/
def identical : Value → Value → Bool
  | undefined, undefined => true
  | null, null => true
  | boolean left, boolean right => left == right
  | integer left, integer right => left == right
  | float left, float right => left.numericallyEqual right
  | integer left, float right => right.exactInteger? == some left
  | float left, integer right => left.exactInteger? == some right
  | string left, string right => left == right
  | function left, function right => left == right
  | object left, object right => left == right
  | type left, type right => left == right
  | _, _ => false

/-- The key of a value in tables. A double that denotes an integer has the key of that integer; any
other double is filed under its word. -/
def identityKey : Value → IdentityKey
  | undefined => .undefined
  | null => .null
  | boolean truth => .boolean truth
  | integer number => .integer number
  | float number =>
    match number.exactInteger? with
    | some exact => .integer exact
    | none => .float number
  | string text => .string text
  | function reference => .function reference
  | object reference => .object reference
  | type reference => .type reference

/-- Whether two values are the same function, object or class. -/
def sameReference : Value → Value → Bool
  | function left, function right => left == right
  | object left, object right => left == right
  | type left, type right => left == right
  | _, _ => false

/-- Two lists of values agree when they have one length and agree place by place. -/
def identicalLists : List Value → List Value → Bool
  | [], [] => true
  | left :: lefts, right :: rights => left.identical right && identicalLists lefts rights
  | _, _ => false

end Value

end GradualRuntime
