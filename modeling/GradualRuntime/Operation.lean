import GradualRuntime.Config
import GradualRuntime.Fault
import GradualRuntime.Heap

/-!
# Operations

What a program can ask of the runtime. An `Operation` says what is asked; the values it works on
are supplied beside it as a list, in the order that its description names them. Names of properties
and functions are among these values, as text. An operation answers with an `Answer`: mostly a
value, for some questions a structured report.
-/

set_option autoImplicit false

namespace GradualRuntime

/-- A reference to a realm: a configuration with a type oracle and primitive prototypes. -/
structure RealmId where
  index : Nat
  deriving DecidableEq, Repr

/-- The shape of a property descriptor whose parts are operands. -/
inductive PropertyForm where
  /-- A value: an ordinary slot. -/
  | ordinary
  /-- A value: a slot that rejects writes. -/
  | constant
  /-- A function: the slot of a method. -/
  | method
  /-- A function: an accessor with a getter only. -/
  | getter
  /-- A getter and a setter, each only if announced. -/
  | accessor (hasGetter hasSetter enumerable : Bool)
  /-- A value: a slot with the given flags. -/
  | data (writable enumerable : Bool)
  /-- No operand: the lazy binding of the cell known under a name. -/
  | binding (cellName : String)
  deriving DecidableEq

/-- Where a configuration comes from. -/
inductive ConfigSource where
  /-- A TOML document. -/
  | document (text : String)
  /-- The standard configuration with settings replaced. -/
  | settings (changes : Settings)
  deriving DecidableEq

/-- Who decides questions about types. -/
inductive TypeOracle where
  /-- Nobody: casts let every value pass, tests are not supported. -/
  | unchecked
  /-- The functions bound to three names when a question is asked. -/
  | consulting (isInstance cast isGroundType : String)
  deriving DecidableEq

/-- How a dynamic call site finds what it calls. -/
inductive CallSite where
  /-- A member of the receiver. -/
  | call (name : String)
  /-- The receiver itself, called without a `this`. -/
  | apply
  | indexGet
  | indexSet
  /-- A binary operator, resolved on the left operand only. -/
  | binary (name : String)
  deriving DecidableEq

/-- The kinds of call sites, without the name that some of them carry. -/
inductive CallKind where
  | call
  | apply
  | indexGet
  | indexSet
  | binary
  deriving DecidableEq

namespace CallKind

/-- The call site of a kind with a name, which counts only for the kinds that carry one. -/
def site (name : String) : CallKind → CallSite
  | call => .call name
  | apply => .apply
  | indexGet => .indexGet
  | indexSet => .indexSet
  | binary => .binary name

end CallKind

/-- Questions about values. -/
inductive ValueOperation where
  | isNullish
  | isTruthy
  | typeName
  | display
  | inspect
  | identical
  | keysAgree
  | identityKey
  | primitiveKind
  | sameReference
  deriving DecidableEq

/-- Questions about functions and their arity, and the plain call. -/
inductive FunctionOperation where
  | name
  | formals
  /-- Function, `this`, arguments: the body is entered whatever the number of arguments. -/
  | call
  | isOptionalFormal (mark : String)
  | arity (mark : String)
  | acceptsCount (mark : String) (count : Nat)
  | arityAccepts (arity : Arity) (count : Nat)
  deriving DecidableEq

/-- Making, reading and changing objects. -/
inductive ObjectOperation where
  /-- An object on a prototype, the operand if announced, perhaps with a tag. -/
  | allocate (hasPrototype : Bool) (tag : Option String)
  /-- Names and values alternate: an object with these ordinary slots. -/
  | ofEntries
  | define (form : PropertyForm)
  | own
  | isBinding
  | inspectOwn
  /-- Source, target, name on the source, name on the target. -/
  | copyOwn
  | hasOwn
  | has
  | ownNames
  | lookup
  | get
  /-- Object, name, receiver. -/
  | getWithReceiver
  | set
  | prototype
  | tag
  | ownProperties
  /-- Target, source. -/
  | copySlots
  deriving DecidableEq

/-- Lazy bindings and their cells. Cells are known under names. -/
inductive BindingOperation where
  /-- Object, name, initializer. -/
  | bind (isMutable : Bool)
  /-- Target, source. -/
  | bindAll
  /-- Name of the binding, initializer. -/
  | newCell (cellName : String) (isMutable : Bool)
  | force (cellName : String)
  | cell (cellName : String)
  | inspectCell (cellName : String)
  deriving DecidableEq

/-- Making classes, asking about them and constructing instances. -/
inductive ClassOperation where
  /-- Name, superclass and constructor if announced, then name and function of each method, name
  and parts of each member, name and parts of each static member. -/
  | build (hasSuperclass hasConstructor : Bool) (methodCount : Nat)
      (members statics : List PropertyForm)
  | name
  | superclass
  | prototype
  | statics
  | composition
  | allocate
  /-- Class, arguments. -/
  | construct
  /-- Class, `this`, arguments. -/
  | constructOn
  | isSubclass
  | namedConstructor
  /-- Base, sources. -/
  | mixin
  deriving DecidableEq

/-- Memoized generic types, which are known under names. -/
inductive GenericOperation where
  | declare (genericName : String)
  | name (genericName : String)
  | size (genericName : String)
  | isEmpty (genericName : String)
  | toFunction (genericName : String)
  | instantiate (genericName : String)
  | typeArguments (genericName : String)
  /-- A function: a memoizing function around it. -/
  | memoize
  deriving DecidableEq

/-- Making linked maps. -/
inductive MapOperation where
  /-- Keys and values alternate. -/
  | ofPairs
  /-- The own properties of an object. -/
  | ofObject
  deriving DecidableEq

/-- What is asked of a realm. -/
inductive RealmOperation where
  | checkConfig (source : ConfigSource)
  /-- Makes a new realm the current one, if its configuration is valid. -/
  | install (source : ConfigSource) (oracle : TypeOracle)
  | setPrimitivePrototype (kind : PrimitiveKind)
  | hasMember
  | getMember
  | isInstance
  | cast
  | isGroundType
  | dynamicGet
  /-- Name, receiver, arguments: a call site of any kind. The name is an operand of every kind. -/
  | invoke (kind : CallKind)
  /-- Receiver, name, arguments. -/
  | dynamicCall
  /-- Receiver, arguments. -/
  | dynamicApply
  /-- Receiver, index. -/
  | indexGet
  /-- Receiver, index, value. -/
  | indexSet
  /-- Left operand, operator, right operand. -/
  | dynamicBinary
  /-- Name: what a failure at a call site of the kind calls the member. -/
  | reportedName (kind : CallKind)
  | equals
  | notNull
  | assert
  | arity
  deriving DecidableEq

/-- What a program does on its own: names, the log, arithmetic, text and faults. -/
inductive ControlOperation where
  /-- The value itself. -/
  | evaluate
  /-- Appends the value to the log. -/
  | log
  | load (name : String)
  | store (name : String)
  /-- The sum of two integers, wrapped to 64 bits; anything else adds to null. -/
  | add
  | concat
  /-- The message of a fault. -/
  | message (fault : Fault)
  deriving DecidableEq

/-- What a program can ask of the runtime. -/
inductive Operation where
  | value (operation : ValueOperation)
  | function (operation : FunctionOperation)
  | object (operation : ObjectOperation)
  | binding (operation : BindingOperation)
  | type (operation : ClassOperation)
  | generic (operation : GenericOperation)
  | map (operation : MapOperation)
  | realm (operation : RealmOperation)
  | control (operation : ControlOperation)
  deriving DecidableEq

/-- What an operation answers. -/
inductive Answer where
  | value (answer : Value)
  | identityKey (key : IdentityKey)
  | names (names : List String)
  | arity (arity : Arity)
  /-- The arity that a list of formals declares, to be shown with its bounds and its text. -/
  | declaredArity (arity : Arity)
  | property (property : Option Property)
  | owner (found : Option (ObjectId × Property))
  | properties (entries : List (String × Property))
  | cell (cell : LazyCell)
  | composition (composition : Option Composition)
  | arguments (arguments : Option (List Value))
  | config (outcome : Except ConfigError Config)

namespace Answer

/-- The answer of an operation that only has an effect. -/
def done : Answer := value .undefined

/-- The answer of a yes-or-no question. -/
def truth (holds : Bool) : Answer := value (.boolean holds)

/-- The answer of an operation that makes a text. -/
def text (text : String) : Answer := value (.string text)

/-- An answer as an operand of another operation: reports count as undefined. -/
def toValue : Answer → Value
  | value answer => answer
  | _ => .undefined

end Answer

end GradualRuntime
