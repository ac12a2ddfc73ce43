/-!
# Arity under the optional-parameter convention

A formal parameter whose name starts with the optional mark may be left out by the caller. The
convention is that optional formals come last; nothing enforces it, so the module keeps two
notions apart. `Arity.ofFormals` counts: at least the required formals, at most all of them.
`acceptsCount` fills the formals from the left and asks that every formal left over be optional,
which is the test that a call has to pass.
-/

set_option autoImplicit false

namespace GradualRuntime

/-- How many arguments a function takes. -/
inductive Arity where
  | fixed (count : Nat)
  /-- Both bounds are included. -/
  | range (least most : Nat)
  deriving DecidableEq, Repr

namespace Arity

/-- The fewest arguments. -/
def least : Arity → Nat
  | fixed count => count
  | range least _ => least

/-- The most arguments. -/
def most : Arity → Nat
  | fixed count => count
  | range _ most => most

/-- Whether an argument count lies within the bounds. -/
def accepts (arity : Arity) (count : Nat) : Bool :=
  decide (arity.least ≤ count) && decide (count ≤ arity.most)

/-- The bounds as text: one number, or two joined by `..=`. -/
def text : Arity → String
  | fixed count => count.repr
  | range least most => least.repr ++ "..=" ++ most.repr

end Arity

/-- Whether the formal parameter `formal` may be left out. -/
def isOptionalFormal (mark formal : String) : Bool := mark.toList.isPrefixOf formal.toList

/-- A formal may be left out when the mark is a prefix of its name. -/
theorem isOptionalFormal_iff {mark formal : String} :
    isOptionalFormal mark formal = true ↔ mark.toList <+: formal.toList :=
  List.isPrefixOf_iff_prefix

/-- The number of formals that must be supplied. -/
def requiredCount (mark : String) (formals : List String) : Nat :=
  formals.countP (fun formal ↦ !isOptionalFormal mark formal)

namespace Arity

/-- The bounds that a list of formals declares: its required formals up to all of them. -/
def ofFormals (mark : String) (formals : List String) : Arity :=
  let required := requiredCount mark formals
  if required = formals.length then fixed formals.length else range required formals.length

end Arity

/-- Whether a call with `count` positional arguments is well formed: no argument lacks a formal, no
more formals are required than arguments are given, and every unfilled formal is optional. -/
def acceptsCount (mark : String) (formals : List String) (count : Nat) : Bool :=
  decide (count ≤ formals.length) && decide (requiredCount mark formals ≤ count) &&
    (formals.drop count).all (isOptionalFormal mark)

end GradualRuntime
