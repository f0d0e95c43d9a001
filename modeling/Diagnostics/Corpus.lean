import Diagnostics.Registry.Basic

/-!
# The corpus

The common messages of the TypeScript compiler, and the registry that holds them.
-/

namespace Diagnostics

namespace Corpus

/-- An entry for an error. -/
def error (code : Nat) (pattern : String) : Registry.Entry := ⟨pattern.toList, "Error", code⟩

/-- An entry for a message that belongs to another one. -/
def message (code : Nat) (pattern : String) : Registry.Entry := ⟨pattern.toList, "Message", code⟩

/-- The messages of the corpus, in ascending order of their codes. -/
def entries : List Registry.Entry :=
  [ error 1005 "'{0}' expected.",
    error 1109 "Expression expected.",
    error 1128 "Declaration or statement expected.",
    error 2300 "Duplicate identifier '{0}'.",
    error 2304 "Cannot find name '{0}'.",
    error 2305 "Module '{0}' has no exported member '{1}'.",
    error 2307 "Cannot find module '{0}' or its corresponding type declarations.",
    error 2314 "Generic type '{0}' requires {1} type argument(s).",
    error 2322 "Type '{0}' is not assignable to type '{1}'.",
    error 2324 "Property '{0}' is missing in type '{1}'.",
    error 2326 "Types of property '{0}' are incompatible.",
    error 2328 "Types of parameters '{0}' and '{1}' are incompatible.",
    error 2339 "Property '{0}' does not exist on type '{1}'.",
    error 2344 "Type '{0}' does not satisfy the constraint '{1}'.",
    error 2345 "Argument of type '{0}' is not assignable to parameter of type '{1}'.",
    error 2349 "This expression is not callable.",
    error 2352 "Conversion of type '{0}' to type '{1}' may be a mistake because neither type sufficiently overlaps with the other. If this was intentional, convert the expression to 'unknown' first.",
    error 2353 "Object literal may only specify known properties, and '{0}' does not exist in type '{1}'.",
    error 2355 "A function whose declared type is neither 'undefined', 'void', nor 'any' must return a value.",
    error 2362 "The left-hand side of an arithmetic operation must be of type 'any', 'number', 'bigint' or an enum type.",
    error 2365 "Operator '{0}' cannot be applied to types '{1}' and '{2}'.",
    error 2366 "Function lacks ending return statement and return type does not include 'undefined'.",
    error 2367 "This comparison appears to be unintentional because the types '{0}' and '{1}' have no overlap.",
    error 2375 "Type '{0}' is not assignable to type '{1}' with 'exactOptionalPropertyTypes: true'. Consider adding 'undefined' to the types of the target's properties.",
    error 2377 "Constructors for derived classes must contain a 'super' call.",
    error 2393 "Duplicate function implementation.",
    error 2403 "Subsequent variable declarations must have the same type.  Variable '{0}' must be of type '{1}', but here has type '{2}'.",
    error 2411 "Property '{0}' of type '{1}' is not assignable to '{2}' index type '{3}'.",
    error 2416 "Property '{0}' in type '{1}' is not assignable to the same property in base type '{2}'.",
    error 2420 "Class '{0}' incorrectly implements interface '{1}'.",
    error 2430 "Interface '{0}' incorrectly extends interface '{1}'.",
    error 2448 "Block-scoped variable '{0}' used before its declaration.",
    error 2451 "Cannot redeclare block-scoped variable '{0}'.",
    error 2454 "Variable '{0}' is used before being assigned.",
    error 2488 "Type '{0}' must have a '[Symbol.iterator]()' method that returns an iterator.",
    error 2531 "Object is possibly 'null'.",
    error 2532 "Object is possibly 'undefined'.",
    error 2540 "Cannot assign to '{0}' because it is a read-only property.",
    error 2551 "Property '{0}' does not exist on type '{1}'. Did you mean '{2}'?",
    error 2552 "Cannot find name '{0}'. Did you mean '{1}'?",
    error 2554 "Expected {0} arguments, but got {1}.",
    error 2555 "Expected at least {0} arguments, but got {1}.",
    error 2559 "Type '{0}' has no properties in common with type '{1}'.",
    error 2564 "Property '{0}' has no initializer and is not definitely assigned in the constructor.",
    error 2571 "Object is of type 'unknown'.",
    error 2588 "Cannot assign to '{0}' because it is a constant.",
    error 2589 "Type instantiation is excessively deep and possibly infinite.",
    error 2590 "Expression produces a union type that is too complex to represent.",
    error 2614 "Module '{0}' has no exported member '{1}'. Did you mean to use 'import {1} from {0}' instead?",
    error 2683 "'this' implicitly has type 'any' because it does not have a type annotation.",
    error 2693 "'{0}' only refers to a type, but is being used as a value here.",
    error 2698 "Spread types may only be created from object types.",
    error 2739 "Type '{0}' is missing the following properties from type '{1}': {2}",
    error 2740 "Type '{0}' is missing the following properties from type '{1}': {2}, and {3} more.",
    error 2741 "Property '{0}' is missing in type '{1}' but required in type '{2}'.",
    error 2749 "'{0}' refers to a value, but is being used as a type here. Did you mean 'typeof {0}'?",
    error 2769 "No overload matches this call.",
    error 2786 "'{0}' cannot be used as a JSX component.",
    error 6133 "'{0}' is declared but its value is never read.",
    message 6500 "The expected type comes from property '{0}' which is declared here on type '{1}'",
    error 7005 "Variable '{0}' implicitly has an '{1}' type.",
    error 7006 "Parameter '{0}' implicitly has an '{1}' type.",
    error 7016 "Could not find a declaration file for module '{0}'. '{1}' implicitly has an 'any' type.",
    error 7053 "Element implicitly has an 'any' type because expression of type '{0}' can't be used to index type '{1}'.",
    error 18046 "'{0}' is of type 'unknown'.",
    error 18047 "'{0}' is possibly 'null'.",
    error 18048 "'{0}' is possibly 'undefined'." ]

/-- The registry of the corpus. -/
def registry : Registry := .ofTable entries

end Corpus

end Diagnostics
