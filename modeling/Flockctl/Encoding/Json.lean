import Flockctl.Collections.JsMap

/-!
# Parsed JSON

What `JSON.parse` returns, and the own properties a program sees when it lists, spreads or assigns
to such a value. A member that the text repeats keeps its first place and its last value, as
setting it twice would; numbers are kept as they are written, since nothing is computed with them.
-/

namespace Flockctl.Encoding

open Collections

/-- A value that `JSON.parse` returns; the members of an object stand as in the text. -/
inductive Json where
  | null
  | boolean (value : Bool)
  | number (literal : List Char)
  | string (text : List Char)
  | array (items : List Json)
  | object (members : List (List Char × Json))

namespace Json

/-- `value && typeof value === "object"`. -/
def isObject : Json → Bool
  | array _ => true
  | object _ => true
  | _ => false

/-- `Array.isArray(value)`. -/
def isArray : Json → Bool
  | array _ => true
  | _ => false

/-- Values under their indices. -/
def indexed (values : List Json) : List (List Char × Json) :=
  values.zipIdx.map fun entry ↦ ((toString entry.2).toList, entry.1)

/-- The own enumerable properties, as `Object.entries` lists and `{...value}` copies them. -/
def properties (value : Json) : JsMap (List Char) Json :=
  let entries := match value with
    | object members => members
    | array items => indexed items
    | string text => indexed (text.map fun c ↦ string [c])
    | _ => []
  entries.foldl (fun map entry ↦ map.set entry.1 entry.2) JsMap.empty

/-- `value.name`, or `none` where it is undefined; reading from `null` throws, so the caller
excludes that. -/
def property (value : Json) (name : List Char) : Option Json :=
  match value with
  | object _ => value.properties.get name
  | _ => none

/-- `value ?? other`. -/
def orElse (value : Option Json) (other : Json) : Json :=
  match value with
  | none => other
  | some null => other
  | some value => value

/-- `target[name] = value` on the own properties. Assigning to `__proto__` where no own property
has that name changes the prototype and no property. -/
def assign (target : JsMap (List Char) Json) (name : List Char) (value : Json) :
    JsMap (List Char) Json :=
  if name = "__proto__".toList ∧ target.has name = false then target else target.set name value

/-- `{...first, ...second}` as own properties. -/
def spread (first second : JsMap (List Char) Json) : JsMap (List Char) Json :=
  second.entries.foldl (fun map entry ↦ map.set entry.1 entry.2) first

end Json

end Flockctl.Encoding
