/-! # JSON values

Members of an object stay in the order in which they were written, and a name may come twice: what
that means is for the reader of the object to say.
-/
namespace SpaceLink

inductive Json where
  | null
  | bool (value : Bool)
  /-- A number written with digits alone. -/
  | natural (value : Nat)
  /-- Any other number, as it was written. -/
  | numeral (text : String)
  /-- A string; one with half of a surrogate pair spells no text. -/
  | string (text : Option String)
  | array (items : List Json)
  | object (members : List (Option String × Json))

namespace Json

def text (s : String) : Json := .string (some s)

def record (members : List (String × Json)) : Json :=
  .object (members.map fun (name, value) => (some name, value))

def ofOption (value : Option Json) : Json := value.getD .null

def natural? (max : Nat) : Json → Option Nat
  | .natural n => if n ≤ max then some n else none
  | _ => none

def bool? : Json → Option Bool
  | .bool b => some b
  | _ => none

/-- Nothing for `null`, else what `read` makes of the value. -/
def nullable? {α : Type} (read : Json → Option α) : Json → Option (Option α)
  | .null => some none
  | value => (read value).map some

/-- A choice by name: the name alone, or an object that holds `null` under the name. -/
def choice? {α : Type} (ofName? : String → Option α) : Json → Option α
  | .string (some name) => ofName? name
  | .object [(some name, .null)] => ofName? name
  | _ => none

/-- The value under a name of an object: `none` if the name comes twice. -/
def member? (members : List (String × Json)) (name : String) : Option (Option Json) :=
  match members.filter (·.1 = name) with
  | [] => some none
  | [(_, value)] => some (some value)
  | _ => none

/-- The values of the named fields, each with none if it is missing. A record is an object, in which
other names do not matter, or an array of its fields in order. -/
def fields? (names : List String) : Json → Option (List (Option Json))
  | .object members => do
    let members ← members.mapM fun (name?, value) => name?.map fun name => (name, value)
    names.mapM (member? members)
  | .array items =>
    if names.length < items.length then none
    else some (items.map some ++ List.replicate (names.length - items.length) none)
  | _ => none

/-- What `read` makes of a field, or the default if the field is missing. -/
def fieldOr {α : Type} (default : α) (read : Json → Option α) : Option Json → Option α
  | none => some default
  | some value => read value

end Json
end SpaceLink
