import Translit.Json.Basic
import Translit.Table

/-!
# Reading typed data from JSON values

Each function here reads one shape and refuses every other. A record is written as an object, or
as an array of its fields in their order; an object may hold members the record does not know, but
none that it knows twice.

* `asList?`, `asTable?`, `asOption?` lift a reader to lists, tables and optional values;
* `fields?` : the fields of a record that are present.
-/

namespace Translit.Json

/-- A truth value. -/
def asBool? : Json → Option Bool
  | bool b => some b
  | _ => none

/-- A text. -/
def asText? : Json → Option String
  | string s => s
  | _ => none

/-- A plain natural number below `2 ^ 64`. -/
def asWord? : Json → Option UInt64
  | number n => n.toNat?.bind fun k => if k < UInt64.size then some (UInt64.ofNat k) else none
  | _ => none

/-- A number as a finite double. -/
def asBinary64? : Json → Option Number.Binary64
  | number n => n.toBinary64?
  | _ => none

/-- A value that `null` stands for the absence of. -/
def asOption? {α : Type} (read? : Json → Option α) : Json → Option (Option α)
  | null => some none
  | v => (read? v).map some

/-- An array of values of one shape. -/
def asList? {α : Type} (read? : Json → Option α) : Json → Option (List α)
  | array items => items.mapM read?
  | _ => none

/-- An object as a table; of equal keys the last wins. -/
def asTable? {α : Type} (read? : Json → Option α) : Json → Option (Table String α)
  | object members => do
    let entries ← members.mapM fun m => do return (← m.1, ← read? m.2)
    return Table.ofList entries
  | _ => none

/-- The member of a key; none twice. -/
def member? (members : List (Option String × Json)) (name : String) : Option (Option Json) :=
  match members.filter (·.1 = some name) with
  | [] => some none
  | [m] => some (some m.2)
  | _ => none

/-- What a record holds under each of its field names, in their order. -/
def fields? (names : List String) : Json → Option (List (Option Json))
  | object members =>
    if members.all (·.1.isSome) then names.mapM (member? members) else none
  | array items =>
    if items.length ≤ names.length then
      some (items.map some ++ List.replicate (names.length - items.length) none)
    else none
  | _ => none

/-- A field that has to be present. -/
def required? {α : Type} (read? : Json → Option α) (field : Option Json) : Option α :=
  field.bind read?

/-- A field that has a value of its own when it is absent. -/
def orElse? {α : Type} (absent : α) (read? : Json → Option α) : Option Json → Option α
  | none => some absent
  | some v => read? v

/-- A field that may be absent or `null`. -/
def optional? {α : Type} (read? : Json → Option α) (field : Option Json) : Option (Option α) :=
  orElse? none (asOption? read?) field

end Translit.Json
