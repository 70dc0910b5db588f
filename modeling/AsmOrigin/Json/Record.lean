import AsmOrigin.Json.Basic
import AsmOrigin.OrderedMap

/-!
Values of the library's types in serialised form.

A record is an object with the record's fields in any order, where fields of other names are passed over
unread and a field of the record may not be repeated, or it is a list of the fields in declared order,
where fields may be missing at the end.
-/

namespace AsmOrigin.Json

/-- Values of the declared fields in declared order, `none` where one is absent. -/
def fields? (names : List String) : Json → Option (List (Option Json))
  | object members =>
    if members.all (·.1.isSome) then
      names.mapM fun name =>
        match members.filter (·.1 = some name) with
        | [] => some none
        | [m] => some (some m.2)
        | _ => none
    else none
  | list items =>
    if items.length ≤ names.length then
      some (items.map some ++ List.replicate (names.length - items.length) none)
    else none
  | _ => none

def toText? : Json → Option String
  | text s => s
  | _ => none

def toNat? : Json → Option Nat
  | number n => n.toNat?
  | _ => none

def toFloat? : Json → Option Float
  | number n => n.toFloat?
  | _ => none

def toList? {α : Type} (item : Json → Option α) : Json → Option (List α)
  | list items => items.mapM item
  | _ => none

/-- A member whose key is readable. -/
def toMember? {α : Type} (item : Json → Option α) (m : Option String × Json) : Option (String × α) := do
  return (← m.1, ← item m.2)

/-- A map is an object; of two members with one key the later one counts. -/
def toMap? {α : Type} (item : Json → Option α) : Json → Option (OrderedMap α)
  | object members => (members.mapM (toMember? item)).map OrderedMap.ofList
  | _ => none

/-- An absent field and null both mean that there is no value. -/
def optional? {α : Type} (item : Json → Option α) : Option Json → Option (Option α)
  | none => some none
  | some null => some none
  | some v => (item v).map some

def ofMap {α : Type} (item : α → Json) (m : OrderedMap α) : Json :=
  ofMembers (m.entries.map fun e => (e.1, item e.2))

end AsmOrigin.Json
