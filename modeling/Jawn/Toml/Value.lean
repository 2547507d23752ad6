/-!
# Values of a TOML document

A document is a table. Each table remembers how it came into being, because that decides whether a
later line may add to it.
-/

namespace Jawn.Toml

/-- How a table came into being. -/
inductive Origin where
  /-- Between braces. Nothing is added to it. -/
  | inline
  /-- By a header of its own. -/
  | header
  /-- By a header of a table inside it. -/
  | implied
  /-- By a dotted key. -/
  | dotted
  deriving DecidableEq, Repr

inductive Value where
  | boolean (b : Bool)
  | integer (n : Int)
  /-- A float as it is written. -/
  | float (text : String)
  /-- A date, a time or both as they are written. -/
  | moment (text : String)
  | string (text : String)
  /-- An array of values or, if it is growing, an array of tables to which headers add. -/
  | array (growing : Bool) (items : List Value)
  | table (origin : Origin) (entries : List (String × Value))

abbrev Table := List (String × Value)

/-- Why a document is refused. -/
inductive Fault where
  | malformed
  /-- A key is given a second meaning. -/
  | redefined (key : String)
  deriving DecidableEq, Repr

def Fault.message : Fault → String
  | malformed => "the text is not well formed"
  | redefined key => s!"the key {key} is defined twice"

namespace Table

/-- The table with a new value in the place of a key. -/
def replace (t : Table) (key : String) (v : Value) : Table :=
  t.map fun (k, old) => if k == key then (k, v) else (k, old)

/-- Gives a dotted key a value, if it ends in a table that `takesKeys`. On its way a dotted key goes
through tables that no header has defined and through the last table of a growing array, but it ends
only in the table where it starts or in one that a dotted key has made. -/
def assignFrom (takesKeys : Bool) (t : Table) : List String → Value → Except Fault Table
  | [], _ => .error .malformed
  | [key], v =>
    if takesKeys && (t.lookup key).isNone then .ok (t ++ [(key, v)]) else .error (.redefined key)
  | key :: keys, v =>
    match t.lookup key with
    | none => (assignFrom true [] keys v).map fun inner => t ++ [(key, .table .dotted inner)]
    | some (.table origin inner) =>
      if origin = .dotted ∨ origin = .implied then
        (assignFrom (origin = .dotted) inner keys v).map fun inner =>
          t.replace key (.table origin inner)
      else .error (.redefined key)
    | some (.array true items) =>
      match items.getLast? with
      | some (.table origin inner) =>
        (assignFrom false inner keys v).map fun inner =>
          t.replace key (.array true (items.dropLast ++ [.table origin inner]))
      | _ => .error (.redefined key)
    | some _ => .error (.redefined key)

/-- Gives a dotted key a value in an open table. -/
def assign (t : Table) (path : List String) (v : Value) : Except Fault Table :=
  assignFrom true t path v

/-- Changes the table at a path. Tables that are missing on the way are implied, and the path goes
on in the last table of a growing array. -/
def update (change : Table → Except Fault Table) : List String → Table → Except Fault Table
  | [], t => change t
  | key :: keys, t =>
    match t.lookup key with
    | none => (update change keys []).map fun inner => t ++ [(key, .table .implied inner)]
    | some (.table origin inner) =>
      if origin = .inline then .error (.redefined key)
      else (update change keys inner).map fun inner => t.replace key (.table origin inner)
    | some (.array true items) =>
      match items.getLast? with
      | some (.table origin inner) =>
        (update change keys inner).map fun inner =>
          t.replace key (.array true (items.dropLast ++ [.table origin inner]))
      | _ => .error (.redefined key)
    | some _ => .error (.redefined key)

/-- Opens the table of a header. -/
def define (key : String) (t : Table) : Except Fault Table :=
  match t.lookup key with
  | none => .ok (t ++ [(key, .table .header [])])
  | some (.table .implied inner) => .ok (t.replace key (.table .header inner))
  | some _ => .error (.redefined key)

/-- Adds a table to a growing array. -/
def grow (key : String) (t : Table) : Except Fault Table :=
  match t.lookup key with
  | none => .ok (t ++ [(key, .array true [.table .header []])])
  | some (.array true items) =>
    .ok (t.replace key (.array true (items ++ [.table .header []])))
  | some _ => .error (.redefined key)

end Table

end Jawn.Toml
