import Jawn.Toml.Reader

/-!
# TOML documents

A document is read line by line. A header opens the table to which the keys of the following lines
belong.
-/

namespace Jawn.Toml

/-- What has been read of a document. -/
structure Draft where
  root : Table := []
  /-- The table of the last header. -/
  path : List String := []

/-- Opens the table of a header; each opening of an array of tables adds one to it. -/
def Draft.openTable (d : Draft) (path : List String) (array : Bool) : Except Fault Draft :=
  match path.getLast? with
  | none => .error .malformed
  | some last =>
    let change := if array then Table.grow last else Table.define last
    (Table.update change path.dropLast d.root).map fun root => ⟨root, path⟩

/-- Gives a key in the open table a value. -/
def Draft.assign (d : Draft) (path : List String) (v : Value) : Except Fault Draft :=
  (Table.update (·.assign path v) d.path d.root).map fun root => { d with root := root }

/-- A value that must be there. -/
def wellFormed {α : Type} : Option α → Except Fault α
  | some a => .ok a
  | none => .error .malformed

/-- Reads one line, which is not empty, and gives the lines behind it. -/
def Draft.line (d : Draft) (s : List Char) : Except Fault (Draft × List Char) :=
  match skipSpaces s with
  | '[' :: '[' :: rest => do
    match ← wellFormed (key rest) with
    | (path, ']' :: ']' :: rest) => do
      let rest ← wellFormed (lineEnd rest)
      return (← d.openTable path true, rest)
    | _ => .error .malformed
  | '[' :: rest => do
    match ← wellFormed (key rest) with
    | (path, ']' :: rest) => do
      let rest ← wellFormed (lineEnd rest)
      return (← d.openTable path false, rest)
    | _ => .error .malformed
  | s =>
    match lineEnd s with
    | some rest => .ok (d, rest)
    | none => do
      match ← wellFormed (key s) with
      | (path, '=' :: rest) => do
        let (v, rest) ← wellFormed (value (skipSpaces rest))
        let rest ← wellFormed (lineEnd rest)
        return (← d.assign path v, rest)
      | _ => .error .malformed

/-- Reads at most `bound` lines. -/
def Draft.lines (bound : Nat) (d : Draft) (s : List Char) : Except Fault Draft :=
  match bound, s with
  | _, [] => .ok d
  | 0, _ => .error .malformed
  | bound + 1, s =>
    match d.line s with
    | .error fault => .error fault
    | .ok (d, rest) => d.lines bound rest

/-- Reads a document, which may start with a byte order mark. -/
def parse (text : String) : Except Fault Table :=
  let s := text.toList
  let s := if s.head? == some '\ufeff' then s.tail else s
  (({} : Draft).lines s.length s).map Draft.root

end Jawn.Toml
