/-!
# Tables

A configuration text describes a tree of tables.  A table comes into being
with its own header, on the way to a table below it, or on the way to a
value with a dotted key, and how it did decides who may add to it:

* a table is headed at most once, and only if it was not there yet or came
  up on the way to a table below it;
* a dotted key only passes through tables that were not headed, and ends in
  one that dotted keys made or, when it has one part, in the headed one;
* no name is used twice.
-/

namespace Subscription

namespace Toml

/-- A value, as far as anyone asks about it. -/
inductive Datum where
  | string (text : String)
  | integer (n : Int)
  | other
  deriving DecidableEq, Repr, Inhabited

/-- What a name in a table stands for. -/
inductive Item where
  | value (d : Datum)
  /-- A table; `implied` says that it was not headed, `dotted` that a dotted key
  made it. -/
  | table (implied dotted : Bool) (entries : List (String × Item))
  /-- Tables under one header; only the last one can be added to. -/
  | tables (last : List (String × Item))
  deriving Repr, Inhabited

/-- A table. -/
structure Table where
  implied : Bool
  dotted : Bool
  entries : List (String × Item)
  deriving Repr, Inhabited

namespace Table

/-- A headed table without entries. -/
def headed : Table := ⟨false, false, []⟩

/-- The table as an item. -/
def toItem (t : Table) : Item := .table t.implied t.dotted t.entries

/-- What a name stands for. -/
def get? (t : Table) (name : String) : Option Item := t.entries.lookup name

/-- Adds a name. -/
def add (t : Table) (name : String) (item : Item) : Table :=
  { t with entries := t.entries ++ [(name, item)] }

/-- Changes what a name stands for. -/
def put (t : Table) (name : String) (item : Item) : Table :=
  { t with entries := t.entries.map fun e => if e.1 = name then (name, item) else e }

/-- Takes a name away. -/
def drop (t : Table) (name : String) : Table :=
  { t with entries := t.entries.filter fun e => e.1 ≠ name }

/-- Changes the table that a path leads to; tables that are not there are
made.  `dotted` says that the path is part of a dotted key. -/
def descend {α : Type} (dotted : Bool) (act : Table → Option (α × Table)) :
    List String → Table → Option (α × Table)
  | [], t => act t
  | name :: path, t =>
      match t.get? name with
      | none =>
          (descend dotted act path ⟨true, dotted, []⟩).map fun r => (r.1, t.add name r.2.toItem)
      | some (.value _) => none
      | some (.tables last) =>
          (descend dotted act path ⟨false, false, last⟩).map fun r =>
            (r.1, t.put name (.tables r.2.entries))
      | some (.table implied dottedBefore entries) =>
          if dotted && !implied then none
          else
            (descend dotted act path ⟨implied, dottedBefore, entries⟩).map fun r =>
              (r.1, t.put name r.2.toItem)

/-- Adds a value under a key. -/
def addValue (t : Table) (path : List String) (name : String) (d : Datum) : Option Table :=
  (descend true (fun inner =>
    if inner.dotted = path.isEmpty then none
    else if (inner.get? name).isSome then none
    else some ((), inner.add name (.value d))) path t).map Prod.snd

/-- Takes out the table that a header starts, which may have come up on the
way to tables below it. -/
def start (t : Table) (path : List String) (name : String) : Option (Table × Table) :=
  descend false (fun inner =>
    match inner.get? name with
    | none => some (headed, inner)
    | some (.table true false entries) => some (⟨false, false, entries⟩, inner.drop name)
    | some _ => none) path t

/-- Puts in a table that a header started. -/
def finish (t : Table) (path : List String) (name : String) (done : Table) : Option Table :=
  (descend false (fun inner =>
    match inner.get? name with
    | none => some ((), inner.add name done.toItem)
    | some (.table true _ _) => some ((), inner.put name done.toItem)
    | some _ => none) path t).map Prod.snd

/-- Makes sure that a name stands for tables under one header. -/
def startMany (t : Table) (path : List String) (name : String) : Option Table :=
  (descend false (fun inner =>
    match inner.get? name with
    | none => some ((), inner.add name (.tables []))
    | some (.tables _) => some ((), inner)
    | some _ => none) path t).map Prod.snd

/-- Puts in one more of the tables under one header. -/
def finishMany (t : Table) (path : List String) (name : String) (done : Table) : Option Table :=
  (descend false (fun inner =>
    match inner.get? name with
    | none => some ((), inner.add name (.tables done.entries))
    | some (.tables _) => some ((), inner.put name (.tables done.entries))
    | some _ => none) path t).map Prod.snd

end Table

end Toml

end Subscription
