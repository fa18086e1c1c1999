import StubInsertion.Toml.Value

/-!
# How tables grow

A dotted key or a header passes through tables on its way to the one that it changes, and makes
those that are missing. Tables in braces and values that are no tables cannot be passed; through an
array that headers made, the way leads into its last table.

* **Growing.** `extend` changes the table at the end of a way; `assign` enters a value there.
* **Headers.** `reopen` takes a table out whose header comes only now; `enter` puts the finished
  table of a header into its place.
-/

namespace StubInsertion.Toml.Table

/-- Change the table at the end of a way of keys. `dotted` says that the way is that of a dotted
key: then tables with a header of their own are closed to it. `change` gets the kind of the last
table. -/
def extend (dotted : Bool) (change : TableKind → Table → Option Table) :
    List Key → TableKind → Table → Option Table
  | [], kind, t => change kind t
  | key :: way, _, t =>
    let onward := extend dotted change way
    match get? t key.name with
    | none => do
      let made := if dotted then TableKind.dotted else TableKind.implied
      return t ++ [(key, key.span, .table made (← onward made []))]
    | some (.table kind inner) =>
      if kind = .inline ∨ (dotted ∧ kind = .header) then none
      else do return replace t key.name (.table kind (← onward kind inner))
    | some (.tables last earlier) => do
      return replace t key.name (.tables (← onward .header last) earlier)
    | some _ => none

/-- Enter a value under a key at the end of a way. A dotted key enters only into tables that dotted
keys made, a plain one only into the table at hand, and no key is entered twice. -/
def assign (t : Table) (kind : TableKind) (way : List Key) (key : Key) (span : Span)
    (value : Value) : Option Table :=
  extend true (fun kind t =>
    if way.isEmpty = decide (kind = .dotted) then none
    else if has t key.name then none
    else some (t ++ [(key, span, value)])) way kind t

/-- The entries that a table has before its header comes: those that longer headers gave it. A table
that is there for any other reason must not get a header. -/
def reopen (t : Table) (name : String) : Option Table :=
  match get? t name with
  | none => some []
  | some (.table .implied inner) => some inner
  | some _ => none

/-- Put the finished table of a header into its place, or at the end of an array of tables. -/
def enter (root : Table) (array : Bool) (way : List Key) (key : Key) (span : Span)
    (finished : Table) : Option Table :=
  extend false (fun _ t =>
    if array then
      match get? t key.name with
      | none => some (t ++ [(key, span, .tables finished [])])
      | some (.tables last earlier) =>
        some (replace t key.name (.tables finished (last :: earlier)))
      | some _ => none
    else some (erase t key.name ++ [(key, span, .table .header finished)])) way .header root

end StubInsertion.Toml.Table
