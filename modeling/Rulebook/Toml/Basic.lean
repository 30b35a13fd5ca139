/-!
# Configuration values

The values of a TOML document. Only the kinds that configurations are made of keep their content;
of the others it only matters that they are there. Tables remember how they came to be, because
that decides how they may grow.
-/

namespace Rulebook

/-- How a table came to be. -/
inductive TableOrigin where
  /-- By a header of its own. -/
  | header
  /-- As the parent of a table with a header. -/
  | parent
  /-- By a dotted key. -/
  | dotted
  /-- Written out as a value. -/
  | inline
deriving DecidableEq, Repr

inductive Toml where
  | boolean (value : Bool)
  | integer (value : Int64)
  | string (value : String)
  | list (items : List Toml)
  /-- A number that is no integer. -/
  | float
  /-- A date, a time or both. -/
  | moment
  | table (origin : TableOrigin) (entries : List (String × Toml))
  /-- A list of tables built by headers, the last of which may still grow. -/
  | tables (earlier : List Toml) (last : List (String × Toml))

namespace Toml

/-- The items of a list of either kind. -/
def items? : Toml → Option (List Toml)
  | .list items => some items
  | .tables earlier last => some (earlier ++ [.table .header last])
  | _ => none

/-- The one key under which a date or time is found when it is looked at as a table. -/
def momentKey : String := "$__toml_private_datetime"

/-- The entries of a value that is a table, or can be looked at as one. -/
def entries? : Toml → Option (List (String × Toml))
  | .table _ entries => some entries
  | .moment => some [(momentKey, .moment)]
  | _ => none

/-- A list or table that holds nothing. -/
def isEmpty : Toml → Bool
  | .list items => items.isEmpty
  | .table _ entries => entries.isEmpty
  | _ => false

/-- Gives a key that is there another value. -/
def replace (key : String) (value : Toml) (entries : List (String × Toml)) :
    List (String × Toml) :=
  entries.map fun (name, old) => if name = key then (key, value) else (name, old)

/-- Adds a value under a dotted key to a table. A key is given only one value. From outside, dotted
keys neither lead into a table with a header of its own nor add to a parent or to the last table of
a list, but they may lead through those to tables of their own. -/
def insertKey (origin : TableOrigin) (value : Toml) :
    List String → List (String × Toml) → Option (List (String × Toml))
  | [], _ => none
  | [key], entries =>
      if origin = .parent ∨ (entries.lookup key).isSome then none
      else some (entries ++ [(key, value)])
  | key :: rest, entries =>
      match entries.lookup key with
      | none =>
          (insertKey .dotted value rest []).map fun inner =>
            entries ++ [(key, .table .dotted inner)]
      | some (.table .dotted inner) =>
          (insertKey .dotted value rest inner).map fun inner =>
            replace key (.table .dotted inner) entries
      | some (.table .parent inner) =>
          (insertKey .parent value rest inner).map fun inner =>
            replace key (.table .parent inner) entries
      | some (.tables earlier inner) =>
          (insertKey .parent value rest inner).map fun inner =>
            replace key (.tables earlier inner) entries
      | some _ => none

/-- Changes the table that a path leads to. The last step may create it, steps before may create
its parents. -/
def updateAt (last : String → List (String × Toml) → Option (List (String × Toml))) :
    List String → List (String × Toml) → Option (List (String × Toml))
  | [], _ => none
  | [key], entries => last key entries
  | key :: rest, entries =>
      match entries.lookup key with
      | none =>
          (updateAt last rest []).map fun inner => entries ++ [(key, .table .parent inner)]
      | some (.table .inline _) => none
      | some (.table origin inner) =>
          (updateAt last rest inner).map fun inner =>
            replace key (.table origin inner) entries
      | some (.tables earlier inner) =>
          (updateAt last rest inner).map fun inner => replace key (.tables earlier inner) entries
      | some _ => none

/-- A header opens a table, which may so far only be a parent. -/
def openTable : List String → List (String × Toml) → Option (List (String × Toml)) :=
  updateAt fun key entries =>
    match entries.lookup key with
    | none => some (entries ++ [(key, .table .header [])])
    | some (.table .parent inner) =>
        some (entries.filter (fun entry => entry.1 != key) ++ [(key, .table .header inner)])
    | some _ => none

/-- A double header adds a table to a list of tables. -/
def openListed : List String → List (String × Toml) → Option (List (String × Toml)) :=
  updateAt fun key entries =>
    match entries.lookup key with
    | none => some (entries ++ [(key, .tables [] [])])
    | some (.tables earlier last) =>
        some (replace key (.tables (earlier ++ [.table .header last]) []) entries)
    | some _ => none

/-- Adds a value under a dotted key to the table that a path leads to. -/
def addTo (path key : List String) (value : Toml) (root : List (String × Toml)) :
    Option (List (String × Toml)) :=
  if path.isEmpty then insertKey .header value key root
  else
    updateAt (fun name entries =>
      match entries.lookup name with
      | some (.table origin inner) =>
          (insertKey .header value key inner).map fun inner =>
            replace name (.table origin inner) entries
      | some (.tables earlier inner) =>
          (insertKey .header value key inner).map fun inner =>
            replace name (.tables earlier inner) entries
      | _ => none) path root

end Toml

end Rulebook
