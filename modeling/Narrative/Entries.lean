/-!
# Entries in order

A mapping from names to values whose order matters is the list of its entries.  `put` keeps the
place of a name that is already there and adds a new one at the end, so the names stay distinct;
`distinct` turns any list of entries into such a mapping, the last value of a name winning in its
first place.
-/

namespace Narrative.Entries

variable {α β : Type}

/-- The entries with `value` under `name`. -/
def put (name : String) (value : α) : List (String × α) → List (String × α)
  | [] => [(name, value)]
  | (other, old) :: rest =>
    if other = name then (name, value) :: rest else (other, old) :: put name value rest

/-- The mapping that a list of entries builds when they are put one after the other. -/
def distinct (entries : List (String × α)) : List (String × α) :=
  entries.foldl (fun built entry => put entry.1 entry.2 built) []

/-- The names of the entries, in order. -/
def names (entries : List (String × α)) : List String :=
  entries.map Prod.fst

/-- The mapping with a function applied to each value. -/
def mapValues (f : α → β) (entries : List (String × α)) : List (String × β) :=
  entries.map fun entry => (entry.1, f entry.2)

end Narrative.Entries
