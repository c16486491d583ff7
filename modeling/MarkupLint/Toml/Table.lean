/-!
# Tables

A value keeps what decides whether it can still be extended: a table remembers how it came to be.
Tables are filled step by step, by entries with dotted keys and by headers. No key may be set twice,
and a table is only extended by the means by which it came to be: dotted keys do not reach into the
table of a header, nor headers into what stands in braces.
-/

namespace MarkupLint.Toml

/-- How a table came to be. -/
inductive Origin where
  /-- Written in braces. -/
  | inline
  /-- Under a header of its own. -/
  | header
  /-- On the way to the table of a header. -/
  | implied
  /-- On the way to a dotted key. -/
  | dotted
deriving DecidableEq, Repr

/-- The values of a document. -/
inductive Value where
  | text (s : List Char)
  | integer (n : Int)
  /-- A number with a fraction or an exponent, as it is written. -/
  | float (written : List Char)
  | truth (b : Bool)
  /-- A date, a time or both, as it is written. -/
  | date (written : List Char)
  | array (items : List Value)
  /-- An array of tables that have a header each. -/
  | tables (items : List Value)
  | table (origin : Origin) (entries : List (List Char × Value))

abbrev Entries := List (List Char × Value)

/-! ## Building tables -/

def lookup (key : List Char) (es : Entries) : Option Value :=
  (es.find? (·.1 == key)).map (·.2)

/-- Replaces the value under a key, or adds one. -/
def alter (key : List Char) (f : Option Value → Option Value) : Entries → Option Entries
  | [] => (f none).map fun v => [(key, v)]
  | e :: es =>
    if e.1 = key then (f (some e.2)).map fun v => (key, v) :: es
    else (alter key f es).map (e :: ·)

/-- A table that is being built. -/
structure Table where
  origin : Origin
  entries : Entries

def Table.toValue (t : Table) : Value := .table t.origin t.entries

def changeLast (f : Table → Option Table) : List Value → Option (List Value)
  | [] => none
  | [.table origin entries] => (f ⟨origin, entries⟩).map fun t => [t.toValue]
  | v :: vs => (changeLast f vs).map (v :: ·)

/-- A path of keys may lead on through a table: not through one in braces, and a dotted one not
through the table of a header. -/
def Origin.admits (dotted : Bool) : Origin → Bool
  | .inline => false
  | .header => !dotted
  | .implied => true
  | .dotted => true

/-- Changes the table at the end of a path of keys; missing tables on the way are made. -/
def within (dotted : Bool) : List (List Char) → (Table → Option Table) → Table → Option Table
  | [], f, t => f t
  | key :: keys, f, t =>
    (alter key (fun v? =>
      match v? with
      | none =>
        (within dotted keys f ⟨if dotted then .dotted else .implied, []⟩).map Table.toValue
      | some (.table origin entries) =>
        if origin.admits dotted then (within dotted keys f ⟨origin, entries⟩).map Table.toValue
        else none
      | some (.tables items) => (changeLast (within dotted keys f) items).map .tables
      | some _ => none) t.entries).map fun es => { t with entries := es }

/-- Adds an entry under a dotted key, of which the last part is given apart. -/
def setEntry (path : List (List Char)) (key : List Char) (v : Value) (t : Table) : Option Table :=
  within true path
    (fun t =>
      if (t.origin == .dotted) == path.isEmpty then none
      else
        (alter key (fun old => if old.isSome then none else some v) t.entries).map
          fun es => { t with entries := es })
    t

/-- Opens the table of a header, which may have been implied by an earlier one. -/
def openTable (path : List (List Char)) (key : List Char) (t : Table) : Option Table :=
  within false path
    (fun t =>
      (alter key (fun old =>
        match old with
        | none => some (.table .header [])
        | some (.table .implied entries) => some (.table .header entries)
        | some _ => none) t.entries).map fun es => { t with entries := es })
    t

/-- Opens one more of an array of tables. -/
def openNext (path : List (List Char)) (key : List Char) (t : Table) : Option Table :=
  within false path
    (fun t =>
      (alter key (fun old =>
        match old with
        | none => some (.tables [.table .header []])
        | some (.tables items) => some (.tables (items ++ [.table .header []]))
        | some _ => none) t.entries).map fun es => { t with entries := es })
    t

end MarkupLint.Toml
