import Workflow.Json.Draft

/-!
Tables of TOML under construction. A table is opened by its header at most once, and a table made
by dotted keys only grows by dotted keys; a header may open a table that other headers only
passed through.
-/
namespace Workflow.Toml

inductive Origin where
  /-- A header opened it. -/
  | header
  /-- A longer header went through it. -/
  | passed
  /-- A dotted key made it. -/
  | dotted
  deriving Repr, DecidableEq

inductive Item where
  | value (draft : Json.Draft)
  | table (origin : Origin) (entries : List (String × Item))
  /-- Tables under one header in double brackets, the first one first. -/
  | tables (items : List (List (String × Item)))

abbrev Entries := List (String × Item)

/-- Puts an item under a key, in place of the one that is there or at the end. -/
def Entries.set (key : String) (item : Item) : Entries → Entries
  | [] => [(key, item)]
  | (k, i) :: rest => if k = key then (key, item) :: rest else (k, i) :: set key item rest

def Entries.item? (entries : Entries) (key : String) : Option Item :=
  (entries.find? (·.1 = key)).map Prod.snd

/-- Changes the table at the end of a path; tables on the way that do not exist yet are made. Of
tables under one header the last one is meant. A dotted key does not go through tables that have a
header of their own. -/
def Entries.descend (isDotted : Bool) (change : Origin → Entries → Option Entries) :
    List String → Origin → Entries → Option Entries
  | [], origin, entries => change origin entries
  | key :: path, _, entries =>
    match item? entries key with
    | none => do
      let origin := if isDotted then .dotted else .passed
      let inner ← descend isDotted change path origin []
      return set key (.table origin inner) entries
    | some (.table origin inner) => do
      if isDotted && origin = .header then none
      let inner ← descend isDotted change path origin inner
      return set key (.table origin inner) entries
    | some (.tables items) => do
      let inner ← descend isDotted change path .header (← items.getLast?)
      return set key (.tables (items.dropLast ++ [inner])) entries
    | some (.value _) => none

/-- Puts a value under a dotted key that is not taken. -/
def Entries.put (entries : Entries) (path : List String) (key : String) (value : Json.Draft) :
    Option Entries :=
  descend true (fun origin table =>
    if path.isEmpty == (origin == .dotted) || (item? table key).isSome then none
    else some (set key (.value value) table)) path .header entries

def Entries.openTable (entries : Entries) (path : List String) (key : String) : Option Entries :=
  descend false (fun _ table =>
    match item? table key with
    | none => some (set key (.table .header []) table)
    | some (.table .passed inner) => some (set key (.table .header inner) table)
    | some _ => none) path .header entries

/-- Opens one more of the tables under one header. -/
def Entries.openNext (entries : Entries) (path : List String) (key : String) : Option Entries :=
  descend false (fun _ table =>
    match item? table key with
    | none => some (set key (.tables [[]]) table)
    | some (.tables items) => some (set key (.tables (items ++ [[]])) table)
    | some _ => none) path .header entries

/-- Changes the table that a header opened. -/
def Entries.within (entries : Entries) (path : List String)
    (change : Entries → Option Entries) : Option Entries :=
  descend false (fun _ => change) path .header entries

mutual

def Item.toDraft : Item → Json.Draft
  | .value draft => draft
  | .table _ entries => .object (draftEntries entries) none
  | .tables items => .array (draftTables items) none

def Item.draftEntries : List (String × Item) → List (String × Json.Draft)
  | [] => []
  | (key, item) :: rest => (key, item.toDraft) :: draftEntries rest

def Item.draftTables : List (List (String × Item)) → List Json.Draft
  | [] => []
  | entries :: rest => .object (draftEntries entries) none :: draftTables rest

end

def Entries.toDraft (entries : Entries) : Json.Draft := .object (Item.draftEntries entries) none

end Workflow.Toml
