/-!
# TOML documents

The values of a document and the rules for defining tables: by headers, by dotted keys and as
elements of arrays of tables. No key is defined twice, and a table made in one way is not extended
in another.
-/

namespace LinkRegistry.Toml

/-- A value of a document. Floats and times are told apart from the rest but not kept. -/
inductive Value
  | text (content : String)
  | integer (number : Int)
  | boolean (truth : Bool)
  | float
  | time
  | array (items : List Value)
  | table (members : List (String × Value))

/-- How a table came to be. -/
inductive TableKind
  /-- By a header of its own, or as the root. -/
  | header
  /-- On the way to the table of a header. -/
  | implied
  /-- By the front of a dotted key. -/
  | dotted
  deriving DecidableEq, Repr

/-- What a key of a document in the making is bound to. -/
inductive Node
  /-- A finished value. -/
  | value (content : Value)
  | table (kind : TableKind) (members : List (String × Node))
  /-- An array of tables, the last first. Only the last can be extended. -/
  | tables (elements : List (List (String × Node)))

/-- The members of a table. -/
abbrev Members := List (String × Node)

/-- The members with a key bound to a node, in place of what it was bound to before. -/
def bind (key : String) (node : Node) : Members → Members
  | [] => [(key, node)]
  | (name, old) :: rest =>
    if name = key then (name, node) :: rest else (name, old) :: bind key node rest

/-- Changes the members of the table at the end of a path. Tables missing on the way are made, and
an array of tables is entered at its last one. Dotted keys enter only tables that dotted keys or
longer headers made. -/
def alter (dotted : Bool) (change : Members → Option Members) :
    List String → Members → Option Members
  | [], members => change members
  | key :: path, members =>
    match members.lookup key with
    | none =>
      (alter dotted change path []).map fun inner =>
        bind key (.table (if dotted then .dotted else .implied) inner) members
    | some (.value _) => none
    | some (.tables []) => none
    | some (.tables (last :: earlier)) =>
      (alter dotted change path last).map fun inner =>
        bind key (.tables (inner :: earlier)) members
    | some (.table kind inner) =>
      if dotted && kind = .header then none
      else
        (alter dotted change path inner).map fun inner =>
          bind key (.table kind inner) members

/-- Whether a path ends in a table that dotted keys made, as far as it is there already. -/
def endsDotted : List String → Members → Bool
  | [], _ => true
  | [key], members =>
    match members.lookup key with
    | none => true
    | some (.table kind _) => kind = .dotted
    | some _ => false
  | key :: path, members =>
    match members.lookup key with
    | none => true
    | some (.table _ inner) => endsDotted path inner
    | some (.tables (last :: _)) => endsDotted path last
    | some _ => false

/-- Defines a key that is not defined yet. -/
def define (key : String) (node : Node) (members : Members) : Option Members :=
  match members.lookup key with
  | none => some (bind key node members)
  | some _ => none

/-- Defines the value of a key, dotted or not, in the members of a table. -/
def defineValue (path : List String) (key : String) (content : Value) (members : Members) :
    Option Members :=
  if endsDotted path members then alter true (define key (.value content)) path members else none

/-- Opens the table of a header: a new one, or one implied so far. -/
def openTable (key : String) (members : Members) : Option Members :=
  match members.lookup key with
  | none => some (bind key (.table .header []) members)
  | some (.table .implied inner) => some (bind key (.table .header inner) members)
  | some _ => none

/-- Adds a table to an array of tables, a new one or one there is. -/
def appendTable (key : String) (members : Members) : Option Members :=
  match members.lookup key with
  | none => some (bind key (.tables [[]]) members)
  | some (.tables elements) => some (bind key (.tables ([] :: elements)) members)
  | some _ => none

mutual

/-- The value that a node stands for. -/
def Node.toValue : Node → Value
  | .value content => content
  | .table _ members => .table (toValues members)
  | .tables elements => .array (toTables elements).reverse

/-- The values of members. -/
def toValues : List (String × Node) → List (String × Value)
  | [] => []
  | (key, node) :: rest => (key, node.toValue) :: toValues rest

/-- The values of the tables of an array. -/
def toTables : List (List (String × Node)) → List Value
  | [] => []
  | members :: rest => .table (toValues members) :: toTables rest

end

end LinkRegistry.Toml
