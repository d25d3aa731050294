import OpsContent.Text.Bytes

/-!
# The disk

The disk maps locations to nodes. A location is the list of names that lead to it from the
root; the root is a directory whatever the map says. Every statement about files goes through
`Disk.get?`, and each basic change has one lemma that says what it does to that view.
-/

namespace OpsContent

/-- The names that lead to a node from the root. -/
abbrev Location := List String

/-- What stands at a location. Nodes have no permission bits: the program runs as the superuser,
whom they do not hold back. -/
inductive Node where
  | file (content : Bytes)
  | directory
  deriving DecidableEq

/-- The nodes by their locations, and the directory that relative paths start from. -/
structure Disk where
  current : Location
  nodes : List (Location × Node)

namespace Disk

def lookup (location : Location) : List (Location × Node) → Option Node
  | [] => none
  | (other, node) :: rest => if other = location then some node else lookup location rest

/-- What stands at a location. -/
def get? (disk : Disk) (location : Location) : Option Node :=
  if location = [] then some .directory else lookup location disk.nodes

/-- Is the location the top or below it? -/
def isBelow (top location : Location) : Bool :=
  top.isPrefixOf location

/-- Put a node to a location, in place of what was there. -/
def put (disk : Disk) (location : Location) (node : Node) : Disk :=
  { disk with nodes := (location, node) :: disk.nodes.filter (·.1 ≠ location) }

/-- Take away one node. -/
def remove (disk : Disk) (location : Location) : Disk :=
  { disk with nodes := disk.nodes.filter (·.1 ≠ location) }

/-- Take away a node with everything below it. -/
def removeBelow (disk : Disk) (top : Location) : Disk :=
  { disk with nodes := disk.nodes.filter fun entry => !isBelow top entry.1 }

/-- Insert a name into a sorted list of names. -/
def insertName (name : String) : List String → List String
  | [] => [name]
  | first :: rest =>
    if name < first then name :: first :: rest
    else if name = first then first :: rest
    else first :: insertName name rest

/-- The names in a directory, sorted. -/
def children (disk : Disk) (location : Location) : List String :=
  disk.nodes.foldl (fun names entry =>
    match entry.1.getLast? with
    | some name => if entry.1.dropLast = location then insertName name names else names
    | none => names) []

/-- Move a location with everything below it to another place. -/
def relocate (disk : Disk) (source target : Location) : Disk :=
  { disk with nodes := (disk.removeBelow target).nodes.map fun entry =>
      if isBelow source entry.1 then (target ++ entry.1.drop source.length, entry.2) else entry }

def isDirectoryAt (disk : Disk) (location : Location) : Bool :=
  disk.get? location == some .directory

@[simp] theorem get?_root (disk : Disk) : disk.get? [] = some .directory := rfl

theorem lookup_filter_ne (location other : Location) (nodes : List (Location × Node)) :
    lookup location (nodes.filter (·.1 ≠ other)) =
      if location = other then none else lookup location nodes := by
  induction nodes with
  | nil => simp [lookup]
  | cons entry rest ih =>
    obtain ⟨place, node⟩ := entry
    by_cases same : place = other
    · subst same
      by_cases equal : location = place
      · simpa [equal, lookup] using ih
      · simpa [equal, Ne.symm equal, lookup] using ih
    · by_cases equal : place = location
      · subst equal; simp [same, lookup]
      · simpa [same, equal, lookup] using ih

/-- After a node was put at a location, it is there and nothing else has changed. -/
theorem get?_put (disk : Disk) (location other : Location) (node : Node) (inside : location ≠ []) :
    (disk.put location node).get? other =
      if other = location then some node else disk.get? other := by
  by_cases root : other = []
  · subst root; simp [Ne.symm inside]
  · by_cases same : other = location
    · subst same; simp [get?, put, lookup, root]
    · have filtered := lookup_filter_ne other location disk.nodes
      simp only [get?, put, root, if_false, lookup, if_neg (Ne.symm same), filtered, if_neg same]

/-- After a location was taken away, nothing is there and nothing else has changed. -/
theorem get?_remove (disk : Disk) (location other : Location) (inside : location ≠ []) :
    (disk.remove location).get? other =
      if other = location then none else disk.get? other := by
  by_cases root : other = []
  · subst root; simp [Ne.symm inside]
  · have filtered := lookup_filter_ne other location disk.nodes
    simp only [get?, remove, root, if_false, filtered]

/-- After a location was taken away with all below it, nothing is there and nothing else has
changed. -/
theorem get?_removeBelow (disk : Disk) (top other : Location) (inside : top ≠ []) :
    (disk.removeBelow top).get? other =
      if isBelow top other then none else disk.get? other := by
  by_cases root : other = []
  · subst root
    cases top with
    | nil => exact absurd rfl inside
    | cons => simp [isBelow]
  · simp only [get?, removeBelow, root, if_false]
    induction disk.nodes with
    | nil => simp [lookup]
    | cons entry rest ih =>
      obtain ⟨place, node⟩ := entry
      by_cases below : isBelow top place
      · simp only [List.filter_cons, below, Bool.not_true, Bool.false_eq_true, if_false, lookup, ih]
        by_cases equal : place = other
        · subst equal; simp [below]
        · simp [equal]
      · simp only [List.filter_cons, below, Bool.not_false, if_true, lookup, ih]
        by_cases equal : place = other
        · subst equal; simp [below]
        · simp [equal]

end Disk

end OpsContent
