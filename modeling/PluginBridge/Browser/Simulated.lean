import PluginBridge.Browser.Environment

/-!
# A simulated browser

A browser whose private storage is a given tree.  Any answer about an entry may be replaced by a
prepared one.  Entries are found by their names, the first of several; a name that could lead out of
its directory is refused.
-/

namespace PluginBridge.Browser

/-- An answer in place of the usual one. -/
abbrev Replaced := Option (Except Value Value)

/-- An entry of the tree.  `lookup` replaces the answer when a directory is asked for it. -/
inductive StoredNode where
  | directory (children : List (String × StoredNode)) (lookup listing : Replaced)
  | file (size : Binary64) (lookup contents : Replaced)
  | other (lookup : Replaced)

namespace StoredNode

/-- The kind of an entry. -/
def kind : StoredNode → NodeKind
  | directory .. => .directory
  | file .. => .file
  | other _ => .other

/-- The answer in place of the entry's handle. -/
def lookup : StoredNode → Replaced
  | directory _ lookup _ => lookup
  | file _ lookup _ => lookup
  | other lookup => lookup

end StoredNode

/-- The entries of the root directory, and the answer that replaces its listing. -/
structure StoredTree where
  entries : List (String × StoredNode) := []
  listing : Replaced := none

/-- A handle: of the root, or of an entry as it was when the handle was given out. -/
inductive TreeHandle where
  | root
  | entry (name : String) (node : StoredNode)

instance : Handle TreeHandle where
  kind
    | .root => .directory
    | .entry _ node => node.kind
  name
    | .root => ""
    | .entry name _ => name

namespace StoredTree

/-- The children that a directory handle shows. -/
def children (tree : StoredTree) : TreeHandle → List (String × StoredNode)
  | .root => tree.entries
  | .entry _ (.directory children _ _) => children
  | .entry _ _ => []

/-- May a name be asked for? -/
def isAllowed (name : String) : Bool :=
  name ≠ "" && name ≠ "." && name ≠ ".." && !name.contains '/'

/-- The handle of an entry of a kind. -/
def find (tree : StoredTree) (parent : TreeHandle) (name : String) (kind : NodeKind) :
    Except Value (Settled TreeHandle) :=
  if !isAllowed name then .error (Value.typeError "Name is not allowed.")
  else match (tree.children parent).lookup name with
  | none => .error (.error "NotFoundError" "No such entry.")
  | some node =>
    match node.lookup with
    | some replaced => replaced.map .plain
    | none =>
      if node.kind = kind then .ok (.handle (.entry name node))
      else .error (.error "TypeMismatchError" "Not of the requested type.")

/-- The listing of a directory. -/
def list (tree : StoredTree) (handle : TreeHandle) : Except Value (Settled TreeHandle) :=
  let replaced := match handle with
    | .root => tree.listing
    | .entry _ (.directory _ _ listing) => listing
    | .entry _ _ => none
  match replaced with
  | some replaced => replaced.map .plain
  | none => .ok (.listing ((tree.children handle).map fun child =>
      .handle (.entry child.1 child.2)))

/-- The file behind a handle. -/
def contents : TreeHandle → Except Value (Settled TreeHandle)
  | .entry _ (.file size _ none) => .ok (.file size)
  | .entry _ (.file _ _ (some replaced)) => replaced.map .plain
  | _ => .ok (.plain .undefined)

/-- The answer to a query. -/
def answer (tree : StoredTree) : Query TreeHandle → Except Value (Settled TreeHandle)
  | .directory parent name => tree.find parent name .directory
  | .file parent name => tree.find parent name .file
  | .contents file => contents file
  | .children directory => tree.list directory

/-- The storage interface over the tree, every promise after the same delay. -/
def api (delay : Nat) : StorageApi TreeHandle StoredTree where
  answer tree query := { delay, outcome := tree.answer query }

/-- The storage of a window over the tree.  Its root is the tree's, unless it is replaced. -/
def manager (delay : Nat) (estimate : Estimate) (root : Replaced) :
    StorageManager TreeHandle StoredTree where
  estimate := estimate
  root _ :=
    { delay
      outcome := match root with
        | some replaced => replaced.map .plain
        | none => .ok (.handle .root) }

end StoredTree

end PluginBridge.Browser
