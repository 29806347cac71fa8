import SqlSnapshot.Catalog

/-!
# The graph of references

The procedures of a catalog with the references between them, both under the keys of the objects.
`reach` walks along references from procedure to procedure, breadth first.
-/

namespace SqlSnapshot

/-- Every row stands with its key, every edge with the key of the procedure that it starts from. -/
structure ReferenceGraph where
  rows : List (String × ProcedureRow)
  edges : List (String × DependencyEdge)
deriving Repr, Inhabited

namespace ReferenceGraph

def ofLists (rows : List ProcedureRow) (edges : List DependencyEdge) : ReferenceGraph where
  rows := rows.map fun r => (r.key, r)
  edges := edges.map fun e => (e.fromKey, e)

/-- The procedure of a key; of several rows the last counts. -/
def row? (g : ReferenceGraph) (key : String) : Option ProcedureRow :=
  (g.rows.findRev? (·.1 == key)).map (·.2)

def isProcedure (g : ReferenceGraph) (key : String) : Bool :=
  (g.row? key).isSome

def references (g : ReferenceGraph) (key : String) : List DependencyEdge :=
  (g.edges.filter (·.1 == key)).map (·.2)

/-- The keys of the procedures to which a procedure refers. -/
def successors (g : ReferenceGraph) (key : String) : List String :=
  ((g.references key).map (·.toKey)).filter g.isProcedure

/-- Appends the keys that are not there yet. -/
def appendNew (known : List String) : List String → List String
  | [] => known
  | k :: ks => if known.contains k then appendNew known ks else appendNew (known ++ [k]) ks

/-- The keys found from the `pending` ones on, after the ones that are `done`.  Every step moves one
procedure from `pending` to `done`, so that as many steps as there are procedures are enough. -/
def explore (g : ReferenceGraph) : (steps : Nat) → (done pending : List String) → List String
  | 0, done, pending => done ++ pending
  | _ + 1, done, [] => done
  | steps + 1, done, key :: pending =>
    let found := appendNew (done ++ key :: pending) (g.successors key)
    g.explore steps (done ++ [key]) (found.drop (done.length + 1))

/-- The keys that can be reached from the given ones, in the order in which they are found. -/
def reach (g : ReferenceGraph) (seeds : List String) : List String :=
  g.explore g.rows.length [] (appendNew [] seeds)

/-- The procedures that can be reached, in the order of their names. -/
def closure (g : ReferenceGraph) (seeds : List String) : List Descriptor :=
  Descriptor.sortedDistinct (((g.reach seeds).filterMap g.row?).map (·.descriptor))

end ReferenceGraph

end SqlSnapshot
