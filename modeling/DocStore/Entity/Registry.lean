/-
Module: DocStore.Entity.Registry
Purpose: the entity types known to an adapter, and the edge types inferred from them.
Main exports:
  Registry, Registry.register, Registry.byCollection, Registry.edgeBetween
-/
import DocStore.Entity.Basic

namespace DocStore

/-- The known entity types by name. -/
structure Registry where
  entities : Dict Entity := {}
deriving Inhabited

namespace Registry

/-- Add an entity type in the place of one with the same name. -/
def register (r : Registry) (e : Entity) : Registry :=
  ⟨r.entities.insert e.name e⟩

/-- The entity type of a name. -/
def get? (r : Registry) (name : String) : Option Entity :=
  r.entities.get? name

/-- An entity type stored in a collection, the first by name. -/
def byCollection (r : Registry) (collection : String) : Option Entity :=
  r.entities.values.find? fun e => e.collection == collection

/-- The edge type between two entity types.  It is created when it is first asked
for. -/
def edgeBetween (r : Registry) (a b : Entity) : Entity × Registry :=
  let name := edgeCollectionName a.name b.name
  match r.get? name with
  | some found => (found, r)
  | none =>
      let edge := Entity.edge name name
      (edge, r.register edge)

/-- How many entity types are known. -/
def size (r : Registry) : Nat :=
  r.entities.entries.length

end Registry

end DocStore
