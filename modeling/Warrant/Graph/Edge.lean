import Warrant.Instant.Text
import Warrant.Json.Basic
import Warrant.Plan.Basic

/-!
# Nodes and edges

The rows of a store are the nodes of a graph, and granted permissions are its edges. An edge is
known by its key: who may do what to which row. Keys are ordered by subject, object and
permission, texts by their code points.

## Main definitions

- `Node` — a row by entity and id
- `EdgeKey` — subject, object and permission
- `Stamp`, `Edge` — when and by whom a permission was granted, and the whole edge
-/

namespace Warrant

/-- A row by entity and id. -/
structure Node where
  entity : String
  id : String
deriving DecidableEq, Repr

namespace Node

/-- Nodes are ordered by entity, then by id. -/
instance : Ord Node :=
  ⟨compareLex (compareOn Node.entity) (compareOn Node.id)⟩

instance : Std.TransOrd Node :=
  inferInstanceAs (Std.TransCmp (compareLex (compareOn Node.entity) (compareOn Node.id)))

instance : Std.LawfulEqOrd Node where
  eq_of_compare {a b} h := by
    have h : compareLex (compareOn Node.entity) (compareOn Node.id) a b = .eq := h
    simp only [compareLex_eq_eq, compareOn, Std.LawfulEqCmp.compare_eq_iff_eq] at h
    cases a; cases b; simp_all

def write (n : Node) : String :=
  n.entity ++ "." ++ n.id

end Node

/-- The row on whose behalf a plan runs. -/
def Principal.node (p : Principal) : Node :=
  ⟨p.entity, p.id⟩

/-- What identifies a permission: there is one edge at most for a key. -/
structure EdgeKey where
  subject : Node
  object : Node
  permission : String
deriving DecidableEq, Repr

namespace EdgeKey

/-- Keys are ordered by subject, then by object, then by permission. -/
instance : Ord EdgeKey :=
  ⟨compareLex (compareLex (compareOn EdgeKey.subject) (compareOn EdgeKey.object))
    (compareOn EdgeKey.permission)⟩

instance : Std.TransOrd EdgeKey :=
  inferInstanceAs (Std.TransCmp (compareLex
    (compareLex (compareOn EdgeKey.subject) (compareOn EdgeKey.object))
    (compareOn EdgeKey.permission)))

instance : Std.LawfulEqOrd EdgeKey where
  eq_of_compare {a b} h := by
    have h : compareLex (compareLex (compareOn EdgeKey.subject) (compareOn EdgeKey.object))
      (compareOn EdgeKey.permission) a b = .eq := h
    simp only [compareLex_eq_eq, compareOn, Std.LawfulEqCmp.compare_eq_iff_eq] at h
    cases a; cases b; simp_all

def write (k : EdgeKey) : String :=
  k.subject.write ++ " -[" ++ k.permission ++ "]-> " ++ k.object.write

end EdgeKey

/-- When and by whom a permission was granted. -/
structure Stamp where
  grantedAt : Instant
  /-- Nobody once the grantor has been deleted. -/
  grantedBy : Option Node
deriving DecidableEq

/-- A granted permission. -/
structure Edge where
  key : EdgeKey
  stamp : Stamp
deriving DecidableEq

def Edge.toJson (e : Edge) : Json :=
  .ofMembers [
    ("subject", .string e.key.subject.write),
    ("object", .string e.key.object.write),
    ("permission", .string e.key.permission),
    ("granted_at", .string (e.stamp.grantedAt.write .millis)),
    ("granted_by", Json.optionalString (e.stamp.grantedBy.map Node.write))]

end Warrant
