/-!
# Sorted maps

Finite maps as lists of bindings with strictly increasing keys. The order of the keys is the order
in which everything is enumerated, and two maps are equal exactly when their bindings are.

## Main definitions

- `SortedMap` — the bindings, and the proof that their keys increase
- `SortedMap.get?`, `SortedMap.insert`, `SortedMap.erase` — lookup and change of one binding
- `SortedMap.filter`, `SortedMap.mapValues` — changes of all bindings at once
- `SortedMap.ofList` — the map of some bindings, the last of a key winning
-/

namespace Warrant

/-- A finite map whose bindings are listed with strictly increasing keys. -/
structure SortedMap (κ : Type) (ν : Type) [Ord κ] where
  /-- The bindings in the order of their keys. -/
  toList : List (κ × ν)
  increasing : toList.Pairwise fun a b => compare a.1 b.1 = .lt

namespace SortedMap

variable {κ ν ω : Type} [Ord κ]

/-- Maps with the same bindings are equal. -/
@[ext]
theorem ext {m n : SortedMap κ ν} (h : m.toList = n.toList) : m = n := by
  cases m; cases n; cases h; rfl

instance [DecidableEq κ] [DecidableEq ν] : DecidableEq (SortedMap κ ν) := fun m n =>
  decidable_of_iff (m.toList = n.toList) ⟨ext, fun h => h ▸ rfl⟩

/-- The map without bindings. -/
def empty : SortedMap κ ν :=
  ⟨[], .nil⟩

instance : EmptyCollection (SortedMap κ ν) := ⟨empty⟩

instance : Inhabited (SortedMap κ ν) := ⟨empty⟩

/-- The number of bindings. -/
def size (m : SortedMap κ ν) : Nat :=
  m.toList.length

/-- The keys in order. -/
def keys (m : SortedMap κ ν) : List κ :=
  m.toList.map Prod.fst

/-- The values in the order of their keys. -/
def values (m : SortedMap κ ν) : List ν :=
  m.toList.map Prod.snd

/-- The value of the first binding of a key in a list of bindings. -/
def lookup (k : κ) : List (κ × ν) → Option ν
  | [] => none
  | (a, v) :: rest => if compare k a = .eq then some v else lookup k rest

/-- The value bound to a key. -/
def get? (m : SortedMap κ ν) (k : κ) : Option ν :=
  lookup k m.toList

/-- Whether a key is bound. -/
def contains (m : SortedMap κ ν) (k : κ) : Bool :=
  (m.get? k).isSome

/-- Places a binding where it belongs, in the place of one with the same key. -/
def place (k : κ) (v : ν) : List (κ × ν) → List (κ × ν)
  | [] => [(k, v)]
  | (a, w) :: rest =>
    match compare k a with
    | .lt => (k, v) :: (a, w) :: rest
    | .eq => (k, v) :: rest
    | .gt => (a, w) :: place k v rest

theorem mem_place {k : κ} {v : ν} {b : κ × ν} :
    ∀ {l : List (κ × ν)}, b ∈ place k v l → b = (k, v) ∨ b ∈ l
  | [], h => by simpa [place] using h
  | (a, w) :: rest, h => by
    unfold place at h
    split at h
    · simpa using h
    · rcases List.mem_cons.1 h with rfl | h
      · exact .inl rfl
      · exact .inr (List.mem_cons_of_mem _ h)
    · rcases List.mem_cons.1 h with rfl | h
      · exact .inr List.mem_cons_self
      · exact (mem_place h).imp id (List.mem_cons_of_mem _)

theorem place_increasing [Std.TransOrd κ] (k : κ) (v : ν) :
    ∀ {l : List (κ × ν)}, l.Pairwise (fun a b => compare a.1 b.1 = .lt) →
      (place k v l).Pairwise fun a b => compare a.1 b.1 = .lt
  | [], _ => by simp [place]
  | (a, w) :: rest, h => by
    have hrest := (List.pairwise_cons.1 h).2
    have hfront := (List.pairwise_cons.1 h).1
    unfold place
    split
    · next hlt =>
      refine List.pairwise_cons.2 ⟨fun b hb => ?_, h⟩
      rcases List.mem_cons.1 hb with rfl | hb
      · exact hlt
      · exact Std.TransCmp.lt_trans hlt (hfront b hb)
    · next heq =>
      refine List.pairwise_cons.2 ⟨fun b hb => ?_, hrest⟩
      exact Std.TransCmp.lt_of_eq_of_lt heq (hfront b hb)
    · next hgt =>
      refine List.pairwise_cons.2 ⟨fun b hb => ?_, place_increasing k v hrest⟩
      rcases mem_place hb with rfl | hb
      · exact Std.OrientedCmp.lt_of_gt hgt
      · exact hfront b hb

/-- Binds a key to a value, whatever it was bound to before. -/
def insert [Std.TransOrd κ] (m : SortedMap κ ν) (k : κ) (v : ν) : SortedMap κ ν :=
  ⟨place k v m.toList, place_increasing k v m.increasing⟩

/-- The map of some bindings. Of two bindings of one key the later wins. -/
def ofList [Std.TransOrd κ] (l : List (κ × ν)) : SortedMap κ ν :=
  l.foldl (fun m b => m.insert b.1 b.2) empty

/-- Keeps the bindings that satisfy a test. -/
def filter (m : SortedMap κ ν) (p : κ → ν → Bool) : SortedMap κ ν :=
  ⟨m.toList.filter fun b => p b.1 b.2, m.increasing.filter _⟩

/-- Removes the binding of a key, if there is one. -/
def erase (m : SortedMap κ ν) (k : κ) : SortedMap κ ν :=
  m.filter fun a _ => compare k a != .eq

/-- Changes every value, given its key. -/
def mapValues (m : SortedMap κ ν) (f : κ → ν → ω) : SortedMap κ ω :=
  ⟨m.toList.map fun b => (b.1, f b.1 b.2), by
    rw [List.pairwise_map]; exact m.increasing⟩

end SortedMap

end Warrant
