import Warrant.SortedMap.Basic

/-!
# Lookup in sorted maps

A sorted map is seen through `get?`: every operation says here what it does to lookups, and maps
with the same lookups are equal.

## Main statements

- `SortedMap.get?_insert`, `SortedMap.get?_erase`, `SortedMap.get?_filter`,
  `SortedMap.get?_mapValues` — lookup after a change
- `SortedMap.mem_toList_iff` — the bindings are the successful lookups
- `SortedMap.ext_get?` — maps with the same lookups are equal
-/

namespace Warrant.SortedMap

variable {κ ν ω : Type} [Ord κ]

/-! ## Lists of bindings -/

/-- A key below every key of a list is not found in it. -/
theorem lookup_eq_none_of_lt [Std.TransOrd κ] {k : κ} {l : List (κ × ν)}
    (h : ∀ b ∈ l, compare k b.1 = .lt) : lookup k l = none := by
  induction l with
  | nil => rfl
  | cons b rest ih =>
    have hb : compare k b.1 = .lt := h b List.mem_cons_self
    simp [lookup, hb, ih fun c hc => h c (List.mem_cons_of_mem _ hc)]

/-- A binding that was placed is found, and no other lookup changes. -/
theorem lookup_place [Std.TransOrd κ] (k : κ) (v : ν) (k' : κ) (l : List (κ × ν)) :
    lookup k' (place k v l) = if compare k' k = .eq then some v else lookup k' l := by
  induction l with
  | nil => simp [place, lookup]
  | cons b rest ih =>
    obtain ⟨a, w⟩ := b
    unfold place
    split
    · simp [lookup]
    · next heq =>
      have h : compare k' k = compare k' a := Std.TransCmp.congr_right heq
      by_cases hk : compare k' a = .eq <;> simp [lookup, h, hk]
    · next hgt =>
      by_cases hk : compare k' k = .eq
      · have h : compare k' a = .gt := (Std.TransCmp.congr_left hk).trans hgt
        simp [lookup, h, ih, hk]
      · simp [lookup, ih, hk]

/-- A test on bindings that increase filters lookups, if it treats equal keys alike. -/
theorem lookup_filter [Std.TransOrd κ] {p : κ → ν → Bool}
    (hp : ∀ a b v, compare a b = .eq → p a v = p b v) (k : κ) {l : List (κ × ν)}
    (h : l.Pairwise fun a b => compare a.1 b.1 = .lt) :
    lookup k (l.filter fun b => p b.1 b.2) = (lookup k l).filter (p k) := by
  induction l with
  | nil => rfl
  | cons b rest ih =>
    obtain ⟨a, v⟩ := b
    have hfront := (List.pairwise_cons.1 h).1
    have hrest := ih (List.pairwise_cons.1 h).2
    by_cases hk : compare k a = .eq
    · have hnone : lookup k rest = none := lookup_eq_none_of_lt fun c hc =>
        Std.TransCmp.lt_of_eq_of_lt hk (hfront c hc)
      by_cases hv : p a v = true
      · simp [lookup, hv, hk, Option.filter, hp k a v hk]
      · simp [lookup, hv, hk, hrest, hnone, Option.filter, hp k a v hk]
    · by_cases hv : p a v = true <;> simp [lookup, hv, hk, hrest]

/-! ## Lookup after a change -/

/-- A key that was bound is found, and no other lookup changes. -/
theorem get?_insert [Std.TransOrd κ] (m : SortedMap κ ν) (k : κ) (v : ν) (k' : κ) :
    (m.insert k v).get? k' = if compare k' k = .eq then some v else m.get? k' :=
  lookup_place k v k' m.toList

@[simp]
theorem get?_insert_self [Std.TransOrd κ] (m : SortedMap κ ν) (k : κ) (v : ν) :
    (m.insert k v).get? k = some v := by
  simp [get?_insert]

/-- A filter keeps the lookups whose values pass, if it treats equal keys alike. -/
theorem get?_filter [Std.TransOrd κ] (m : SortedMap κ ν) {p : κ → ν → Bool}
    (hp : ∀ a b v, compare a b = .eq → p a v = p b v) (k : κ) :
    (m.filter p).get? k = (m.get? k).filter (p k) :=
  lookup_filter hp k m.increasing

/-- A key that was erased is not found, and no other lookup changes. -/
theorem get?_erase [Std.TransOrd κ] (m : SortedMap κ ν) (k k' : κ) :
    (m.erase k).get? k' = if compare k' k = .eq then none else m.get? k' := by
  have hp (a b : κ) (_ : ν) (h : compare a b = .eq) :
      (compare k a != .eq) = (compare k b != .eq) := by
    rw [Std.TransCmp.congr_right h]
  rw [erase, get?_filter m hp]
  by_cases h : compare k' k = .eq
  · have h' : compare k k' = .eq := Std.OrientedCmp.eq_symm h
    cases m.get? k' <;> simp [h, h', Option.filter]
  · have h' : compare k k' ≠ .eq := fun e => h (Std.OrientedCmp.eq_symm e)
    cases m.get? k' <;> simp [h, h', Option.filter]

/-- Keys that were erased are not found, and no other lookup changes. -/
theorem get?_foldl_erase [Std.TransOrd κ] [Std.LawfulEqOrd κ] [DecidableEq κ] (m : SortedMap κ ν)
    (ks : List κ) (k : κ) :
    (ks.foldl (fun m k => m.erase k) m).get? k = if k ∈ ks then none else m.get? k := by
  induction ks generalizing m with
  | nil => simp
  | cons k' rest ih =>
    rw [List.foldl_cons, ih, get?_erase]
    by_cases h : k = k'
    · simp [h]
    · simp [h, Std.LawfulEqCmp.compare_eq_iff_eq]

/-- Lookup after a change of all values that treats equal keys alike. -/
theorem get?_mapValues [Std.TransOrd κ] (m : SortedMap κ ν) {f : κ → ν → ω}
    (hf : ∀ a b v, compare a b = .eq → f a v = f b v) (k : κ) :
    (m.mapValues f).get? k = (m.get? k).map (f k) := by
  obtain ⟨l, h⟩ := m
  simp only [get?, mapValues]
  clear h
  induction l with
  | nil => rfl
  | cons b rest ih =>
    by_cases hk : compare k b.1 = .eq
    · simp [lookup, hk, hf k b.1 b.2 hk]
    · simp [lookup, hk, ih]

/-! ## Changes of all values -/

section

variable (m : SortedMap κ ν) (f : κ → ν → ω)

theorem size_mapValues : (m.mapValues f).size = m.size :=
  List.length_map _

theorem values_mapValues : (m.mapValues f).values = m.toList.map fun b => f b.1 b.2 :=
  List.map_map

theorem filter_mapValues (p : κ → ω → Bool) :
    (m.mapValues f).filter p = (m.filter fun k v => p k (f k v)).mapValues f :=
  ext List.filter_map

theorem erase_mapValues (k : κ) : (m.mapValues f).erase k = (m.erase k).mapValues f :=
  m.filter_mapValues f _

theorem insert_mapValues [Std.TransOrd κ] (k : κ) (v : ν) :
    (m.mapValues f).insert k (f k v) = (m.insert k v).mapValues f := by
  refine ext ?_
  obtain ⟨l, h⟩ := m
  simp only [insert, mapValues]
  clear h
  induction l with
  | nil => rfl
  | cons b rest ih =>
    rw [List.map_cons, place, place]
    split
    · rfl
    · rfl
    · rw [ih, List.map_cons]

end

/-! ## Bindings -/

/-- **The bindings are the successful lookups.** -/
theorem mem_toList_iff [Std.TransOrd κ] [Std.LawfulEqOrd κ] {m : SortedMap κ ν} {k : κ} {v : ν} :
    (k, v) ∈ m.toList ↔ m.get? k = some v := by
  obtain ⟨l, h⟩ := m
  simp only [get?]
  induction l with
  | nil => simp [lookup]
  | cons b rest ih =>
    obtain ⟨a, w⟩ := b
    have hfront := (List.pairwise_cons.1 h).1
    have hrest := ih (List.pairwise_cons.1 h).2
    by_cases hk : compare k a = .eq
    · have hka : k = a := Std.LawfulEqOrd.eq_of_compare hk
      subst hka
      have hnot : (k, v) ∉ rest := fun hm => by
        have := hfront (k, v) hm
        simp at this
      simp [lookup, hnot, eq_comm]
    · have hka : k ≠ a := fun e => hk (e ▸ Std.ReflCmp.compare_self)
      simp [lookup, hk, hka, hrest]

/-- A key is bound exactly when it is among the keys. -/
theorem mem_keys_iff [Std.TransOrd κ] [Std.LawfulEqOrd κ] {m : SortedMap κ ν} {k : κ} :
    k ∈ m.keys ↔ (m.get? k).isSome := by
  simp only [keys, List.mem_map, Option.isSome_iff_exists, ← mem_toList_iff]
  exact ⟨fun ⟨b, hb, e⟩ => ⟨b.2, e ▸ hb⟩, fun ⟨v, hv⟩ => ⟨(k, v), hv, rfl⟩⟩

/-- No key is listed twice. -/
theorem nodup_keys [Std.TransOrd κ] (m : SortedMap κ ν) : m.keys.Nodup := by
  refine List.pairwise_map.2 (m.increasing.imp fun {a b} h e => ?_)
  have hself : compare b.1 b.1 = .eq := Std.ReflCmp.compare_self
  rw [e, hself] at h
  exact nomatch h

/-- A value is listed exactly when some key is bound to it. -/
theorem mem_values_iff [Std.TransOrd κ] [Std.LawfulEqOrd κ] {m : SortedMap κ ν} {v : ν} :
    v ∈ m.values ↔ ∃ k, m.get? k = some v := by
  simp only [values, List.mem_map, ← mem_toList_iff]
  exact ⟨fun ⟨b, hb, e⟩ => ⟨b.1, e ▸ hb⟩, fun ⟨k, hk⟩ => ⟨(k, v), hk, rfl⟩⟩

/-- Lists whose keys increase are equal if they have the same members. -/
theorem eq_of_mem_iff [Std.TransOrd κ] :
    ∀ {l₁ l₂ : List (κ × ν)}, l₁.Pairwise (fun a b => compare a.1 b.1 = .lt) →
      l₂.Pairwise (fun a b => compare a.1 b.1 = .lt) → (∀ b, b ∈ l₁ ↔ b ∈ l₂) → l₁ = l₂
  | [], [], _, _, _ => rfl
  | [], b :: rest, _, _, h => absurd ((h b).2 List.mem_cons_self) (by simp)
  | b :: rest, [], _, _, h => absurd ((h b).1 List.mem_cons_self) (by simp)
  | b :: rest, c :: rest', h₁, h₂, h => by
    have front₁ := (List.pairwise_cons.1 h₁).1
    have front₂ := (List.pairwise_cons.1 h₂).1
    have hbc : b = c := by
      rcases List.mem_cons.1 ((h b).1 List.mem_cons_self) with hb | hb
      · exact hb
      · rcases List.mem_cons.1 ((h c).2 List.mem_cons_self) with hc | hc
        · exact hc.symm
        · have hgt := Std.OrientedCmp.gt_of_lt (front₁ c hc)
          exact nomatch hgt.symm.trans (front₂ b hb)
    subst hbc
    have irrefl (d : κ × ν) : compare d.1 d.1 ≠ .lt := by simp
    refine congrArg (b :: ·) (eq_of_mem_iff (List.pairwise_cons.1 h₁).2
      (List.pairwise_cons.1 h₂).2 fun d => ⟨fun hd => ?_, fun hd => ?_⟩)
    · rcases List.mem_cons.1 ((h d).1 (List.mem_cons_of_mem _ hd)) with rfl | hd'
      · exact absurd (front₁ d hd) (irrefl d)
      · exact hd'
    · rcases List.mem_cons.1 ((h d).2 (List.mem_cons_of_mem _ hd)) with rfl | hd'
      · exact absurd (front₂ d hd) (irrefl d)
      · exact hd'

/-- **Maps with the same lookups are equal.** -/
theorem ext_get? [Std.TransOrd κ] [Std.LawfulEqOrd κ] {m n : SortedMap κ ν}
    (h : ∀ k, m.get? k = n.get? k) : m = n :=
  ext (eq_of_mem_iff m.increasing n.increasing fun b => by
    rw [show b = (b.1, b.2) from rfl, mem_toList_iff, mem_toList_iff, h])

end Warrant.SortedMap
