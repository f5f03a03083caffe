import Mathlib.Computability.Language
import Warrant.Proofs.Bytes.Burst
import Warrant.Proofs.Bytes.Reading

/-!
# What readers accept

A reader that succeeds has taken some bytes from the front. For every value it makes, they belong to
a language: for a number, a text or a bit to the one spelling that is written, and for composed
values to products of the languages of their parts.

## Main definitions

- `Bytes.Reader.Yields` — a reader goes from some bytes to others with a value
- `Bytes.Reader.Accepts` — the languages of what a reader takes
- `Bytes.listSpellings`, `Bytes.optionSpellings` — the languages of lists and options

## Main statements

- `Bytes.Reader.accepts_string`, `Bytes.Reader.accepts_list`, `Bytes.Reader.accepts_option` — the
  parts of binary texts
-/

namespace Warrant.Bytes

variable {α β : Type}

/-- The text of bytes has these bytes. -/
theorem ofString_of_toString? {bytes : List UInt8} {s : String} (h : toString? bytes = some s) :
    ofString s = bytes := by
  unfold toString? String.fromUTF8? at h
  split at h
  · obtain rfl := Option.some.inj h
    rfl
  · exact nomatch h

/-- Spellings of a list: its length, and then spellings of its items. -/
def listSpellings (item : α → Language UInt8) (xs : List α) : Language UInt8 :=
  {long xs.length} * (xs.map item).prod

/-- Spellings of an option: a byte that tells whether there is a value, and a spelling of it. -/
def optionSpellings (value : α → Language UInt8) : Option α → Language UInt8
  | none => {[0]}
  | some a => {[1]} * value a

theorem mem_singleton_self (xs : List UInt8) : xs ∈ ({xs} : Language UInt8) :=
  Set.mem_singleton xs

theorem singleton_mul_singleton (xs ys : List UInt8) :
    ({xs} * {ys} : Language UInt8) = {xs ++ ys} :=
  Set.image2_singleton

/-- Items with one spelling each make a list with one spelling. -/
theorem listSpellings_singleton (write : α → List UInt8) (xs : List α) :
    listSpellings (fun a => {write a}) xs = {list write xs} := by
  have hprod : (xs.map fun a => ({write a} : Language UInt8)).prod = {xs.flatMap write} := by
    induction xs with
    | nil => rfl
    | cons x rest ih =>
      rw [List.map_cons, List.prod_cons, ih, singleton_mul_singleton, List.flatMap_cons]
  rw [listSpellings, hprod, singleton_mul_singleton, list]

theorem optionSpellings_singleton (write : α → List UInt8) (o : Option α) :
    optionSpellings (fun a => {write a}) o = {option write o} := by
  cases o with
  | none => rfl
  | some a => exact singleton_mul_singleton [1] (write a)

namespace Reader

/-- A reader goes from some bytes to others with a value. -/
def Yields (r : Reader α) (xs : List UInt8) (a : α) (rest : List UInt8) : Prop :=
  r xs = some (a, rest)

variable {r : Reader α} {f : α → Reader β} {xs rest : List UInt8} {a : α} {b : β}

theorem yields_bind_iff :
    Yields (r >>= f) xs b rest ↔ ∃ a mid, Yields r xs a mid ∧ Yields (f a) mid b rest := by
  change (r xs).bind (fun p => f p.1 p.2) = some (b, rest) ↔ _
  rw [Option.bind_eq_some_iff, Prod.exists]
  rfl

theorem yields_pure_iff {a' : α} :
    Yields (pure a : Reader α) xs a' rest ↔ a' = a ∧ rest = xs := by
  change some (a, xs) = some (a', rest) ↔ _
  rw [Option.some.injEq, Prod.mk.injEq, eq_comm, @eq_comm _ xs]

/-- A value that is changed afterwards does not change what is taken. -/
theorem yields_map_iff {g : α → β} :
    Yields (r >>= fun a => pure (g a)) xs b rest ↔ ∃ a, Yields r xs a rest ∧ b = g a := by
  simp only [yields_bind_iff, yields_pure_iff]
  constructor
  · rintro ⟨a, _, h, rfl, rfl⟩
    exact ⟨a, h, rfl⟩
  · rintro ⟨a, h, rfl⟩
    exact ⟨a, rest, h, rfl, rfl⟩

theorem yields_get_bind_iff {f : List UInt8 → Reader β} :
    Yields (get >>= f) xs b rest ↔ Yields (f xs) xs b rest :=
  Iff.rfl

theorem not_yields_failure : ¬ Yields (failure : Reader α) xs a rest :=
  nofun

/-- **Everything that a reader takes** for a value belongs to the language of the value. -/
def Accepts (r : Reader α) (spellings : α → Language UInt8) : Prop :=
  ∀ xs a rest, r.Yields xs a rest → ∃ front ∈ spellings a, xs = front ++ rest

/-! ## Numbers -/

theorem yields_take {n : Nat} {front : List UInt8} (h : Yields (take n) xs front rest) :
    xs = front ++ rest ∧ front.length = n := by
  unfold Yields take at h
  split at h
  · exact nomatch h
  · next hlength =>
    obtain ⟨rfl, rfl⟩ := Prod.mk.inj (Option.some.inj h)
    refine ⟨(List.take_append_drop n xs).symm, ?_⟩
    rw [List.length_take]
    omega

theorem yields_word {n : Nat} (h : Yields word xs n rest) :
    xs = Bytes.word n ++ rest ∧ n < 2 ^ 32 := by
  obtain ⟨front, htake, rfl⟩ := yields_map_iff.1 h
  obtain ⟨rfl, hlength⟩ := yields_take htake
  refine ⟨?_, Nat.lt_of_lt_of_eq (ofLittle_lt front) (by rw [hlength]; rfl)⟩
  rw [Bytes.word, ← hlength, little_ofLittle]

theorem yields_long {n : Nat} (h : Yields long xs n rest) :
    xs = Bytes.long n ++ rest ∧ n < 2 ^ 64 := by
  obtain ⟨front, htake, rfl⟩ := yields_map_iff.1 h
  obtain ⟨rfl, hlength⟩ := yields_take htake
  refine ⟨?_, Nat.lt_of_lt_of_eq (ofLittle_lt front) (by rw [hlength]; rfl)⟩
  rw [Bytes.long, ← hlength, little_ofLittle]

theorem accepts_bool : Accepts bool fun b => {[if b then 1 else 0]} := by
  intro xs b rest h
  obtain ⟨front, mid, htake, hend⟩ := yields_bind_iff.1 h
  obtain ⟨rfl, -⟩ := yields_take htake
  split at hend
  · obtain ⟨rfl, rfl⟩ := yields_pure_iff.1 hend
    exact ⟨_, rfl, rfl⟩
  · obtain ⟨rfl, rfl⟩ := yields_pure_iff.1 hend
    exact ⟨_, rfl, rfl⟩
  · exact absurd hend not_yields_failure

/-! ## Composed values -/

theorem accepts_string : Accepts string fun s => {Bytes.string s} := by
  intro xs s rest h
  obtain ⟨n, mid, hlong, h⟩ := yields_bind_iff.1 h
  obtain ⟨bytes, mid', htake, hend⟩ := yields_bind_iff.1 h
  obtain ⟨rfl, -⟩ := yields_long hlong
  obtain ⟨rfl, rfl⟩ := yields_take htake
  split at hend
  · next s' hs =>
    obtain ⟨rfl, rfl⟩ := yields_pure_iff.1 hend
    refine ⟨_, rfl, ?_⟩
    rw [Bytes.string, ofString_of_toString? hs, List.append_assoc]
  · exact absurd hend not_yields_failure

variable {spellings : α → Language UInt8}

theorem accepts_times (hitem : r.Accepts spellings) {n : Nat} {as : List α}
    (h : Yields (times r n) xs as rest) :
    as.length = n ∧ ∃ front ∈ (as.map spellings).prod, xs = front ++ rest := by
  induction n generalizing xs as with
  | zero =>
    obtain ⟨rfl, rfl⟩ := yields_pure_iff.1 h
    exact ⟨rfl, [], rfl, rfl⟩
  | succ n ih =>
    obtain ⟨a, mid, hfirst, h⟩ := yields_bind_iff.1 h
    obtain ⟨as', hrest, rfl⟩ := yields_map_iff.1 h
    obtain ⟨x, hx, rfl⟩ := hitem _ _ _ hfirst
    obtain ⟨hlength, y, hy, rfl⟩ := ih hrest
    refine ⟨congrArg (· + 1) hlength, x ++ y, ?_, (List.append_assoc ..).symm⟩
    rw [List.map_cons, List.prod_cons]
    exact Language.append_mem_mul hx hy

theorem accepts_list (hitem : r.Accepts spellings) :
    (Reader.list r).Accepts (listSpellings spellings) := by
  intro xs as rest h
  obtain ⟨n, mid, hlong, hitems⟩ := yields_bind_iff.1 h
  obtain ⟨rfl, -⟩ := yields_long hlong
  rw [yields_get_bind_iff] at hitems
  split at hitems
  · next hitems => exact absurd hitems not_yields_failure
  · next hitems =>
    obtain ⟨rfl, y, hy, rfl⟩ := accepts_times hitem hitems
    refine ⟨Bytes.long as.length ++ y, ?_, (List.append_assoc ..).symm⟩
    exact Language.append_mem_mul (mem_singleton_self _) hy

theorem accepts_option (hvalue : r.Accepts spellings) :
    (Reader.option r).Accepts (optionSpellings spellings) := by
  intro xs o rest h
  obtain ⟨b, mid, hbool, h⟩ := yields_bind_iff.1 h
  obtain ⟨_, rfl, rfl⟩ := accepts_bool _ _ _ hbool
  split at h
  · next hb =>
    subst hb
    obtain ⟨a, ha, rfl⟩ := yields_map_iff.1 h
    obtain ⟨y, hy, rfl⟩ := hvalue _ _ _ ha
    exact ⟨_, Language.append_mem_mul (mem_singleton_self _) hy, rfl⟩
  · next hb =>
    obtain ⟨rfl, rfl⟩ := yields_pure_iff.1 h
    exact ⟨[0], rfl, by rw [if_neg hb]⟩

end Reader

end Warrant.Bytes
