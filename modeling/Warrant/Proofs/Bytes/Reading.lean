import Warrant.Bytes.Little
import Warrant.Proofs.Bytes.Utf8

/-!
# What readers use up

A reader that finds what was written at the front uses it up and leaves the rest. Readers in turn
use up texts in turn, so that a reader of a composed value is followed step by step along the bytes
of its parts.

## Main definitions

- `Consumes` — a reader uses up the front and makes a value of it

## Main statements

- `Consumes.bind` — one reader after another
- `Bytes.consumes_word`, `Bytes.consumes_long`, `Bytes.consumes_string`, `Bytes.consumes_list`,
  `Bytes.consumes_option` — the parts of binary texts
-/

namespace Warrant

/-- **A reader uses up the front of a text** before the rest of it, and makes a value of it. -/
def Consumes {σ α : Type} (r : StateT (List σ) Option α) (front : List σ) (a : α)
    (rest : List σ) : Prop :=
  r (front ++ rest) = some (a, rest)

namespace Consumes

variable {σ α β : Type} {r : StateT (List σ) Option α} {f : α → StateT (List σ) Option β}
  {xs ys rest : List σ} {a : α} {b : β}

theorem pure (a : α) (rest : List σ) :
    Consumes (Pure.pure a : StateT (List σ) Option α) [] a rest :=
  rfl

theorem bind (h : Consumes r xs a (ys ++ rest)) (h' : Consumes (f a) ys b rest) :
    Consumes (r >>= f) (xs ++ ys) b rest := by
  have hr : r (xs ++ ys ++ rest) = some (a, ys ++ rest) := by
    rw [List.append_assoc]
    exact h
  change (r (xs ++ ys ++ rest)).bind (fun p => f p.1 p.2) = some (b, rest)
  rw [hr]
  exact h'

theorem bind_cons {x : σ} (h : Consumes r [x] a (ys ++ rest)) (h' : Consumes (f a) ys b rest) :
    Consumes (r >>= f) (x :: ys) b rest :=
  bind h h'

/-- A reader that uses up nothing before one that does. -/
theorem skip (h : Consumes r [] a (ys ++ rest)) (h' : Consumes (f a) ys b rest) :
    Consumes (r >>= f) ys b rest :=
  bind h h'

/-- A reader that uses up nothing after one that does. -/
theorem last (h : Consumes r xs a rest) (h' : Consumes (f a) [] b rest) :
    Consumes (r >>= f) xs b rest := by
  have hbind : Consumes (r >>= f) (xs ++ []) b rest := bind h h'
  rwa [List.append_nil] at hbind

theorem map {g : α → β} (h : Consumes r xs a rest) :
    Consumes (r >>= fun a => Pure.pure (g a)) xs (g a) rest :=
  last h (pure (g a) rest)

theorem get_bind {f : List σ → StateT (List σ) Option β} (h : Consumes (f (xs ++ rest)) xs b rest) :
    Consumes (get >>= f) xs b rest :=
  h

end Consumes

namespace Bytes

open Reader

variable {α : Type} {rest : List UInt8}

/-! ## Numbers -/

@[simp]
theorem length_little (width n : Nat) : (little width n).length = width := by
  induction width generalizing n with
  | zero => rfl
  | succ width ih => rw [little, List.length_cons, ih]

theorem ofLittle_little (width n : Nat) : ofLittle (little width n) = n % 256 ^ width := by
  induction width generalizing n with
  | zero => simp [little, ofLittle, Nat.mod_one]
  | succ width ih =>
    have hbyte : (UInt8.ofNat n).toNat = n % 256 := UInt8.toNat_ofNat'
    rw [little, ofLittle, ih, hbyte, Nat.pow_succ', Nat.mod_mul]

@[simp]
theorem length_word (n : Nat) : (word n).length = 4 :=
  length_little 4 n

@[simp]
theorem length_long (n : Nat) : (long n).length = 8 :=
  length_little 8 n

theorem consumes_take (xs rest : List UInt8) : Consumes (take xs.length) xs xs rest := by
  have hlength : ¬ (xs ++ rest).length < xs.length := by
    rw [List.length_append]
    omega
  unfold Consumes take
  rw [if_neg hlength, List.take_left, List.drop_left]

theorem ofLittle_word {n : Nat} (h : n < 2 ^ 32) : ofLittle (word n) = n := by
  rw [word, ofLittle_little, Nat.mod_eq_of_lt (by omega)]

theorem ofLittle_long {n : Nat} (h : n < 2 ^ 64) : ofLittle (long n) = n := by
  rw [long, ofLittle_little, Nat.mod_eq_of_lt (by omega)]

theorem consumes_word {n : Nat} (h : n < 2 ^ 32) (rest : List UInt8) :
    Consumes Reader.word (word n) n rest := by
  have htake : Consumes (take 4) (word n) (word n) rest := by
    simpa using consumes_take (word n) rest
  have hread := htake.map (g := ofLittle)
  rwa [ofLittle_word h] at hread

theorem consumes_long {n : Nat} (h : n < 2 ^ 64) (rest : List UInt8) :
    Consumes Reader.long (long n) n rest := by
  have htake : Consumes (take 8) (long n) (long n) rest := by
    simpa using consumes_take (long n) rest
  have hread := htake.map (g := ofLittle)
  rwa [ofLittle_long h] at hread

theorem consumes_bool (b : Bool) (rest : List UInt8) :
    Consumes Reader.bool [if b then 1 else 0] b rest := by
  cases b <;> rfl

/-! ## Composed values -/

theorem length_string (s : String) : (string s).length = 8 + (ofString s).length := by
  rw [string, List.length_append, length_long]

theorem consumes_string {s : String} (h : (string s).length < 2 ^ 64) (rest : List UInt8) :
    Consumes Reader.string (string s) s rest := by
  rw [length_string] at h
  refine .bind (consumes_long (by omega) _) ?_
  refine .last (consumes_take (ofString s) rest) ?_
  rw [toString?_ofString]
  exact .pure s rest

theorem consumes_times {item : Reader α} {write : α → List UInt8} {xs : List α}
    (h : ∀ x ∈ xs, ∀ rest, Consumes item (write x) x rest) (rest : List UInt8) :
    Consumes (times item xs.length) (xs.flatMap write) xs rest := by
  induction xs with
  | nil => exact .pure [] rest
  | cons x xs ih =>
    have hxs := ih fun y hy => h y (List.mem_cons_of_mem x hy)
    exact .bind (h x List.mem_cons_self _) hxs.map

theorem length_le_length_flatMap {write : α → List UInt8} {xs : List α}
    (hpos : ∀ x ∈ xs, write x ≠ []) : xs.length ≤ (xs.flatMap write).length := by
  induction xs with
  | nil => exact Nat.zero_le _
  | cons x xs ih =>
    have hx := List.length_pos_iff.2 (hpos x List.mem_cons_self)
    have hxs := ih fun y hy => hpos y (List.mem_cons_of_mem x hy)
    rw [List.length_cons, List.flatMap_cons, List.length_append]
    omega

theorem length_le_of_mem {write : α → List UInt8} {x : α} {xs : List α} (hx : x ∈ xs) :
    (write x).length ≤ (xs.flatMap write).length := by
  induction xs with
  | nil => exact nomatch hx
  | cons y xs ih =>
    rw [List.flatMap_cons, List.length_append]
    rcases List.mem_cons.1 hx with rfl | hx
    · exact Nat.le_add_right _ _
    · exact Nat.le_trans (ih hx) (Nat.le_add_left _ _)

/-- A list is read when its items are, and each of them takes a byte at least. -/
theorem consumes_list {item : Reader α} {write : α → List UInt8} {xs : List α}
    (hlength : (list write xs).length < 2 ^ 64) (hpos : ∀ x ∈ xs, write x ≠ [])
    (h : ∀ x ∈ xs, (write x).length < 2 ^ 64 → ∀ rest, Consumes item (write x) x rest)
    (rest : List UInt8) : Consumes (Reader.list item) (list write xs) xs rest := by
  have hle := length_le_length_flatMap hpos
  rw [list, List.length_append, length_long] at hlength
  have hitems : ∀ x ∈ xs, ∀ rest, Consumes item (write x) x rest := by
    intro x hx
    have hmem := @length_le_of_mem α write x xs hx
    exact h x hx (by omega)
  refine .bind (consumes_long (by omega) _) (.get_bind ?_)
  rw [if_neg (by rw [List.length_append]; omega)]
  exact consumes_times hitems rest

theorem consumes_option {value : Reader α} {write : α → List UInt8} {o : Option α}
    (h : ∀ x ∈ o, ∀ rest, Consumes value (write x) x rest) (rest : List UInt8) :
    Consumes (Reader.option value) (option write o) o rest := by
  cases o with
  | none => rfl
  | some x => exact .bind (consumes_bool true _) (h x rfl rest).map

end Bytes

end Warrant
