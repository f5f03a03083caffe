import Mathlib.Tactic.SplitIfs
import Warrant.Json.Printer
import Warrant.Json.Reader

/-!
# JSON texts are read as they were written

The text of a value without numbers is read as the value, and what stands after it is left. Strings
may hold any characters: those that could end or break a string are escaped, and none is half of a
surrogate pair.

## Main definitions

- `Json.isPlain` — a value has no numbers, and all of it makes sense

## Main statements

- `Json.codePoints?_writeString` — strings of any characters are read as they were written
- `Json.read?_write` — so are values without numbers
-/

namespace Warrant.Json

/-! ## Strings -/

/-- Four digits write a control character, so that the reader gets its code point back. -/
theorem readHex?_control {n : Nat} (h : n < 0x20) : ∃ a b c d : Char,
    Text.padded 4 (Text.hexadecimal n) = [a, b, c, d] ∧ Text.readHex? [a, b, c, d] = some n := by
  have hall : ∀ n < 0x20, (Text.padded 4 (Text.hexadecimal n)).length = 4 ∧
      Text.readHex? (Text.padded 4 (Text.hexadecimal n)) = some n := by
    decide +kernel
  obtain ⟨hlength, hread⟩ := hall n h
  match hdigits : Text.padded 4 (Text.hexadecimal n), hlength with
  | [a, b, c, d], _ =>
    rw [hdigits] at hread
    exact ⟨a, b, c, d, rfl, hread⟩

/-- The reader takes up an escaped character as a whole. -/
theorem codePoints?_escape (c : Char) (rest : List Char) :
    codePoints? (escape c ++ rest) =
      codePoints? rest >>= fun read => some (c.toNat :: read.1, read.2) := by
  unfold escape
  split_ifs with hquote hbackslash hnewline hreturn htab hbackspace hfeed hcontrol
  · subst hquote
    rfl
  · subst hbackslash
    rfl
  · subst hnewline
    rfl
  · subst hreturn
    rfl
  · subst htab
    rfl
  · obtain rfl : c = '\x08' := Char.toNat_inj.mp hbackspace
    rfl
  · obtain rfl : c = '\x0c' := Char.toNat_inj.mp hfeed
    rfl
  · obtain ⟨w, x, y, z, hdigits, hread⟩ := readHex?_control hcontrol
    rw [hdigits]
    change (Text.readHex? [w, x, y, z] >>= fun n => codePoints? rest >>= fun read =>
      some (n :: read.1, read.2)) = _
    rw [hread]
    rfl
  · -- Any other character stands for itself: it neither closes the string nor starts an escape.
    rw [List.singleton_append, codePoints?, if_neg hcontrol]
    · rfl
    · exact hquote
    · exact fun _ _ _ _ _ h _ => hbackslash h
    · exact fun _ _ h _ => hbackslash h

/-- **Strings of any characters are read as they were written.** -/
theorem codePoints?_writeString (cs rest : List Char) :
    codePoints? (cs.flatMap escape ++ '"' :: rest) = some (cs.map Char.toNat, rest) := by
  induction cs with
  | nil => rfl
  | cons c cs ih =>
    rw [List.flatMap_cons, List.append_assoc, codePoints?_escape, ih]
    rfl

/-- No character is half of a surrogate pair. -/
theorem joinPairs?_map_toNat (cs : List Char) : joinPairs? (cs.map Char.toNat) = some cs := by
  induction cs with
  | nil => rw [List.map_nil, joinPairs?]
  | cons c cs ih =>
    -- Surrogates are no characters, so neither of the two tests finds one.
    have hvalid : c.toNat < 0xd800 ∨ 0xdfff < c.toNat ∧ c.toNat < 0x110000 := c.valid
    have hhigh : ¬ (0xd800 ≤ c.toNat ∧ c.toNat < 0xdc00) := by omega
    have hlow : ¬ (0xdc00 ≤ c.toNat ∧ c.toNat < 0xe000) := by omega
    rw [List.map_cons]
    unfold joinPairs?
    simp [hhigh, hlow, ih]

/-! ## Plain values and their texts -/

mutual

/-- Whether a value has no numbers, and all of it makes sense. -/
def isPlain : Json → Bool
  | .int _ | .float _ | .senseless => false
  | .array items => arePlain items
  | .object members => havePlain members
  | .null | .bool _ | .string _ => true

/-- Whether all items are plain. -/
def arePlain : List Json → Bool
  | [] => true
  | j :: rest => isPlain j && arePlain rest

/-- Whether all members are plain. -/
def havePlain : List (String × Json) → Bool
  | [] => true
  | (_, j) :: rest => isPlain j && havePlain rest

end

section Writer

variable (name : String) (j : Json) (items : List Json) (m : String × Json)
  (members : List (String × Json))

theorem writeChars_array : (array items).writeChars = '[' :: (writeItems items ++ [']']) := rfl

theorem writeChars_object :
    (object members).writeChars = '\x7b' :: (writeMembers members ++ ['\x7d']) := rfl

theorem writeItems_singleton : writeItems [j] = j.writeChars := rfl

theorem writeItems_cons (k : Json) :
    writeItems (j :: k :: items) = j.writeChars ++ ',' :: writeItems (k :: items) := rfl

theorem writeMembers_singleton :
    writeMembers [(name, j)] = writeString name ++ ':' :: j.writeChars := rfl

theorem writeMembers_cons : writeMembers ((name, j) :: m :: members) =
    writeString name ++ ':' :: (j.writeChars ++ ',' :: writeMembers (m :: members)) := rfl

end Writer

/-- The text of a value starts with a character that opens it. -/
theorem writeChars_front {j : Json} (h : j.isPlain) :
    ∃ c cs, j.writeChars = c :: cs ∧ isBlank c = false ∧ c ≠ ']' := by
  cases j with
  | null => exact ⟨'n', _, rfl, rfl, by decide⟩
  | bool b =>
    cases b
    · exact ⟨'f', _, rfl, rfl, by decide⟩
    · exact ⟨'t', _, rfl, rfl, by decide⟩
  | string s => exact ⟨'"', _, rfl, rfl, by decide⟩
  | array items => exact ⟨'[', _, rfl, rfl, by decide⟩
  | object members => exact ⟨'\x7b', _, rfl, rfl, by decide⟩
  | int i => cases h
  | float x => cases h
  | senseless => cases h

theorem writeItems_front {j : Json} {items : List Json} (h : arePlain (j :: items)) :
    ∃ c cs, writeItems (j :: items) = c :: cs ∧ isBlank c = false ∧ c ≠ ']' := by
  obtain ⟨c, cs, hj, hc⟩ := writeChars_front (Bool.and_eq_true_iff.mp h).1
  cases items with
  | nil => exact ⟨c, cs, hj, hc⟩
  | cons k items =>
    refine ⟨c, cs ++ ',' :: writeItems (k :: items), ?_, hc⟩
    rw [writeItems_cons, hj, List.cons_append]

theorem writeMembers_front (m : String × Json) (members : List (String × Json)) :
    ∃ cs, writeMembers (m :: members) = '"' :: cs := by
  cases members with
  | nil => exact ⟨_, rfl⟩
  | cons k members => exact ⟨_, rfl⟩

/-! ## Reading by parts -/

theorem skipBlanks_cons {c : Char} (h : isBlank c = false) (cs : List Char) :
    skipBlanks (c :: cs) = c :: cs := by
  rw [skipBlanks, List.dropWhile_cons, h]
  rfl

section Reader

variable {bound : Nat} {j : Json} {cs more rest : List Char}

/-- A string is read up to its quote. -/
theorem value?_string (s : String) :
    value? (bound + 1) (writeString s ++ rest) = some (.string s, rest) := by
  rw [writeString, List.cons_append, List.append_assoc, List.singleton_append, value?,
    skipBlanks_cons (by decide)]
  simp [codePoints?_writeString, joinPairs?_map_toNat]

theorem items?_last (h : value? bound cs = some (j, ']' :: rest)) :
    items? (bound + 1) cs = some ([j], rest) := by
  rw [items?, h]
  rfl

theorem items?_more (h : value? bound cs = some (j, ',' :: more)) :
    items? (bound + 1) cs = items? bound more >>= fun read => some (j :: read.1, read.2) := by
  rw [items?, h]
  rfl

/-- An array with items is read up to its bracket. -/
theorem value?_array {items : List Json} {c : Char} (hblank : isBlank c = false) (hc : c ≠ ']')
    (h : items? bound (c :: cs) = some (items, rest)) :
    value? (bound + 1) ('[' :: c :: cs) = some (.array items, rest) := by
  rw [value?, skipBlanks_cons (by decide)]
  simp only [skipBlanks_cons hblank]
  split
  · next hend => exact absurd (List.cons.inj hend).1 hc
  · rw [h]
    rfl

/-- A member is a name, a colon and a value. -/
theorem members?_named (name : String) :
    members? (bound + 1) (writeString name ++ ':' :: cs) =
      value? bound cs >>= fun read => match skipBlanks read.2 with
        | ',' :: more =>
          members? bound more >>= fun others =>
            some ((some name.toList, read.1) :: others.1, others.2)
        | '\x7d' :: rest => some ([(some name.toList, read.1)], rest)
        | _ => none := by
  rw [writeString, List.cons_append, List.append_assoc, List.singleton_append, members?,
    skipBlanks_cons (by decide)]
  have hcolon : after? [':'] (skipBlanks (':' :: cs)) = some cs := rfl
  simp only [codePoints?_writeString, joinPairs?_map_toNat, hcolon, Option.bind_eq_bind,
    Option.bind_some]
  rfl

theorem members?_last (name : String) (h : value? bound cs = some (j, '\x7d' :: rest)) :
    members? (bound + 1) (writeString name ++ ':' :: cs) =
      some ([(some name.toList, j)], rest) := by
  rw [members?_named, h]
  rfl

theorem members?_more (name : String) (h : value? bound cs = some (j, ',' :: more)) :
    members? (bound + 1) (writeString name ++ ':' :: cs) =
      members? bound more >>= fun read => some ((some name.toList, j) :: read.1, read.2) := by
  rw [members?_named, h]
  rfl

/-- An object with members is read up to its brace. -/
theorem value?_object {members : List (Option (List Char) × Json)}
    (h : members? bound ('"' :: cs) = some (members, rest)) :
    value? (bound + 1) ('\x7b' :: '"' :: cs) = some (ofRead members, rest) := by
  rw [value?, skipBlanks_cons (by decide)]
  change (members? bound ('"' :: cs) >>= fun read => some (ofRead read.1, read.2)) = _
  rw [h]
  rfl

end Reader

/-- Decoding each item undoes encoding each. -/
theorem mapM_map_eq_some {α β : Type} {encode : α → β} {decode : β → Option α}
    (h : ∀ a, decode (encode a) = some a) (as : List α) :
    (as.map encode).mapM decode = some as := by
  have hid : decode ∘ encode = fun a => pure (id a) := funext h
  rw [List.mapM_map, hid, List.mapM_pure, List.map_id]
  rfl

/-- Names that make sense name the members of an object. -/
theorem ofRead_map (members : List (String × Json)) :
    ofRead (members.map fun m => (some m.1.toList, m.2)) = .object members := by
  have hnames : (members.map fun m => (some m.1.toList, m.2)).mapM
      (fun m => m.1.map fun name => (String.ofList name, m.2)) = some members := by
    refine mapM_map_eq_some (fun m => ?_) members
    rw [Option.map_some, String.ofList_toList]
  rw [ofRead, hnames]

/-! ## Reading values -/

-- Every call lowers the bound by one, and for each there is a character in the text: the opening
-- bracket for a value, the comma for an item that comes after another, and the closing bracket for
-- the first item. So the length of the text is bound enough, and one more where items are read.
mutual

/-- A value is read up to what follows its text. -/
theorem value?_writeChars : ∀ {j : Json} {bound : Nat}, j.isPlain → j.writeChars.length < bound →
    ∀ rest, value? bound (j.writeChars ++ rest) = some (j, rest)
  | j, 0, _, hbound, _ => absurd hbound (Nat.not_lt_zero _)
  | .null, _ + 1, _, _, _ => rfl
  | .bool true, _ + 1, _, _, _ => rfl
  | .bool false, _ + 1, _, _, _ => rfl
  | .string s, _ + 1, _, _, _ => value?_string s
  | .array [], _ + 1, _, _, _ => rfl
  | .array (j :: items), bound + 1, hplain, hbound, rest => by
    rw [writeChars_array, List.length_cons, List.length_append, List.length_singleton] at hbound
    have hread : items? bound (writeItems (j :: items) ++ ']' :: rest) = some (j :: items, rest) :=
      items?_writeItems hplain (by omega) rest
    obtain ⟨c, cs, hfront, hblank, hc⟩ := writeItems_front hplain
    rw [writeChars_array, List.cons_append, List.append_assoc, List.singleton_append]
    rw [hfront, List.cons_append] at hread ⊢
    exact value?_array hblank hc hread
  | .object [], _ + 1, _, _, _ => rfl
  | .object (m :: members), bound + 1, hplain, hbound, rest => by
    rw [writeChars_object, List.length_cons, List.length_append, List.length_singleton] at hbound
    have hread : members? bound (writeMembers (m :: members) ++ '\x7d' :: rest) =
        some ((m :: members).map fun m => (some m.1.toList, m.2), rest) :=
      members?_writeMembers hplain (by omega) rest
    obtain ⟨cs, hfront⟩ := writeMembers_front m members
    rw [writeChars_object, List.cons_append, List.append_assoc, List.singleton_append]
    rw [hfront, List.cons_append] at hread ⊢
    rw [value?_object hread, ofRead_map]

/-- Items are read up to the bracket. -/
theorem items?_writeItems : ∀ {j : Json} {items : List Json} {bound : Nat},
    arePlain (j :: items) → (writeItems (j :: items)).length + 1 < bound →
    ∀ rest, items? bound (writeItems (j :: items) ++ ']' :: rest) = some (j :: items, rest)
  | j, items, 0, _, hbound, _ => absurd hbound (Nat.not_lt_zero _)
  | j, [], bound + 1, hplain, hbound, rest => by
    have hj := (Bool.and_eq_true_iff.mp hplain).1
    rw [writeItems_singleton] at hbound ⊢
    exact items?_last (value?_writeChars hj (by omega) (']' :: rest))
  | j, k :: items, bound + 1, hplain, hbound, rest => by
    obtain ⟨hj, hitems⟩ := Bool.and_eq_true_iff.mp hplain
    rw [writeItems_cons, List.length_append, List.length_cons] at hbound
    rw [writeItems_cons, List.append_assoc, List.cons_append,
      items?_more (value?_writeChars hj (by omega) _), items?_writeItems hitems (by omega) rest]
    rfl

/-- Members are read up to the brace. -/
theorem members?_writeMembers : ∀ {m : String × Json} {members : List (String × Json)}
    {bound : Nat}, havePlain (m :: members) → (writeMembers (m :: members)).length + 1 < bound →
    ∀ rest, members? bound (writeMembers (m :: members) ++ '\x7d' :: rest) =
      some ((m :: members).map fun m => (some m.1.toList, m.2), rest)
  | (name, j), _, 0, _, hbound, _ => absurd hbound (Nat.not_lt_zero _)
  | (name, j), [], bound + 1, hplain, hbound, rest => by
    have hj := (Bool.and_eq_true_iff.mp hplain).1
    rw [writeMembers_singleton, List.length_append, List.length_cons] at hbound
    rw [writeMembers_singleton, List.append_assoc, List.cons_append]
    exact members?_last name (value?_writeChars hj (by omega) ('\x7d' :: rest))
  | (name, j), m :: members, bound + 1, hplain, hbound, rest => by
    obtain ⟨hj, hmembers⟩ := Bool.and_eq_true_iff.mp hplain
    rw [writeMembers_cons, List.length_append, List.length_cons, List.length_append,
      List.length_cons] at hbound
    rw [writeMembers_cons, List.append_assoc, List.cons_append, List.append_assoc,
      List.cons_append, members?_more name (value?_writeChars hj (by omega) _),
      members?_writeMembers hmembers (by omega) rest]
    rfl

end

/-- **The text of a plain value is read as the value.** -/
theorem read?_write {j : Json} (h : j.isPlain) : read? j.write = some j := by
  have hread : value? (2 * j.writeChars.length + 2) (j.writeChars ++ []) = some (j, []) :=
    value?_writeChars h (by omega) []
  rw [List.append_nil] at hread
  rw [read?, write, String.toList_ofList, hread]
  rfl

end Warrant.Json
