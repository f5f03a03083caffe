import Mathlib.Data.List.DropRight
import Warrant.Proofs.Token.Grammar

/-!
# Tokens tile their text

Nothing of a text is lost between its tokens. Each token stands in the text at its place, one token
comes after the other, and only blanks and comments lie between them, up to the end of the text or
up to a fault. Places are counted on the way, and yet they are what can be read off the text in
front of them.

## Main definitions

- `Trivia.IsGap`, `Trivia.IsTail` — blanks and comments between tokens and after them
- `Tiles` — gaps and tokens take turns in a text
- `Text.StandsAt`, `Position.LiesIn` — parts of a text and places in it
- `Tiling` — what tiles mean for the items of a whole text

## Main statements

- `Trivia.exists_skipped` — what is skipped are blanks and comments
- `Position.start_after` — places can be read off the text in front of them
- `Lexer.next_cases` — what a lexer can do next
- `Lexer.tiles_items` — a lexer hands out tiles
- `Feed.answer_eq` — a lexer that is asked for one item after the other hands out all of them
- `tokenize_tiles` — the tokens of a text tile it
-/

namespace Warrant

open Lexeme (startsName continuesName)

/-! ## Blanks and comments -/

namespace Trivia

/-- **What may stand between tokens**: blanks, and comments from two hyphens to the end of their
    line. -/
inductive IsGap : List Char → Prop
  | nil : IsGap []
  | blank {c : Char} {cs : List Char} (hc : Text.isBlank c = true) (h : IsGap cs) : IsGap (c :: cs)
  | comment {text cs : List Char} (htext : '\n' ∉ text) (h : IsGap cs) :
    IsGap ('-' :: '-' :: (text ++ '\n' :: cs))

/-- **What may stand after all tokens.** The end of the text ends a comment, too. -/
inductive IsTail : List Char → Prop
  | gap {cs : List Char} (h : IsGap cs) : IsTail cs
  | comment {cs text : List Char} (h : IsGap cs) (htext : '\n' ∉ text) :
    IsTail (cs ++ '-' :: '-' :: text)

theorem IsTail.blank {c : Char} {cs : List Char} (hc : Text.isBlank c = true) (h : IsTail cs) :
    IsTail (c :: cs) := by
  cases h with
  | gap h => exact .gap (.blank hc h)
  | comment h htext => exact .comment (.blank hc h) htext

theorem IsTail.after_comment {text cs : List Char} (htext : '\n' ∉ text) (h : IsTail cs) :
    IsTail ('-' :: '-' :: (text ++ '\n' :: cs)) := by
  cases h with
  | gap h => exact .gap (.comment htext h)
  | @comment cs more h hmore =>
    have hcomment := IsTail.comment (.comment htext h) hmore
    rwa [List.cons_append, List.cons_append, List.append_assoc, List.cons_append] at hcomment

theorem isBlank_hyphen : Text.isBlank '-' = false := by decide

theorem length_blank_cons {c : Char} (hc : Text.isBlank c = true) (cs : List Char) :
    length (c :: cs) = length cs + 1 := by
  unfold length
  rw [lengthFrom.eq_4, if_pos hc, Nat.add_comm]
  rintro rest rfl -
  exact Bool.false_ne_true (isBlank_hyphen.symm.trans hc)

theorem lengthFrom_newline {text : List Char} (htext : '\n' ∉ text) (cs : List Char) :
    lengthFrom true (text ++ '\n' :: cs) = text.length + 1 + length cs := by
  induction text with
  | nil => exact congrArg (1 + ·) (if_pos rfl)
  | cons c text ih =>
    rw [List.mem_cons, not_or] at htext
    rw [List.cons_append, lengthFrom, if_neg (Ne.symm htext.1), ih htext.2, List.length_cons]
    omega

theorem lengthFrom_of_not_mem {text : List Char} (htext : '\n' ∉ text) :
    lengthFrom true text = text.length := by
  induction text with
  | nil => rfl
  | cons c text ih =>
    rw [List.mem_cons, not_or] at htext
    rw [lengthFrom, if_neg (Ne.symm htext.1), ih htext.2, List.length_cons, Nat.add_comm]

theorem length_comment (text : List Char) :
    length ('-' :: '-' :: text) = 2 + lengthFrom true text := rfl

/-- What may stand between tokens is skipped as a whole. -/
theorem IsGap.length_append {gap : List Char} (h : IsGap gap) (cs : List Char) :
    length (gap ++ cs) = gap.length + length cs := by
  induction h with
  | nil => rw [List.nil_append, List.length_nil, Nat.zero_add]
  | blank hc _ ih =>
    rw [List.cons_append, length_blank_cons hc, ih, List.length_cons]
    omega
  | comment htext _ ih =>
    rw [List.cons_append, List.cons_append, List.append_assoc, List.cons_append, length_comment,
      lengthFrom_newline htext, ih]
    simp only [List.length_cons, List.length_append]
    omega

/-- What may stand after all tokens is skipped as a whole. -/
theorem IsTail.length_eq {gap : List Char} (h : IsTail gap) : length gap = gap.length := by
  cases h with
  | gap h =>
    have hlength := h.length_append []
    rwa [List.append_nil] at hlength
  | comment h htext =>
    rw [h.length_append, length_comment, lengthFrom_of_not_mem htext]
    simp only [List.length_cons, List.length_append]
    omega

/-- Every text starts with blanks and comments, perhaps none, after which no more follow. -/
theorem exists_isTail (cs : List Char) : ∃ gap rest, cs = gap ++ rest ∧ IsTail gap ∧
    (rest ≠ [] → IsGap gap ∧ length rest = 0) := by
  induction hn : cs.length using Nat.strong_induction_on generalizing cs with
  | _ n ih =>
    subst hn
    match cs with
    | [] => exact ⟨[], [], rfl, .gap .nil, fun hne => absurd rfl hne⟩
    | c :: cs =>
      by_cases hcomment : c = '-' ∧ cs.head? = some '-'
      · obtain ⟨rfl, hhead⟩ := hcomment
        obtain ⟨text, rfl⟩ := List.head?_eq_some_iff.1 hhead
        by_cases hmem : '\n' ∈ text
        · obtain ⟨comment, more, rfl, hcomment⟩ := List.eq_append_cons_of_mem hmem
          obtain ⟨gap, rest, rfl, htail, hgap⟩ := ih more.length (by simp; omega) more rfl
          refine ⟨'-' :: '-' :: (comment ++ '\n' :: gap), rest, by simp,
            htail.after_comment hcomment, fun hne => ⟨.comment hcomment (hgap hne).1, (hgap hne).2⟩⟩
        · exact ⟨_, [], (List.append_nil _).symm, .comment .nil hmem, fun hne => absurd rfl hne⟩
      · by_cases hblank : Text.isBlank c = true
        · obtain ⟨gap, rest, rfl, htail, hgap⟩ := ih cs.length (Nat.lt_succ_self _) cs rfl
          exact ⟨c :: gap, rest, rfl, htail.blank hblank,
            fun hne => ⟨.blank hblank (hgap hne).1, (hgap hne).2⟩⟩
        · refine ⟨[], c :: cs, rfl, .gap .nil, fun _ => ⟨.nil, ?_⟩⟩
          exact length_of_visible (Bool.eq_false_iff.2 hblank) fun hc hhead =>
            hcomment ⟨hc, hhead⟩

/-- **What is skipped are blanks and comments**, and the last comment ends with its line unless it
    ends with the text. -/
theorem exists_skipped (cs : List Char) : ∃ gap rest, cs = gap ++ rest ∧
    length cs = gap.length ∧ IsTail gap ∧ (rest ≠ [] → IsGap gap) := by
  obtain ⟨gap, rest, rfl, htail, hgap⟩ := exists_isTail cs
  refine ⟨gap, rest, rfl, ?_, htail, fun hne => (hgap hne).1⟩
  by_cases hne : rest = []
  · rw [hne, List.append_nil, htail.length_eq]
  · rw [(hgap hne).1.length_append, (hgap hne).2, Nat.add_zero]

end Trivia

/-! ## Places -/

/-- The characters after the last newline. -/
def Text.lastLine (cs : List Char) : List Char :=
  cs.rtakeWhile (· ≠ '\n')

theorem Text.lastLine_append_singleton (cs : List Char) (c : Char) :
    lastLine (cs ++ [c]) = if c = '\n' then [] else lastLine cs ++ [c] := by
  rw [lastLine, List.rtakeWhile_concat]
  by_cases hc : c = '\n' <;> simp [hc, lastLine]

theorem Text.utf8ByteSize_append_singleton (cs : List Char) (c : Char) :
    (String.ofList (cs ++ [c])).utf8ByteSize = (String.ofList cs).utf8ByteSize + c.utf8Size := by
  rw [String.ofList_append, String.utf8ByteSize_append]
  simp

/-- No text has more characters than bytes. -/
theorem Text.length_le_utf8ByteSize (cs : List Char) :
    cs.length ≤ (String.ofList cs).utf8ByteSize := by
  induction cs using List.reverseRecOn with
  | nil => exact Nat.zero_le _
  | append_singleton cs c ih =>
    rw [utf8ByteSize_append_singleton, List.length_append]
    exact Nat.add_le_add ih c.utf8Size_pos

/-- **A place can be read off the text in front of it**: the offset is its length in bytes, and the
    line and the column count its newlines and the characters since the last of them. -/
theorem Position.start_after (cs : List Char) : start.after cs =
    ⟨(String.ofList cs).utf8ByteSize, 1 + cs.count '\n', 1 + (Text.lastLine cs).length⟩ := by
  induction cs using List.reverseRecOn with
  | nil => rfl
  | append_singleton cs c ih =>
    rw [after_append, ih, Text.utf8ByteSize_append_singleton, Text.lastLine_append_singleton,
      List.count_append]
    change step _ c = _
    unfold step
    by_cases hc : c = '\n'
    · subst hc
      simp [Nat.add_comm]
    · simp [hc, Nat.add_assoc]

/-! ## Tiles -/

/-- **Gaps and tokens take turns** in a text after some characters, up to the end or to a fault. -/
inductive Tiles : List Char → List Char → List Token.Item → Prop
  | finish {before gap : List Char} (hgap : Trivia.IsTail gap) :
    Tiles before gap [.ok ⟨.finish, "", Position.start.after (before ++ gap)⟩]
  | token {before gap text rest : List Char} {kind : Token.Kind} {items : List Token.Item}
    (hgap : Trivia.IsGap gap) (htext : Lexeme.IsToken text kind)
    (h : Tiles (before ++ gap ++ text) rest items) :
    Tiles before (gap ++ (text ++ rest))
      (.ok ⟨kind, String.ofList text, Position.start.after (before ++ gap)⟩ :: items)
  | fault {before gap used rest : List Char} (fault : LexFault) (hgap : Trivia.IsGap gap) :
    Tiles before (gap ++ (used ++ rest))
      [.error ⟨Position.start.after (before ++ gap ++ used), fault⟩]

namespace Lexer

/-- A lexer skips a gap and scans what follows it. -/
theorem next_append {before gap rest : List Char}
    (hgap : Trivia.length (gap ++ rest) = gap.length) :
    (Lexer.mk (gap ++ rest) (Position.start.after before)).next =
      match Lexeme.scan rest with
      | .token kind n =>
        (.ok ⟨kind, String.ofList (rest.take n), Position.start.after (before ++ gap)⟩,
          ⟨rest.drop n, Position.start.after (before ++ gap ++ rest.take n)⟩)
      | .fault fault place n =>
        (.error ⟨Position.start.after (before ++ gap ++ rest.take place), fault⟩,
          ⟨rest.drop n, Position.start.after (before ++ gap ++ rest.take n)⟩) := by
  cases hscan : Lexeme.scan rest <;>
    simp only [next, advance, hgap, hscan, List.drop_left, List.take_left, Position.after_append]

/-- **What a lexer can do next**: it finds the end behind blanks and comments, or a token, and then
    stands behind it, or a fault. -/
theorem next_cases (before rest : List Char) :
    (Trivia.IsTail rest ∧ ∃ l, (Lexer.mk rest (Position.start.after before)).next =
      (.ok ⟨.finish, "", Position.start.after (before ++ rest)⟩, l)) ∨
    (∃ gap text more kind, rest = gap ++ (text ++ more) ∧ Trivia.IsGap gap ∧
      Lexeme.IsToken text kind ∧ (Lexer.mk rest (Position.start.after before)).next =
        (.ok ⟨kind, String.ofList text, Position.start.after (before ++ gap)⟩,
          ⟨more, Position.start.after (before ++ gap ++ text)⟩)) ∨
    ∃ gap used more fault l, rest = gap ++ (used ++ more) ∧ Trivia.IsGap gap ∧
      (Lexer.mk rest (Position.start.after before)).next =
        (.error ⟨Position.start.after (before ++ gap ++ used), fault⟩, l) := by
  obtain ⟨gap, rest, rfl, hlength, htail, hgap⟩ := Trivia.exists_skipped rest
  rw [next_append hlength]
  -- What has been skipped is a gap if anything follows it, and a tail if nothing does.
  cases hscan : Lexeme.scan rest with
  | fault fault place n =>
    have hne : rest ≠ [] := by
      rintro rfl
      exact nomatch hscan
    exact .inr (.inr ⟨gap, rest.take place, rest.drop place, fault, _,
      congrArg (gap ++ ·) (List.take_append_drop place rest).symm, hgap hne, rfl⟩)
  | token kind n =>
    rcases Lexeme.exists_isToken_of_scan hscan with ⟨rfl, rfl⟩ | ⟨text, rest, rfl, rfl, htext⟩
    · simp only [List.append_nil, List.take_nil]
      exact .inl ⟨htail, _, rfl⟩
    · have hne := List.append_ne_nil_of_left_ne_nil htext.ne_nil rest
      refine .inr (.inl ⟨gap, text, rest, kind, rfl, hgap hne, htext, ?_⟩)
      simp only [List.take_left, List.drop_left]

/-- **A lexer hands out tiles**, as long as it may hand out more items than characters are left. -/
theorem tiles_items {bound : Nat} {before rest : List Char} (hbound : rest.length < bound) :
    Tiles before rest ((Lexer.mk rest (Position.start.after before)).items bound) := by
  induction bound generalizing before rest with
  | zero => exact absurd hbound (Nat.not_lt_zero _)
  | succ bound ih =>
    rw [items]
    rcases next_cases before rest with ⟨htail, l, hnext⟩ |
      ⟨gap, text, more, kind, rfl, hgap, htext, hnext⟩ |
      ⟨gap, used, more, fault, l, rfl, hgap, hnext⟩
    · simp only [hnext, if_pos]
      exact .finish htail
    · have hpos := List.length_pos_of_ne_nil htext.ne_nil
      simp only [List.length_append] at hbound
      simp only [hnext, if_neg htext.ne_finish]
      exact .token hgap htext (ih (by omega))
    · simp only [hnext]
      exact .fault fault hgap

end Lexer

namespace Feed

/-- A finished feed has nothing to answer. -/
theorem answer_of_isFinished (l : Lexer) (n : Nat) : answer n ⟨l, true⟩ = none := by
  induction n with
  | zero => rfl
  | succ n ih => exact ih

variable {l l' : Lexer} {item : Token.Item}

/-- The last item is the only answer. -/
theorem answer_of_isLast (h : l.next = (item, l')) (hlast : item.isLast = true) (n : Nat) :
    answer n ⟨l, false⟩ = [item][n]? := by
  cases n with
  | zero => simp only [answer, next, h, List.getElem?_cons_zero, Bool.false_eq_true, if_false]
  | succ n =>
    simp only [answer, next, h, hlast, Bool.false_eq_true, if_false]
    exact answer_of_isFinished l' n

/-- Any other item is answered first, and then what the lexer hands out behind it. -/
theorem answer_of_not_isLast (h : l.next = (item, l')) (hlast : item.isLast = false)
    {items : List Token.Item} (hitems : ∀ n, answer n ⟨l', false⟩ = items[n]?) (n : Nat) :
    answer n ⟨l, false⟩ = (item :: items)[n]? := by
  cases n with
  | zero => simp only [answer, next, h, List.getElem?_cons_zero, Bool.false_eq_true, if_false]
  | succ n =>
    simp only [answer, next, h, hlast, Bool.false_eq_true, if_false]
    exact hitems n

/-- **Asked for one item after the other, a lexer hands out its items** and then nothing. -/
theorem answer_eq {bound : Nat} {before rest : List Char} (hbound : rest.length < bound) (n : Nat) :
    answer n ⟨⟨rest, Position.start.after before⟩, false⟩ =
      ((Lexer.mk rest (Position.start.after before)).items bound)[n]? := by
  induction bound generalizing before rest n with
  | zero => exact absurd hbound (Nat.not_lt_zero _)
  | succ bound ih =>
    rw [Lexer.items]
    rcases Lexer.next_cases before rest with ⟨htail, l, hnext⟩ |
      ⟨gap, text, more, kind, rfl, hgap, htext, hnext⟩ |
      ⟨gap, used, more, fault, l, rfl, hgap, hnext⟩
    · simp only [hnext, if_pos]
      exact answer_of_isLast hnext rfl n
    · have hpos := List.length_pos_of_ne_nil htext.ne_nil
      simp only [List.length_append] at hbound
      simp only [hnext, if_neg htext.ne_finish]
      exact answer_of_not_isLast hnext (decide_eq_false htext.ne_finish)
        (fun n => ih (by omega) n) n
    · simp only [hnext]
      exact answer_of_isLast hnext rfl n

end Feed

/-! ## Texts -/

/-- **A part stands in a text** after so many bytes. -/
def Text.StandsAt (s : String) (offset : Nat) (part : String) : Prop :=
  ∃ before after, s = before ++ part ++ after ∧ before.utf8ByteSize = offset

/-- **A place lies in a text**: the characters in front of it have as many bytes as its offset says,
    and its line and its column are counted from them. -/
def Position.LiesIn (p : Position) (s : String) : Prop :=
  ∃ before after, s = before ++ after ∧ p.offset = before.utf8ByteSize ∧
    p.line = 1 + before.toList.count '\n' ∧ p.column = 1 + (Text.lastLine before.toList).length

theorem Text.standsAt_ofList (before part rest : List Char) :
    StandsAt (String.ofList (before ++ (part ++ rest))) (Position.start.after before).offset
      (String.ofList part) := by
  refine ⟨String.ofList before, String.ofList rest, ?_, ?_⟩
  · rw [String.ofList_append, String.ofList_append, String.append_assoc]
  · rw [Position.start_after]

theorem Position.liesIn_start_after (before rest : List Char) :
    (start.after before).LiesIn (String.ofList (before ++ rest)) := by
  refine ⟨String.ofList before, String.ofList rest, String.ofList_append, ?_⟩
  rw [String.toList_ofList, start_after]
  exact ⟨rfl, rfl, rfl⟩

/-- More characters lie so many bytes further on. -/
theorem Position.offset_start_after_append (before cs : List Char) :
    (start.after (before ++ cs)).offset =
      (start.after before).offset + (String.ofList cs).utf8ByteSize := by
  rw [start_after, start_after, String.ofList_append, String.utf8ByteSize_append]

namespace Token.Item

/-- Where a token or a fault is. -/
def position : Token.Item → Position
  | .ok token => token.position
  | .error e => e.position

/-- The byte where a token stops. -/
def stop : Token.Item → Nat
  | .ok token => token.position.offset + token.text.utf8ByteSize
  | .error e => e.position.offset

end Token.Item

open Token.Item

/-- **The items of a text tile it.** -/
structure Tiling (s : String) (items : List Token.Item) : Prop where
  length_le : items.length ≤ s.utf8ByteSize + 1
  /-- The end or a fault is the last item, and no other. -/
  last : ∃ others last, items = others ++ [last] ∧ last.isLast = true ∧
    ∀ item ∈ others, item.isLast = false
  /-- Every token stands in the text where it says. -/
  stands : ∀ token, .ok token ∈ items → Text.StandsAt s token.position.offset token.text
  /-- Every item comes after those before it. -/
  ordered : items.Pairwise fun item item' => item.stop ≤ item'.position.offset
  /-- Only a gap lies in front of a token, after the token before it or from the start. -/
  gaps : ∀ others token rest, items = others ++ .ok token :: rest →
    ∃ gap, Text.StandsAt s (others.getLast?.elim 0 stop) gap ∧
      others.getLast?.elim 0 stop + gap.utf8ByteSize = token.position.offset ∧
      Trivia.IsTail gap.toList ∧ (token.kind ≠ .finish → Trivia.IsGap gap.toList)
  /-- The end is where the text ends. -/
  finish : ∀ token, .ok token ∈ items → token.kind = .finish →
    token.position.offset = s.utf8ByteSize ∧ token.text = ""
  /-- All places are true. -/
  places : ∀ item ∈ items, item.position.LiesIn s

namespace Tiles

variable {before rest : List Char} {items : List Token.Item}

theorem length_le (h : Tiles before rest items) : items.length ≤ rest.length + 1 := by
  induction h with
  | finish | fault => exact Nat.succ_le_succ (Nat.zero_le _)
  | token _ htext _ ih =>
    have hpos := List.length_pos_of_ne_nil htext.ne_nil
    simp only [List.length_cons, List.length_append]
    omega

theorem exists_last (h : Tiles before rest items) : ∃ others last, items = others ++ [last] ∧
    last.isLast = true ∧ ∀ item ∈ others, item.isLast = false := by
  induction h with
  | finish => exact ⟨[], _, rfl, rfl, nofun⟩
  | token _ htext _ ih =>
    obtain ⟨others, last, rfl, hlast, hothers⟩ := ih
    exact ⟨_ :: others, last, rfl, hlast,
      List.forall_mem_cons.2 ⟨decide_eq_false htext.ne_finish, hothers⟩⟩
  | fault => exact ⟨[], _, rfl, rfl, nofun⟩

theorem standsAt (h : Tiles before rest items) {token : Token} (ht : .ok token ∈ items) :
    Text.StandsAt (String.ofList (before ++ rest)) token.position.offset token.text := by
  induction h with
  | @finish before gap =>
    obtain rfl := Except.ok.inj (List.mem_singleton.1 ht)
    have hstands := Text.standsAt_ofList (before ++ gap) [] []
    rwa [List.append_nil, List.append_nil] at hstands
  | @token before gap text rest kind items _ _ _ ih =>
    rcases List.mem_cons.1 ht with heq | ht
    · obtain rfl := Except.ok.inj heq
      have hstands := Text.standsAt_ofList (before ++ gap) text rest
      rwa [List.append_assoc] at hstands
    · have hstands := ih ht
      rwa [List.append_assoc, List.append_assoc] at hstands
  | fault => exact nomatch List.mem_singleton.1 ht

theorem liesIn (h : Tiles before rest items) {item : Token.Item} (hitem : item ∈ items) :
    item.position.LiesIn (String.ofList (before ++ rest)) := by
  induction h with
  | @finish before gap =>
    obtain rfl := List.mem_singleton.1 hitem
    have hplace := Position.liesIn_start_after (before ++ gap) []
    rwa [List.append_nil] at hplace
  | @token before gap text rest kind items _ _ _ ih =>
    rcases List.mem_cons.1 hitem with rfl | hitem
    · have hplace := Position.liesIn_start_after (before ++ gap) (text ++ rest)
      rwa [List.append_assoc] at hplace
    · have hplace := ih hitem
      rwa [List.append_assoc, List.append_assoc] at hplace
  | @fault before gap used rest =>
    obtain rfl := List.mem_singleton.1 hitem
    have hplace := Position.liesIn_start_after (before ++ gap ++ used) rest
    rwa [List.append_assoc (before ++ gap), List.append_assoc before gap (used ++ rest)] at hplace

/-- All items are further on than the characters before them. -/
theorem offset_le (h : Tiles before rest items) {item : Token.Item} (hitem : item ∈ items) :
    (Position.start.after before).offset ≤ item.position.offset := by
  induction h with
  | finish =>
    obtain rfl := List.mem_singleton.1 hitem
    exact (Nat.le_add_right _ _).trans_eq (Position.offset_start_after_append _ _).symm
  | token _ _ _ ih =>
    rcases List.mem_cons.1 hitem with rfl | hitem
    · exact (Nat.le_add_right _ _).trans_eq (Position.offset_start_after_append _ _).symm
    · have hle := ih hitem
      rw [Position.offset_start_after_append, Position.offset_start_after_append] at hle
      omega
  | @fault before gap used =>
    obtain rfl := List.mem_singleton.1 hitem
    change _ ≤ (Position.start.after (before ++ gap ++ used)).offset
    rw [List.append_assoc, Position.offset_start_after_append]
    exact Nat.le_add_right _ _

theorem ordered (h : Tiles before rest items) :
    items.Pairwise fun item item' => item.stop ≤ item'.position.offset := by
  induction h with
  | finish | fault => exact List.pairwise_singleton _ _
  | @token before gap text rest kind items _ _ h ih =>
    refine List.pairwise_cons.2 ⟨fun item hitem => ?_, ih⟩
    have hle := h.offset_le hitem
    rwa [Position.offset_start_after_append] at hle

theorem finish_eq (h : Tiles before rest items) {token : Token} (ht : .ok token ∈ items)
    (hk : token.kind = .finish) :
    token.position.offset = (String.ofList (before ++ rest)).utf8ByteSize ∧ token.text = "" := by
  induction h with
  | finish =>
    obtain rfl := Except.ok.inj (List.mem_singleton.1 ht)
    exact ⟨by rw [Position.start_after], rfl⟩
  | token _ htext _ ih =>
    rcases List.mem_cons.1 ht with heq | ht
    · obtain rfl := Except.ok.inj heq
      exact absurd hk htext.ne_finish
    · have hfinish := ih ht
      rwa [List.append_assoc, List.append_assoc] at hfinish
  | fault => exact nomatch List.mem_singleton.1 ht

/-- Only a gap lies in front of a token. -/
theorem exists_gap (h : Tiles before rest items) {others : List Token.Item} {token : Token}
    {more : List Token.Item} (hitems : items = others ++ .ok token :: more) :
    ∃ gap, Text.StandsAt (String.ofList (before ++ rest))
        (others.getLast?.elim (Position.start.after before).offset stop) gap ∧
      others.getLast?.elim (Position.start.after before).offset stop + gap.utf8ByteSize =
        token.position.offset ∧
      Trivia.IsTail gap.toList ∧ (token.kind ≠ .finish → Trivia.IsGap gap.toList) := by
  -- By induction on the tiling: the gap is in front of the first token, or of one further on, which
  -- the tiling of the rest has it for.
  induction h generalizing others with
  | @finish before gap hgap =>
    cases others with
    | nil =>
      obtain rfl := Except.ok.inj (List.cons.inj hitems).1
      have hstands := Text.standsAt_ofList before gap []
      rw [List.append_nil] at hstands
      exact ⟨String.ofList gap, hstands, (Position.offset_start_after_append _ _).symm,
        String.toList_ofList.symm ▸ hgap, fun hne => absurd rfl hne⟩
    | cons item others => simp at hitems
  | @token before gap text rest kind items hgap _ _ ih =>
    cases others with
    | nil =>
      obtain rfl := Except.ok.inj (List.cons.inj hitems).1
      have hgap' : Trivia.IsGap (String.ofList gap).toList := by rwa [String.toList_ofList]
      exact ⟨String.ofList gap, Text.standsAt_ofList before gap (text ++ rest),
        (Position.offset_start_after_append _ _).symm, .gap hgap', fun _ => hgap'⟩
    | cons item others =>
      obtain ⟨hitem, hitems⟩ := List.cons.inj hitems
      have hstop : item.stop = (Position.start.after (before ++ gap ++ text)).offset := by
        rw [← hitem, Position.offset_start_after_append]
        rfl
      -- the item before is the first token when there is no other between
      have hstart : (item :: others).getLast?.elim (Position.start.after before).offset stop =
          others.getLast?.elim (Position.start.after (before ++ gap ++ text)).offset stop := by
        rw [List.getLast?_cons]
        cases others.getLast? with
        | none => exact hstop
        | some => rfl
      have hgap := ih hitems
      rwa [← hstart, List.append_assoc, List.append_assoc before gap (text ++ rest)] at hgap
  | fault =>
    cases others <;> simp at hitems

end Tiles

/-! ## All items of a text -/

theorem tiles_tokenize (s : String) : Tiles [] s.toList (tokenize s) :=
  Lexer.tiles_items (Nat.lt_succ_self _)

/-- **The items of a text tile it**, and they are all that a lexer answers with when it is asked for
    one item after the other. -/
theorem tokenize_tiles (s : String) :
    Tiling s (tokenize s) ∧ ∀ n, (Feed.ofString s).answer n = (tokenize s)[n]? := by
  have h := tiles_tokenize s
  have hs : String.ofList s.toList = s := String.ofList_toList
  refine ⟨{
    length_le := h.length_le.trans (Nat.succ_le_succ ?_)
    last := h.exists_last
    stands := fun token ht => hs ▸ h.standsAt ht
    ordered := h.ordered
    gaps := fun others token rest hitems => hs ▸ h.exists_gap hitems
    finish := fun token ht hk => hs ▸ h.finish_eq ht hk
    places := fun item hitem => hs ▸ h.liesIn hitem }, ?_⟩
  · exact (Text.length_le_utf8ByteSize s.toList).trans_eq (congrArg String.utf8ByteSize hs)
  · exact @Feed.answer_eq _ [] s.toList (Nat.lt_succ_self _)

end Warrant
