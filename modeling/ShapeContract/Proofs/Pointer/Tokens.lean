import ShapeContract.Pointer
import ShapeContract.Proofs.Text.ByteOrder

/-!
# Tokens of a pointer

A way through a value is a list of tokens.  `Earlier` is the order of ways, `along` writes a way as
a pointer, step by step, and `tokens?` reads a pointer back in the manner of RFC 6901: it splits the
text at its slashes and in every part puts a slash for `~1` and then a tilde for `~0`.

* `unescape_escape`: what is escaped is read back, whatever the token is.
* `tokens?_along`: the tokens read are those that were written, positions in decimal.
* `position?_repr`: a position in decimal is read as that position.

The escaped form of a token has no slash of its own (`slash_not_mem_written`), so splitting cuts
where a step begins and nowhere else.  Reading `~1` first is safe because the tilde of an escaped
tilde is followed by `0`: `restore_one_escape` says that this pass leaves just the escaped tildes.
-/

namespace ShapeContract.Pointer

/-! ### The order of ways -/

/-- One token comes before another: positions in the order of numbers, names in the order of their
bytes. -/
def Token.Before : Token → Token → Prop
  | .position i, .position j => i < j
  | .name k, .name l => Text.bytes k < Text.bytes l
  | _, _ => False

/-- One way comes before another: at the first token where they differ, or as the start of it. -/
def Earlier : List Token → List Token → Prop := List.Lex Token.Before

theorem Token.Before.asymm : ∀ {a b : Token}, a.Before b → ¬ b.Before a
  | .position _, .position _, h => Nat.lt_asymm h
  | .name _, .name _, h => List.lt_asymm h

theorem Earlier.asymm {p q : List Token} (h : Earlier p q) : ¬ Earlier q p :=
  List.lex_asymm (fun h => h.asymm) h

/-- The ways through the parts are in order if the tokens of the parts are, and the ways in each
part. -/
theorem pairwise_flatMap_under {α β : Type} {path : α → List Token} {under : Token → α → α}
    (hunder : ∀ token q, path (under token q) = token :: path q)
    {parts : List β} {token : β → Token} {below : β → List α}
    (hparts : parts.Pairwise fun c d => (token c).Before (token d))
    (hbelow : ∀ c ∈ parts, (below c).Pairwise fun q r => Earlier (path q) (path r)) :
    (parts.flatMap fun c => (below c).map (under (token c))).Pairwise
      fun q r => Earlier (path q) (path r) := by
  rw [List.pairwise_flatMap]
  constructor
  · intro c hc
    rw [List.pairwise_map]
    refine (hbelow c hc).imp fun hqr => ?_
    rw [hunder, hunder]
    exact List.Lex.cons hqr
  · refine hparts.imp ?_
    intro c d hcd q hq r hr
    obtain ⟨q', -, rfl⟩ := List.mem_map.mp hq
    obtain ⟨r', -, rfl⟩ := List.mem_map.mp hr
    rw [hunder, hunder]
    exact List.Lex.rel hcd

/-! ### Writing -/

/-- The pointer of a way from a base. -/
def along (base : String) (tokens : List Token) : String := tokens.foldl extend base

/-- The text of a token: a name itself, a position in decimal. -/
def Token.text : Token → String
  | .name k => k
  | .position i => Nat.repr i

/-- A token as it is written in a pointer. -/
def Token.written : Token → List Char
  | .name k => (escape k).toList
  | .position i => (Nat.repr i).toList

theorem toList_along (tokens : List Token) : ∀ base : String,
    (along base tokens).toList = base.toList ++ tokens.flatMap fun t => '/' :: t.written := by
  induction tokens with
  | nil => intro base; exact (List.append_nil _).symm
  | cons t tokens ih =>
    intro base
    have hstep : (extend base t).toList = base.toList ++ '/' :: t.written := by
      cases t <;> simp [extend, child, index, Token.written]
    rw [along, List.foldl_cons, ← along, ih, hstep, List.flatMap_cons, List.append_assoc]

/-! ### Reading -/

/-- Put a character for every tilde that a digit follows. -/
def restore (digit original : Char) : List Char → List Char
  | [] => []
  | [c] => [c]
  | c :: d :: rest =>
    if c = '~' ∧ d = digit then original :: restore digit original rest
    else c :: restore digit original (d :: rest)

/-- The text of a part of a pointer. -/
def unescape (part : List Char) : String := String.ofList (restore '0' '~' (restore '1' '/' part))

/-- The tokens of a pointer; a text that does not begin with a slash is no pointer, unless it is
empty. -/
def tokens? (pointer : String) : Option (List String) :=
  match pointer.toList.splitOn '/' with
  | [] :: parts => some (parts.map unescape)
  | _ => none

/-- The position that a token stands for: decimal digits, of which the first is no zero unless it is
the only one. -/
def position? (token : String) : Option Nat :=
  let digits := token.toList
  if digits = ['0'] then some 0
  else if digits ≠ [] ∧ digits.head? ≠ some '0' ∧ digits.all Char.isDigit then
    some (Nat.ofDigitChars 10 digits 0)
  else none

/-! ### Escaping and back -/

theorem restore_cons_of_ne {digit original c : Char} (hc : c ≠ '~') (rest : List Char) :
    restore digit original (c :: rest) = c :: restore digit original rest := by
  cases rest with
  | nil => rfl
  | cons d rest => rw [restore, if_neg (fun h => hc h.1)]

theorem restore_of_not_mem {digit original : Char} {part : List Char} (h : '~' ∉ part) :
    restore digit original part = part := by
  induction part with
  | nil => rfl
  | cons c rest ih =>
    rw [List.mem_cons, not_or] at h
    rw [restore_cons_of_ne (Ne.symm h.1), ih h.2]

/-- How a character is written when slashes have been put back already. -/
def escapeTilde (c : Char) : List Char := if c = '~' then ['~', '0'] else [c]

/-- The first pass puts the slashes back and leaves the escaped tildes. -/
theorem restore_one_escape (cs : List Char) :
    restore '1' '/' (cs.flatMap escapeChar) = cs.flatMap escapeTilde := by
  induction cs with
  | nil => rfl
  | cons c cs ih =>
    rw [List.flatMap_cons, List.flatMap_cons, ← ih]
    by_cases ht : c = '~'
    · subst ht
      rw [show escapeChar '~' = ['~', '0'] from rfl, show escapeTilde '~' = ['~', '0'] from rfl,
        List.cons_append, List.cons_append, restore, if_neg (by decide),
        restore_cons_of_ne (by decide)]
      rfl
    by_cases hs : c = '/'
    · subst hs
      rw [show escapeChar '/' = ['~', '1'] from rfl, List.cons_append, List.cons_append, restore,
        if_pos ⟨rfl, rfl⟩]
      rfl
    · have hc : escapeChar c = [c] := by
        unfold escapeChar
        split <;> simp_all
      rw [hc, escapeTilde, if_neg ht, List.singleton_append, restore_cons_of_ne ht]
      rfl

/-- The second pass puts the tildes back. -/
theorem restore_zero_escapeTilde (cs : List Char) :
    restore '0' '~' (cs.flatMap escapeTilde) = cs := by
  induction cs with
  | nil => rfl
  | cons c cs ih =>
    rw [List.flatMap_cons, escapeTilde]
    by_cases ht : c = '~'
    · rw [if_pos ht, List.cons_append, List.cons_append, restore, if_pos ⟨rfl, rfl⟩,
        List.nil_append, ih, ht]
    · rw [if_neg ht, List.singleton_append, restore_cons_of_ne ht, ih]

/-- **An escaped token is read as the token.** -/
theorem unescape_escape (token : String) : unescape (escape token).toList = token := by
  rw [unescape, escape, String.toList_ofList, restore_one_escape, restore_zero_escapeTilde,
    String.ofList_toList]

example : unescape "~01".toList = "~1" := by decide

/-! ### Positions and back -/

theorem isDigit_of_mem_repr {i : Nat} {c : Char} (h : c ∈ (Nat.repr i).toList) : c.isDigit := by
  rw [Nat.toList_repr] at h
  exact Nat.isDigit_of_mem_toDigits (by decide) (by decide) h

/-- The decimal digits of a positive number do not begin with a zero. -/
theorem head?_toDigits_ne_zero : ∀ i : Nat, 0 < i → (Nat.toDigits 10 i).head? ≠ some '0' := by
  intro i
  induction i using Nat.strongRecOn with
  | ind i ih =>
    intro hi
    by_cases hlt : i < 10
    · rw [Nat.toDigits_of_lt_base hlt, List.head?_cons]
      intro h
      have hval := Nat.toNat_digitChar_of_lt_ten hlt
      rw [Option.some.inj h] at hval
      have hzero : '0'.toNat = 48 := rfl
      omega
    · rw [Nat.toDigits_of_base_le (by decide) (by omega)]
      have hhead := ih (i / 10) (by omega) (by omega)
      cases hd : Nat.toDigits 10 (i / 10) with
      | nil => exact absurd hd Nat.toDigits_ne_nil
      | cons c cs => rwa [hd] at hhead

/-- **A position in decimal is read as that position.** -/
theorem position?_repr (i : Nat) : position? (Nat.repr i) = some i := by
  unfold position?
  by_cases hi : i = 0
  · subst hi
    rfl
  have hhead := head?_toDigits_ne_zero i (by omega)
  rw [Nat.toList_repr]
  have hzero : Nat.toDigits 10 i ≠ ['0'] := by
    intro h
    rw [h] at hhead
    exact hhead rfl
  rw [if_neg hzero, if_pos, Nat.ofDigitChars_ten_toDigits]
  refine ⟨Nat.toDigits_ne_nil, hhead, List.all_eq_true.mpr ?_⟩
  intro c hc
  exact Nat.isDigit_of_mem_toDigits (by decide) (by decide) hc

/-! ### Pointers and back -/

theorem slash_not_mem_written (t : Token) : '/' ∉ t.written := by
  intro h
  cases t with
  | name k =>
    rw [Token.written, escape, String.toList_ofList, List.mem_flatMap] at h
    obtain ⟨c, -, hc⟩ := h
    unfold escapeChar at hc
    split at hc
    · simp at hc
    · simp at hc
    · rename_i hslash
      exact hslash (List.mem_singleton.mp hc).symm
  | position i => exact absurd (isDigit_of_mem_repr h) (by decide)

theorem unescape_written (t : Token) : unescape t.written = t.text := by
  cases t with
  | name k => exact unescape_escape k
  | position i =>
    have h : '~' ∉ (Nat.repr i).toList := fun h => absurd (isDigit_of_mem_repr h) (by decide)
    rw [Token.written, unescape, restore_of_not_mem h, restore_of_not_mem h, String.ofList_toList]
    rfl

/-- A way that is written out is cut at the beginning of every step. -/
theorem splitOn_written (tokens : List Token) : ∀ part : List Char, '/' ∉ part →
    (part ++ tokens.flatMap fun t => '/' :: t.written).splitOn '/' =
      part :: tokens.map Token.written := by
  induction tokens with
  | nil =>
    intro part hpart
    rw [List.flatMap_nil, List.append_nil, List.splitOn_eq_singleton hpart]
    rfl
  | cons t tokens ih =>
    intro part hpart
    rw [List.flatMap_cons, List.cons_append, List.splitOn_append_cons_self_of_not_mem hpart,
      ih t.written (slash_not_mem_written t)]
    rfl

/-- **The tokens read from a pointer are those it was built from.** -/
theorem tokens?_along (tokens : List Token) :
    tokens? (along "" tokens) = some (tokens.map Token.text) := by
  have hsplit := splitOn_written tokens [] List.not_mem_nil
  rw [tokens?, toList_along, String.toList_empty, hsplit]
  simp only [List.map_map, Option.some.injEq]
  exact List.map_congr_left fun t _ => unescape_written t

end ShapeContract.Pointer
