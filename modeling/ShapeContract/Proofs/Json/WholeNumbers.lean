import Mathlib.Data.List.TakeWhile
import ShapeContract.Proofs.Json.Locality
import ShapeContract.Proofs.Pointer.Tokens

/-!
# Values without doubles are read back

An integer is written in decimal, and its digits are read as the same integer: the reader gathers
them as long as the number fits, and an integer that can be written always fits
(`appendDigits_digitValue`).  Doubles are left out, because the reader's short computation can miss
the double that was written in its last bits.

Together with what is known of strings, arrays and objects this gives `readsBack_of_noDoubles`: a
value in which no number is a double is read back, in every layout that puts blanks where it may.
-/

namespace ShapeContract.Json

/-- No number in the value is a double. -/
inductive NoDoubles : Json → Prop
  | null : NoDoubles null
  | boolean (b : Bool) : NoDoubles (boolean b)
  | number {n : Number} (h : ∀ d, n ≠ .double d) : NoDoubles (number n)
  | string (s : String) : NoDoubles (string s)
  | array {xs : List Json} (h : ∀ x ∈ xs, NoDoubles x) : NoDoubles (array xs)
  | object {ms : Fields Json none} (h : ∀ m ∈ ms.toList, NoDoubles m.2) : NoDoubles (object ms)

/-! ### Digits -/

/-- A number in decimal has a digit, and nothing but digits. -/
theorem exists_digits_repr (n : Nat) :
    ∃ c cs, (Nat.repr n).toList = c :: cs ∧ ∀ d ∈ c :: cs, isDigit d = true := by
  obtain ⟨c, cs, hcs⟩ := List.exists_cons_of_ne_nil (Nat.toDigits_ne_nil (n := n) (b := 10))
  rw [← Nat.toList_repr] at hcs
  refine ⟨c, cs, hcs, fun d hd => ?_⟩
  have hdigit : d.isDigit = true := Pointer.isDigit_of_mem_repr (hcs ▸ hd)
  simpa [isDigit, Char.isDigit, Char.le_def] using hdigit

theorem le_ofDigitChars (cs : List Char) : ∀ n, n ≤ Nat.ofDigitChars 10 cs n := by
  induction cs with
  | nil => exact fun n => Nat.le_refl n
  | cons c cs ih =>
    intro n
    have := ih (10 * n + (c.toNat - '0'.toNat))
    rw [Nat.ofDigitChars_cons]
    omega

/-- Digits are gathered into the number they stand for if it fits: then so does the number of every
part of them. -/
theorem appendDigits_digitValue {limit : Nat} (cs : List Char) : ∀ n,
    Nat.ofDigitChars 10 cs n < limit →
      appendDigits limit n (cs.map digitValue) = (Nat.ofDigitChars 10 cs n, []) := by
  induction cs with
  | nil => exact fun n _ => rfl
  | cons c cs ih =>
    intro n hfits
    have hstep : n * 10 + digitValue c = 10 * n + (c.toNat - '0'.toNat) := by
      rw [digitValue, Nat.mul_comm]
    rw [Nat.ofDigitChars_cons] at hfits ⊢
    have hle := le_ofDigitChars cs (10 * n + (c.toNat - '0'.toNat))
    rw [List.map_cons, appendDigits, hstep, if_pos (by omega)]
    exact ih _ hfits

theorem appendDigits_repr {limit n : Nat} (h : n < limit) :
    appendDigits limit 0 ((Nat.repr n).toList.map digitValue) = (n, []) := by
  have hvalue : Nat.ofDigitChars 10 (Nat.repr n).toList 0 = n := by
    rw [Nat.toList_repr, Nat.ofDigitChars_ten_toDigits]
  rw [appendDigits_digitValue _ 0 (by omega), hvalue]

theorem readDigits_of_isDigit {cs : List Char} (h : ∀ c ∈ cs, isDigit c = true) :
    readDigits cs = (cs.map digitValue, []) := by
  rw [readDigits, List.takeWhile_eq_self_iff.mpr h, List.dropWhile_eq_nil_iff.mpr h]

/-- A zero in front is a digit of its own only if it is the whole number. -/
theorem readWhole_repr (n : Nat) :
    readWhole (Nat.repr n).toList = .ok ((Nat.repr n).toList.map digitValue, []) := by
  by_cases hn : n = 0
  · subst hn
    rfl
  obtain ⟨c, cs, hcs, hdigits⟩ := exists_digits_repr n
  have hhead := Pointer.head?_toDigits_ne_zero n (by omega)
  rw [← Nat.toList_repr, hcs] at hhead
  have hc : c ≠ '0' := fun h => hhead (congrArg some h)
  rw [hcs, readWhole_of_ne hc, readSomeDigits, if_pos (hdigits c List.mem_cons_self),
    readDigits_of_isDigit hdigits]

/-! ### Integers -/

theorem toNumber_digits {digits : List Nat} {n : Nat} (h : n < wordBound)
    (hdigits : appendDigits wordBound 0 digits = (n, [])) (negative : Bool) :
    NumberText.toNumber ⟨negative, digits, none, none⟩ =
      .ok (NumberText.ofInteger negative n h) := by
  simp only [NumberText.toNumber, Option.getD_none, hdigits, appendDigits]

/-- **An integer in decimal is read as that integer.** -/
theorem readNumber_repr {n : Nat} (h : n < wordBound) (negative : Bool) :
    readNumber negative (Nat.repr n).toList =
      .ok (.number (NumberText.ofInteger negative n h), []) := by
  have hnumber := toNumber_digits h (appendDigits_repr h) negative
  simp only [readNumber, readWhole_repr, readFraction, readExponent, hnumber, bind, Except.bind]

/-! ### Values -/

section Layout

variable {l : Layout}

/-- What is neither an array nor an object is read back if it is read when it stands alone. -/
theorem ReadsBack.scalar {v : Json} {c : Char} {cs : List Char}
    (hwrite : ∀ d, v.write l d = c :: cs) (hblank : isBlank c = false) (hne : c ≠ ']')
    (hnesting : v.nesting = 0) (hread : ∀ limit, readValue 1 limit (c :: cs) = .ok (v, [])) :
    ReadsBack l v := by
  constructor
  · intro d
    exact ⟨c, cs, hwrite d, hblank, hne⟩
  · intro d fuel limit rest hfuel hrest
    rw [hwrite, List.length_cons] at hfuel
    rw [hwrite, hnesting]
    exact limited_zero (readValue_append hrest (by omega) (hread limit))

theorem ReadsBack.null : ReadsBack l null := by
  have hwrite : ∀ d, Json.null.write l d = 'n' :: ['u', 'l', 'l'] := fun _ => rfl
  refine .scalar hwrite rfl (by decide) rfl fun limit => ?_
  simp +decide [readValue, readLetters, skipBlanks_cons (show isBlank 'n' = false from rfl)]

theorem ReadsBack.boolean (b : Bool) : ReadsBack l (boolean b) := by
  cases b with
  | false =>
    have hwrite : ∀ d, (Json.boolean false).write l d = 'f' :: ['a', 'l', 's', 'e'] :=
      fun _ => rfl
    refine .scalar hwrite rfl (by decide) rfl fun limit => ?_
    simp +decide [readValue, readLetters, skipBlanks_cons (show isBlank 'f' = false from rfl)]
  | true =>
    have hwrite : ∀ d, (Json.boolean true).write l d = 't' :: ['r', 'u', 'e'] := fun _ => rfl
    refine .scalar hwrite rfl (by decide) rfl fun limit => ?_
    simp +decide [readValue, readLetters, skipBlanks_cons (show isBlank 't' = false from rfl)]

theorem readValue_minus (limit : Nat) (cs : List Char) :
    readValue 1 limit ('-' :: cs) = readNumber true cs := by
  simp +decide [readValue, skipBlanks_cons (show isBlank '-' = false from rfl)]

theorem ne_of_isDigit {c d : Char} (hc : isDigit c = true) (hd : isDigit d = false) : c ≠ d := by
  rintro rfl
  rw [hc] at hd
  cases hd

theorem isBlank_of_isDigit {c : Char} (h : isDigit c = true) : isBlank c = false := by
  simp [isBlank, ne_of_isDigit h (d := ' ') (by decide), ne_of_isDigit h (d := '\n') (by decide),
    ne_of_isDigit h (d := '\t') (by decide), ne_of_isDigit h (d := '\r') (by decide)]

theorem readValue_digit {c : Char} (h : isDigit c = true) (limit : Nat) (cs : List Char) :
    readValue 1 limit (c :: cs) = readNumber false (c :: cs) := by
  rw [readValue, skipBlanks_cons (isBlank_of_isDigit h)]
  simp only [if_neg (ne_of_isDigit h (d := 'n') (by decide)),
    if_neg (ne_of_isDigit h (d := 't') (by decide)),
    if_neg (ne_of_isDigit h (d := 'f') (by decide)),
    if_neg (ne_of_isDigit h (d := '-') (by decide)), if_pos h]

theorem ReadsBack.unsigned {n : Nat} (h : n < wordBound) :
    ReadsBack l (number (.unsigned n h)) := by
  obtain ⟨c, cs, hcs, hdigits⟩ := exists_digits_repr n
  have hdigit := hdigits c List.mem_cons_self
  refine .scalar (fun _ => hcs) (isBlank_of_isDigit hdigit) (ne_of_isDigit hdigit (by decide)) rfl
    fun limit => ?_
  rw [readValue_digit hdigit, ← hcs, readNumber_repr h]
  rfl

theorem ReadsBack.negative {n : Nat} (h : 0 < n ∧ n ≤ signedBound) :
    ReadsBack l (number (.negative n h)) := by
  have hfits : n < wordBound := Nat.lt_of_le_of_lt h.2 (by decide)
  have hwrite : ∀ d, (Json.number (.negative n h)).write l d = '-' :: (Nat.repr n).toList := by
    intro d
    rw [write, Number.text, String.toList_append]
    rfl
  refine .scalar hwrite rfl (by decide) rfl fun limit => ?_
  rw [readValue_minus, readNumber_repr hfits, NumberText.ofInteger, if_pos rfl, dif_pos h]

/-- **A value without doubles is read back**, in every layout that puts blanks where it may. -/
theorem readsBack_of_noDoubles (hl : l.Blank) {v : Json} (h : v.NoDoubles) : ReadsBack l v := by
  induction h with
  | null => exact .null
  | boolean b => exact .boolean b
  | @number n hn =>
    cases n with
    | unsigned n hfits => exact .unsigned hfits
    | negative n hfits => exact .negative hfits
    | double d => exact absurd rfl (hn d)
  | string s => exact .string s
  | array _ ih => exact .array hl ih
  | object _ ih => exact .object hl ih

end Layout

end ShapeContract.Json
