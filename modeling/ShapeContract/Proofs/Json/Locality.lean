import ShapeContract.Proofs.Json.Limit
import ShapeContract.Proofs.Json.ReadBack

/-!
# What is read does not depend on what follows

`Carries tail r r'` says that what `r` reads is read by `r'` as well, with `tail` behind the text
that is left.  For every function of the reader, reading a text and reading the text with more
behind it are related in this way.  Numbers are the reason for the one condition: they end where the
text goes on with something else, so what is behind must not be taken for a part of a value
(`Delimits`).

`Local` says this for the five functions that call one another, together with the fact that more
calls than are needed do no harm; it is proved by induction on the number of calls.  For a value it
is `readValue_append`.
-/

namespace ShapeContract.Json

variable {α β : Type} {tail : List Char}

/-! ### Readings -/

/-- What the first reading takes from a text is taken by the second, and left of the text is the
same with `tail` behind it. -/
def Carries (tail : List Char) (r r' : Except Fault (Taken α)) : Prop :=
  ∀ a rest, r = .ok (a, rest) → r' = .ok (a, rest ++ tail)

theorem carries_error {f : Fault} {r' : Except Fault (Taken α)} : Carries tail (.error f) r' := by
  intro a rest h
  cases h

theorem Carries.of_error {r r' : Except Fault (Taken α)} (h : ∃ f, r = .error f) :
    Carries tail r r' := by
  obtain ⟨f, rfl⟩ := h
  exact carries_error

theorem carries_ok (a : α) (rest : List Char) :
    Carries tail (.ok (a, rest)) (.ok (a, rest ++ tail)) := by
  intro a' rest' h
  cases h
  rfl

theorem Carries.bind {r r' : Except Fault (Taken α)} {k k' : Taken α → Except Fault (Taken β)}
    (h : Carries tail r r') (hk : ∀ a rest, Carries tail (k (a, rest)) (k' (a, rest ++ tail))) :
    Carries tail (r >>= k) (r' >>= k') := by
  cases r with
  | error f => exact carries_error
  | ok t =>
    obtain ⟨a, rest⟩ := t
    rw [h a rest rfl]
    exact hk a rest

theorem Carries.map {r r' : Except Fault (Taken α)} (h : Carries tail r r') (g : α → β) :
    Carries tail (r.map fun (a, rest) => (g a, rest)) (r'.map fun (a, rest) => (g a, rest)) := by
  cases r with
  | error f => exact carries_error
  | ok t =>
    obtain ⟨a, rest⟩ := t
    rw [h a rest rfl]
    exact carries_ok (g a) rest

theorem Carries.ite {p : Prop} [Decidable p] {r r' s s' : Except Fault (Taken α)}
    (hr : p → Carries tail r r') (hs : ¬ p → Carries tail s s') :
    Carries tail (if p then r else s) (if p then r' else s') := by
  split
  · exact hr ‹_›
  · exact hs ‹_›

theorem skipBlanks_append_of_cons {cs : List Char} {c : Char} {rest : List Char}
    (h : skipBlanks cs = c :: rest) (tail : List Char) :
    skipBlanks (cs ++ tail) = c :: (rest ++ tail) := by
  have hne : cs.dropWhile isBlank ≠ [] := by
    rw [← skipBlanks, h]
    exact List.cons_ne_nil _ _
  rw [skipBlanks, List.dropWhile_append, if_neg (by simpa using hne), ← skipBlanks, h,
    List.cons_append]

/-! ### Names and numbers -/

theorem carries_readLetters (v : Json) : ∀ letters cs,
    Carries tail (readLetters v letters cs) (readLetters v letters (cs ++ tail)) := by
  intro letters
  induction letters with
  | nil => exact fun cs => carries_ok v cs
  | cons l ls ih =>
    intro cs
    cases cs with
    | nil => exact carries_error
    | cons c cs =>
      rw [List.cons_append, readLetters, readLetters]
      exact .ite (fun _ => ih cs) fun _ => carries_error

/-- No digit, point or exponent begins what follows a value. -/
theorem Delimits.head {c : Char} (h : Delimits (c :: tail)) :
    isDigit c = false ∧ c ≠ '.' ∧ c ≠ 'e' ∧ c ≠ 'E' := by
  have hcases : c = ' ' ∨ c = '\n' ∨ c = '\t' ∨ c = '\r' ∨ c = ',' ∨ c = ']' ∨ c = '}' := by
    simpa [Delimits, isBlank, or_assoc] using h
  rcases hcases with rfl | rfl | rfl | rfl | rfl | rfl | rfl <;> decide

theorem readDigits_append (htail : Delimits tail) (cs : List Char) :
    readDigits (cs ++ tail) = ((readDigits cs).1, (readDigits cs).2 ++ tail) := by
  induction cs with
  | nil =>
    cases tail with
    | nil => rfl
    | cons c tail => simp [readDigits, htail.head.1]
  | cons c cs ih =>
    by_cases hc : isDigit c
    · simp only [readDigits, Prod.mk.injEq] at ih
      simp [readDigits, hc, ih]
    · simp [readDigits, hc]

theorem carries_readSomeDigits (htail : Delimits tail) (cs : List Char) :
    Carries tail (readSomeDigits cs) (readSomeDigits (cs ++ tail)) := by
  cases cs with
  | nil => exact carries_error
  | cons c cs =>
    rw [List.cons_append, readSomeDigits, readSomeDigits, ← List.cons_append,
      readDigits_append htail]
    exact .ite (fun _ => carries_ok _ _) fun _ => carries_error

theorem readWhole_of_ne {c : Char} (h : c ≠ '0') (cs : List Char) :
    readWhole (c :: cs) = readSomeDigits (c :: cs) := by
  unfold readWhole
  split
  · rename_i heq
    cases heq
    exact absurd rfl h
  · rfl

theorem carries_readWhole (htail : Delimits tail) (cs : List Char) :
    Carries tail (readWhole cs) (readWhole (cs ++ tail)) := by
  cases cs with
  | nil => exact carries_error
  | cons c cs =>
    by_cases hc : c = '0'
    · subst hc
      cases cs with
      | nil =>
        -- the zero ends the text, so what follows it decides whether it stands alone
        cases tail with
        | nil => exact carries_ok _ _
        | cons d tail =>
          rw [List.singleton_append, readWhole, htail.head.1]
          exact carries_ok [0] []
      | cons d cs => exact .ite (fun _ => carries_error) fun _ => carries_ok [0] (d :: cs)
    · rw [List.cons_append, readWhole_of_ne hc, readWhole_of_ne hc]
      exact carries_readSomeDigits htail (c :: cs)

theorem readFraction_of_ne {c : Char} (h : c ≠ '.') (cs : List Char) :
    readFraction (c :: cs) = .ok (none, c :: cs) := by
  unfold readFraction
  split
  · rename_i heq
    cases heq
    exact absurd rfl h
  · rfl

theorem carries_readFraction (htail : Delimits tail) (cs : List Char) :
    Carries tail (readFraction cs) (readFraction (cs ++ tail)) := by
  cases cs with
  | nil =>
    cases tail with
    | nil => exact carries_ok none []
    | cons d tail =>
      rw [List.nil_append, readFraction_of_ne htail.head.2.1]
      exact carries_ok none []
  | cons c cs =>
    by_cases hc : c = '.'
    · subst hc
      exact (carries_readSomeDigits htail cs).map some
    · rw [List.cons_append, readFraction_of_ne hc, readFraction_of_ne hc]
      exact carries_ok none (c :: cs)

theorem readSign_append (c : Char) (cs tail : List Char) :
    readSign (c :: cs ++ tail) = ((readSign (c :: cs)).1, (readSign (c :: cs)).2 ++ tail) := by
  by_cases hplus : c = '+'
  · rw [hplus]
    rfl
  by_cases hminus : c = '-'
  · rw [hminus]
    rfl
  · simp [readSign, hplus, hminus]

theorem carries_readExponent (htail : Delimits tail) (cs : List Char) :
    Carries tail (readExponent cs) (readExponent (cs ++ tail)) := by
  cases cs with
  | nil =>
    cases tail with
    | nil => exact carries_ok none []
    | cons d tail =>
      have hd : ¬ (d = 'e' ∨ d = 'E') := not_or.mpr htail.head.2.2
      rw [List.nil_append, readExponent, if_neg hd]
      exact carries_ok none []
  | cons c cs =>
    rw [List.cons_append, readExponent, readExponent]
    refine .ite (fun _ => ?_) fun _ => carries_ok none (c :: cs)
    cases cs with
    | nil => exact carries_error
    | cons d cs =>
      dsimp only
      rw [readSign_append]
      exact (carries_readSomeDigits htail _).map fun ds => some (_, ds)

theorem carries_readNumber (htail : Delimits tail) (negative : Bool) (cs : List Char) :
    Carries tail (readNumber negative cs) (readNumber negative (cs ++ tail)) := by
  rw [readNumber, readNumber]
  refine (carries_readWhole htail cs).bind fun whole cs => ?_
  refine (carries_readFraction htail cs).bind fun fraction cs => ?_
  refine (carries_readExponent htail cs).bind fun exponent cs => ?_
  dsimp only
  split
  · exact carries_ok _ cs
  · exact carries_error

/-! ### Strings -/

theorem carries_readHex (cs : List Char) : Carries tail (readHex cs) (readHex (cs ++ tail)) := by
  match cs with
  | [] | [_] | [_, _] | [_, _, _] =>
    unfold readHex
    split
    · exact carries_error
    · exact carries_error
  | a :: b :: c :: d :: rest =>
    refine .ite (fun _ => carries_error) fun _ => ?_
    dsimp only [List.cons_append]
    split
    · exact carries_ok _ rest
    · exact carries_error

theorem carries_readTrailing (leading : Nat) (cs : List Char) :
    Carries tail (readTrailing leading cs) (readTrailing leading (cs ++ tail)) := by
  generalize hr : readTrailing leading (cs ++ tail) = r'
  unfold readTrailing
  split
  · exact carries_error
  · exact carries_error
  · rename_i rest
    rw [← hr]
    refine (carries_readHex rest).bind fun n rest => ?_
    exact .ite (fun _ => carries_ok _ rest) fun _ => carries_error
  · exact carries_error
  · exact carries_error

theorem carries_readUnicode (cs : List Char) :
    Carries tail (readUnicode cs) (readUnicode (cs ++ tail)) := by
  rw [readUnicode, readUnicode]
  refine (carries_readHex cs).bind fun n rest => ?_
  dsimp only
  refine .ite (fun _ => carries_error) fun _ => ?_
  exact .ite (fun _ => carries_readTrailing n rest) fun _ => carries_ok _ rest

theorem carries_readEscape (cs : List Char) :
    Carries tail (readEscape cs) (readEscape (cs ++ tail)) := by
  generalize hr : readEscape (cs ++ tail) = r'
  unfold readEscape
  split
  case h_1 => exact carries_error
  case h_10 rest => exact hr ▸ carries_readUnicode rest
  case h_11 => exact carries_error
  all_goals exact hr ▸ carries_ok _ _

theorem carries_readCharacters : ∀ (fuel fuel' : Nat), fuel ≤ fuel' → ∀ cs,
    Carries tail (readCharacters fuel cs) (readCharacters fuel' (cs ++ tail)) := by
  intro fuel
  induction fuel with
  | zero =>
    intro fuel' _ cs
    rw [readCharacters]
    exact carries_error
  | succ fuel ih =>
    intro fuel' hle cs
    obtain ⟨fuel', rfl⟩ : ∃ n, fuel' = n + 1 := ⟨fuel' - 1, by omega⟩
    have hrest := ih fuel' (by omega)
    cases cs with
    | nil => exact carries_error
    | cons c cs =>
      rw [List.cons_append, readCharacters, readCharacters]
      refine .ite (fun _ => carries_ok [] cs) fun _ => ?_
      refine .ite (fun _ => ?_) fun _ => .ite (fun _ => carries_error) fun _ => ?_
      · refine (carries_readEscape cs).bind fun e cs => ?_
        exact (hrest cs).bind fun s cs => carries_ok (e :: s) cs
      · exact (hrest cs).bind fun s cs => carries_ok (c :: s) cs

theorem carries_readString (cs : List Char) :
    Carries tail (readString cs) (readString (cs ++ tail)) := by
  rw [readString, readString]
  refine (carries_readCharacters _ _ ?_ cs).map String.ofList
  rw [List.length_append]
  omega

/-! ### Values -/

/-- What the reader's functions read with a number of nested calls they also read with more calls
and with more text behind. -/
structure Local (tail : List Char) (extra fuel : Nat) : Prop where
  value : ∀ limit cs,
    Carries tail (readValue fuel limit cs) (readValue (extra + fuel) limit (cs ++ tail))
  elements : ∀ limit first cs,
    Carries tail (readElements fuel limit first cs)
      (readElements (extra + fuel) limit first (cs ++ tail))
  element : ∀ limit cs,
    Carries tail (readElement fuel limit cs) (readElement (extra + fuel) limit (cs ++ tail))
  members : ∀ limit first cs,
    Carries tail (readMembers fuel limit first cs)
      (readMembers (extra + fuel) limit first (cs ++ tail))
  member : ∀ limit cs,
    Carries tail (readMember fuel limit cs) (readMember (extra + fuel) limit (cs ++ tail))

variable {extra fuel : Nat}

theorem Local.value_succ (h : Local tail extra fuel) (htail : Delimits tail)
    (limit : Nat) (cs : List Char) :
    Carries tail (readValue (fuel + 1) limit cs)
      (readValue (extra + fuel + 1) limit (cs ++ tail)) := by
  rw [readValue, readValue]
  cases hcs : skipBlanks cs with
  | nil => exact carries_error
  | cons c rest =>
    rw [skipBlanks_append_of_cons hcs]
    dsimp only
    -- a case for each character that begins a value, in the order of the reader
    refine .ite (fun _ => carries_readLetters _ _ rest) fun _ => ?_
    refine .ite (fun _ => carries_readLetters _ _ rest) fun _ => ?_
    refine .ite (fun _ => carries_readLetters _ _ rest) fun _ => ?_
    refine .ite (fun _ => carries_readNumber htail true rest) fun _ => ?_
    refine .ite (fun _ => carries_readNumber htail false (c :: rest)) fun _ => ?_
    refine .ite (fun _ => (carries_readString rest).map Json.string) fun _ => ?_
    refine .ite (fun _ => ?_) fun _ => .ite (fun _ => ?_) fun _ => carries_error
    · cases limit with
      | zero => exact carries_error
      | succ limit => exact (h.elements limit true rest).map Json.array
    · cases limit with
      | zero => exact carries_error
      | succ limit =>
        exact (h.members limit true rest).map fun ms => Json.object (Dict.ofList ms)

theorem readElements_eq (fuel limit : Nat) (first : Bool) {cs : List Char} {c : Char}
    {rest : List Char} (h : skipBlanks cs = c :: rest) :
    readElements (fuel + 1) limit first cs =
      if c = ']' then .ok ([], rest)
      else if first then readElement fuel limit (c :: rest)
      else if c = ',' then
        match skipBlanks rest with
        | ']' :: rest => .error (.next .trailingComma (']' :: rest))
        | rest => readElement fuel limit rest
      else .error (.next .expectedListCommaOrEnd (c :: rest)) := by
  rw [readElements, h]
  by_cases hc : c = ']'
  · rw [hc]
    rfl
  · rw [if_neg hc]
    split
    case h_1 => contradiction
    case h_2 heq =>
      cases heq
      exact absurd rfl hc
    case h_3 heq =>
      cases heq
      rfl

theorem readElement_nil (fuel limit : Nat) : ∃ f, readElement fuel limit [] = .error f := by
  cases fuel with
  | zero => exact ⟨_, by rw [readElement]⟩
  | succ fuel =>
    rw [readElement]
    cases fuel with
    | zero => exact ⟨_, by rw [readValue]; rfl⟩
    | succ fuel => exact ⟨_, by rw [readValue]; rfl⟩

theorem Local.elements_succ (h : Local tail extra fuel) (limit : Nat) (first : Bool)
    (cs : List Char) :
    Carries tail (readElements (fuel + 1) limit first cs)
      (readElements (extra + fuel + 1) limit first (cs ++ tail)) := by
  cases hcs : skipBlanks cs with
  | nil =>
    rw [readElements, hcs]
    exact carries_error
  | cons c rest =>
    rw [readElements_eq fuel limit first hcs,
      readElements_eq (extra + fuel) limit first (skipBlanks_append_of_cons hcs tail)]
    refine .ite (fun _ => carries_ok [] rest) fun _ => ?_
    refine .ite (fun _ => h.element limit (c :: rest)) fun _ => ?_
    refine .ite (fun _ => ?_) fun _ => carries_error
    cases hrest : skipBlanks rest with
    | nil => exact .of_error (readElement_nil fuel limit)
    | cons d rest =>
      rw [skipBlanks_append_of_cons hrest]
      by_cases hd : d = ']'
      · rw [hd]
        exact carries_error
      · simpa [hd] using h.element limit (d :: rest)

theorem Local.element_succ (h : Local tail extra fuel) (limit : Nat)
    (cs : List Char) :
    Carries tail (readElement (fuel + 1) limit cs)
      (readElement (extra + fuel + 1) limit (cs ++ tail)) := by
  rw [readElement, readElement]
  refine (h.value limit cs).bind fun x cs => ?_
  exact (h.elements limit false cs).bind fun xs cs => carries_ok (x :: xs) cs

theorem readMembers_eq (fuel limit : Nat) (first : Bool) {cs : List Char} {c : Char}
    {rest : List Char} (h : skipBlanks cs = c :: rest) :
    readMembers (fuel + 1) limit first cs =
      if c = '}' then .ok ([], rest)
      else if first then readMember fuel limit (c :: rest)
      else if c = ',' then
        match skipBlanks rest with
        | [] => .error (.next .endInValue [])
        | '}' :: rest => .error (.next .trailingComma ('}' :: rest))
        | rest => readMember fuel limit rest
      else .error (.next .expectedObjectCommaOrEnd (c :: rest)) := by
  rw [readMembers, h]
  by_cases hc : c = '}'
  · rw [hc]
    rfl
  · rw [if_neg hc]
    split
    case h_1 => contradiction
    case h_2 heq =>
      cases heq
      exact absurd rfl hc
    case h_3 heq =>
      cases heq
      rfl

theorem Local.members_succ (h : Local tail extra fuel) (limit : Nat) (first : Bool)
    (cs : List Char) :
    Carries tail (readMembers (fuel + 1) limit first cs)
      (readMembers (extra + fuel + 1) limit first (cs ++ tail)) := by
  cases hcs : skipBlanks cs with
  | nil =>
    rw [readMembers, hcs]
    exact carries_error
  | cons c rest =>
    rw [readMembers_eq fuel limit first hcs,
      readMembers_eq (extra + fuel) limit first (skipBlanks_append_of_cons hcs tail)]
    refine .ite (fun _ => carries_ok [] rest) fun _ => ?_
    refine .ite (fun _ => h.member limit (c :: rest)) fun _ => ?_
    refine .ite (fun _ => ?_) fun _ => carries_error
    cases hrest : skipBlanks rest with
    | nil => exact carries_error
    | cons d rest =>
      rw [skipBlanks_append_of_cons hrest]
      by_cases hd : d = '}'
      · rw [hd]
        exact carries_error
      · simpa [hd] using h.member limit (d :: rest)

theorem Local.member_succ (h : Local tail extra fuel) (limit : Nat)
    (cs : List Char) :
    Carries tail (readMember (fuel + 1) limit cs)
      (readMember (extra + fuel + 1) limit (cs ++ tail)) := by
  generalize hr : readMember (extra + fuel + 1) limit (cs ++ tail) = r'
  unfold readMember
  split
  · rename_i rest
    rw [← hr, List.cons_append, readMember]
    refine (carries_readString rest).bind fun k cs => ?_
    dsimp only
    cases hcs : skipBlanks cs with
    | nil => exact carries_error
    | cons c rest =>
      rw [skipBlanks_append_of_cons hcs]
      by_cases hc : c = ':'
      · rw [hc]
        refine (h.value limit rest).bind fun v cs => ?_
        exact (h.members limit false cs).bind fun ms cs => carries_ok ((k, v) :: ms) cs
      · refine .of_error ?_
        simp [hc]
  · exact carries_error

theorem local_of_delimits (htail : Delimits tail) (extra fuel : Nat) : Local tail extra fuel := by
  induction fuel with
  | zero =>
    refine ⟨fun limit cs => .of_error ?_, fun limit first cs => .of_error ?_,
      fun limit cs => .of_error ?_, fun limit first cs => .of_error ?_,
      fun limit cs => .of_error ?_⟩
    · exact ⟨_, by rw [readValue]⟩
    · exact ⟨_, by rw [readElements]⟩
    · exact ⟨_, by rw [readElement]⟩
    · exact ⟨_, by rw [readMembers]⟩
    · exact ⟨_, by unfold readMember; rfl⟩
  | succ fuel ih =>
    exact ⟨ih.value_succ htail, ih.elements_succ, ih.element_succ, ih.members_succ, ih.member_succ⟩

/-- **Reading is local**: a value at the front of a text is read in the same way when more text
follows that cannot belong to it, and when more calls are allowed. -/
theorem readValue_append {fuel' : Nat} (htail : Delimits tail) (hle : fuel ≤ fuel') {limit : Nat}
    {cs rest : List Char} {v : Json} (h : readValue fuel limit cs = .ok (v, rest)) :
    readValue fuel' limit (cs ++ tail) = .ok (v, rest ++ tail) := by
  obtain ⟨extra, rfl⟩ := Nat.exists_eq_add_of_le' hle
  exact (local_of_delimits htail extra fuel).value limit cs v rest h

end ShapeContract.Json
