import ShapeContract.Json.Reader
import ShapeContract.Json.Writer
import ShapeContract.Proofs.Json.Height

/-!
# Written values are read back

What the writer puts down is read as the value it was written for, and the text after it is left
unread, as long as the arrays and objects in one another do not exceed the limit; beyond it reading
ends with the fault of too deep a nesting.  `Limited` says both at once, so that one induction goes
through for either ending: a part of height `m` and a rest of height `n` make a whole of height
`max m n` (`Limited.bind`), and a bracket adds one (`Limited.bracket`).

`ReadsBack l v` is this for a value in a layout.  It holds of strings, of arrays if it holds of
their elements and of objects if it holds of their members (`ReadsBack.string`, `ReadsBack.array`,
`ReadsBack.object`), in every layout that puts blanks where it may (`Layout.Blank`).

The reader's bound on nested calls plays no part: three calls for every written character are
enough.
-/

namespace ShapeContract.Json

variable {α β : Type}

/-! ### Strings -/

theorem hexValue?_hexDigit : ∀ n < 16, hexValue? (hexDigit n) = some n := by decide

theorem utf8Size_hexDigit : ∀ n < 16, (hexDigit n).utf8Size = 1 := by decide

/-- The escape of a control character is read as that character. -/
theorem readUnicode_control {n : Nat} (h : n < 32) (cs : List Char) :
    readUnicode ('0' :: '0' :: hexDigit (n / 16) :: hexDigit (n % 16) :: cs) =
      .ok (Char.ofNat n, cs) := by
  have hhigh := hexValue?_hexDigit (n / 16) (by omega)
  have hlow := hexValue?_hexDigit (n % 16) (by omega)
  have hzero : hexValue? '0' = some 0 := by decide
  have hbytes : byteLength ['0', '0', hexDigit (n / 16), hexDigit (n % 16)] = 4 := by
    simp only [byteLength, List.foldr_cons, List.foldr_nil,
      utf8Size_hexDigit (n / 16) (by omega), utf8Size_hexDigit (n % 16) (by omega)]
    decide
  have hread : readHex ('0' :: '0' :: hexDigit (n / 16) :: hexDigit (n % 16) :: cs) =
      .ok (n, cs) := by
    rw [readHex, List.take_succ_cons, List.take_succ_cons, List.take_succ_cons,
      List.take_succ_cons, List.take_zero, hbytes, if_neg (by decide)]
    simp only [hzero, hhigh, hlow]
    rw [show ((0 * 16 + 0) * 16 + n / 16) * 16 + n % 16 = n by omega]
  rw [readUnicode, hread]
  show (if 0xDC00 ≤ n ∧ n ≤ 0xDFFF then _ else if 0xD800 ≤ n ∧ n ≤ 0xDBFF then _ else _) = _
  rw [if_neg (by omega), if_neg (by omega)]

theorem readCharacters_escape {c : Char} {cs rest : List Char} (h : readEscape cs = .ok (c, rest))
    (fuel : Nat) :
    readCharacters (fuel + 1) ('\\' :: cs) =
      (readCharacters fuel rest).map fun (s, rest) => (c :: s, rest) := by
  rw [readCharacters, if_neg (by decide), if_pos rfl, h]
  cases hr : readCharacters fuel rest <;> simp [bind, Except.bind, Except.map, hr]

/-- A written character is read as that character. -/
theorem readCharacters_escapeChar (c : Char) (fuel : Nat) (cs : List Char) :
    readCharacters (fuel + 1) (escapeChar c ++ cs) =
      (readCharacters fuel cs).map fun (s, rest) => (c :: s, rest) := by
  unfold escapeChar
  split
  iterate 7 exact readCharacters_escape rfl fuel
  rename_i hquote hbackslash _ _ _ _ _
  split
  · rename_i hcontrol
    have hread : readEscape
        ('u' :: '0' :: '0' :: hexDigit (c.toNat / 16) :: hexDigit (c.toNat % 16) :: cs) =
          .ok (c, cs) := by
      rw [readEscape, readUnicode_control hcontrol, Char.ofNat_toNat]
    exact readCharacters_escape hread fuel
  · rename_i hcontrol
    rw [List.singleton_append, readCharacters, if_neg hquote, if_neg hbackslash, if_neg hcontrol]
    cases hr : readCharacters fuel cs <;> rfl

theorem readCharacters_escaped (s rest : List Char) : ∀ fuel, s.length < fuel →
    readCharacters fuel (s.flatMap escapeChar ++ '"' :: rest) = .ok (s, rest) := by
  induction s with
  | nil =>
    intro fuel hfuel
    obtain ⟨fuel, rfl⟩ : ∃ n, fuel = n + 1 := ⟨fuel - 1, by omega⟩
    rw [List.flatMap_nil, List.nil_append, readCharacters, if_pos rfl]
  | cons c s ih =>
    intro fuel hfuel
    rw [List.length_cons] at hfuel
    obtain ⟨fuel, rfl⟩ : ∃ n, fuel = n + 1 := ⟨fuel - 1, by omega⟩
    rw [List.flatMap_cons, List.append_assoc, readCharacters_escapeChar, ih fuel (by omega)]
    rfl

theorem length_le_flatMap_escapeChar (s : List Char) :
    s.length ≤ (s.flatMap escapeChar).length := by
  induction s with
  | nil => exact Nat.le_refl 0
  | cons c s ih =>
    have hc : 0 < (escapeChar c).length := by
      unfold escapeChar
      split <;> (try split) <;> exact Nat.succ_pos _
    rw [List.flatMap_cons, List.length_append, List.length_cons]
    omega

/-- **A quoted string is read as the string**, whatever its characters are and whatever follows. -/
theorem readString_escaped (s : String) (rest : List Char) :
    readString (s.toList.flatMap escapeChar ++ '"' :: rest) = .ok (s, rest) := by
  have hfuel : s.toList.length < (s.toList.flatMap escapeChar ++ '"' :: rest).length + 1 := by
    have := length_le_flatMap_escapeChar s.toList
    rw [List.length_append]
    omega
  rw [readString, readCharacters_escaped s.toList rest _ hfuel]
  show Except.ok (String.ofList s.toList, rest) = _
  rw [String.ofList_toList]

/-! ### Blanks -/

/-- A layout that puts nothing but blanks before an element and behind a colon. -/
structure Layout.Blank (l : Layout) : Prop where
  line : ∀ depth, (l.line depth).all isBlank
  colon : ∃ blanks, l.colon = ':' :: blanks ∧ blanks.all isBlank

theorem Layout.blank_compact : Layout.compact.Blank := ⟨fun _ => rfl, [], rfl, rfl⟩

theorem Layout.blank_indented : Layout.indented.Blank := by
  refine ⟨fun depth => ?_, [' '], rfl, rfl⟩
  rw [Layout.indented, List.all_cons, List.all_replicate]
  simp [isBlank]

theorem skipBlanks_append {blanks : List Char} (h : blanks.all isBlank) (cs : List Char) :
    skipBlanks (blanks ++ cs) = skipBlanks cs := by
  induction blanks with
  | nil => rfl
  | cons c blanks ih =>
    rw [List.all_cons, Bool.and_eq_true] at h
    rw [skipBlanks, List.cons_append, List.dropWhile_cons, if_pos h.1]
    exact ih h.2

theorem skipBlanks_cons {c : Char} (h : isBlank c = false) (cs : List Char) :
    skipBlanks (c :: cs) = c :: cs := by
  rw [skipBlanks, List.dropWhile_cons, h]
  rfl

theorem readValue_blanks {blanks : List Char} (h : blanks.all isBlank) (fuel depth : Nat)
    (cs : List Char) :
    readValue (fuel + 1) depth (blanks ++ cs) = readValue (fuel + 1) depth cs := by
  rw [readValue, readValue, skipBlanks_append h]

/-- What comes next is no part of a value that has just been read. -/
def Delimits : List Char → Prop
  | [] => True
  | c :: _ => isBlank c ∨ c = ',' ∨ c = ']' ∨ c = '}'

theorem delimits_append {blanks : List Char} (h : blanks.all isBlank) {cs : List Char}
    (hcs : Delimits cs) : Delimits (blanks ++ cs) := by
  cases blanks with
  | nil => exact hcs
  | cons c blanks =>
    rw [List.all_cons, Bool.and_eq_true] at h
    exact Or.inl h.1

/-! ### Reading under a limit -/

/-- Something `n` brackets deep is read if that is within the limit, and otherwise the fault is that
it is nested too deeply. -/
def Limited (n limit : Nat) (r : Except Fault α) (a : α) : Prop :=
  (n ≤ limit → r = .ok a) ∧ (limit < n → ∃ f, r = .error f ∧ f.cause = .nestedTooDeeply)

theorem limited_zero {limit : Nat} {r : Except Fault α} {a : α} (h : r = .ok a) :
    Limited 0 limit r a := ⟨fun _ => h, fun hlt => absurd hlt (Nat.not_lt_zero limit)⟩

/-- What is read in two parts is as deep as the deeper of them. -/
theorem Limited.bind {m n limit : Nat} {r : Except Fault α} {a : α} {k : α → Except Fault β} {b : β}
    (hr : Limited m limit r a) (hk : Limited n limit (k a) b) :
    Limited (max m n) limit (r >>= k) b := by
  by_cases hm : m ≤ limit
  · rw [hr.1 hm]
    exact ⟨fun h => hk.1 (by omega), fun h => hk.2 (by omega)⟩
  · obtain ⟨f, hf, hcause⟩ := hr.2 (by omega)
    rw [hf]
    exact ⟨fun h => absurd h (by omega), fun _ => ⟨f, rfl, hcause⟩⟩

theorem Limited.map {n limit : Nat} {r : Except Fault α} {a : α} (h : Limited n limit r a)
    (g : α → β) : Limited n limit (r.map g) (g a) := by
  constructor
  · intro hn
    rw [h.1 hn]
    rfl
  · intro hn
    obtain ⟨f, hf, hcause⟩ := h.2 hn
    exact ⟨f, by rw [hf]; rfl, hcause⟩

/-- A bracket needs one, and leaves the others for what is inside. -/
theorem Limited.bracket {n : Nat} {r : Nat → Except Fault α} {a : α} {cs : List Char}
    (hzero : r 0 = .error (.next .nestedTooDeeply cs))
    (hsucc : ∀ limit, Limited n limit (r (limit + 1)) a) (limit : Nat) :
    Limited (1 + n) limit (r limit) a := by
  cases limit with
  | zero => exact ⟨fun h => absurd h (by omega), fun _ => ⟨_, hzero, rfl⟩⟩
  | succ limit => exact ⟨fun hn => (hsucc limit).1 (by omega), fun hn => (hsucc limit).2 (by omega)⟩

/-! ### Values -/

theorem readValue_quote (fuel limit : Nat) (cs : List Char) :
    readValue (fuel + 1) limit ('"' :: cs) =
      (readString cs).map fun (s, rest) => (.string s, rest) := by
  simp +decide [readValue, skipBlanks_cons (show isBlank '"' = false from rfl)]

theorem readValue_bracket_zero (fuel : Nat) (cs : List Char) :
    readValue (fuel + 1) 0 ('[' :: cs) = .error (.next .nestedTooDeeply ('[' :: cs)) := by
  simp +decide [readValue, skipBlanks_cons (show isBlank '[' = false from rfl)]

theorem readValue_bracket_succ (fuel limit : Nat) (cs : List Char) :
    readValue (fuel + 1) (limit + 1) ('[' :: cs) =
      (readElements fuel limit true cs).map fun (xs, rest) => (.array xs, rest) := by
  simp +decide [readValue, skipBlanks_cons (show isBlank '[' = false from rfl)]

theorem readValue_brace_zero (fuel : Nat) (cs : List Char) :
    readValue (fuel + 1) 0 ('{' :: cs) = .error (.next .nestedTooDeeply ('{' :: cs)) := by
  simp +decide [readValue, skipBlanks_cons (show isBlank '{' = false from rfl)]

theorem readValue_brace_succ (fuel limit : Nat) (cs : List Char) :
    readValue (fuel + 1) (limit + 1) ('{' :: cs) =
      (readMembers fuel limit true cs).map fun (ms, rest) => (.object (Dict.ofList ms), rest) := by
  simp +decide [readValue, skipBlanks_cons (show isBlank '{' = false from rfl)]

theorem readElements_close {blanks : List Char} (h : blanks.all isBlank) (fuel limit : Nat)
    (first : Bool) (rest : List Char) :
    readElements (fuel + 1) limit first (blanks ++ ']' :: rest) = .ok ([], rest) := by
  rw [readElements, skipBlanks_append h, skipBlanks_cons rfl]
  rfl

theorem readElements_first {blanks : List Char} (h : blanks.all isBlank) (fuel limit : Nat)
    {c : Char} (hblank : isBlank c = false) (hne : c ≠ ']') (cs : List Char) :
    readElements (fuel + 1) limit true (blanks ++ c :: cs) = readElement fuel limit (c :: cs) := by
  rw [readElements, skipBlanks_append h, skipBlanks_cons hblank]
  simp

theorem readElements_comma {blanks : List Char} (h : blanks.all isBlank) (fuel limit : Nat)
    {c : Char} (hblank : isBlank c = false) (hne : c ≠ ']') (cs : List Char) :
    readElements (fuel + 1) limit false (',' :: (blanks ++ c :: cs)) =
      readElement fuel limit (c :: cs) := by
  rw [readElements, skipBlanks_cons rfl]
  simp [skipBlanks_append h, skipBlanks_cons hblank, hne]

theorem readMembers_close {blanks : List Char} (h : blanks.all isBlank) (fuel limit : Nat)
    (first : Bool) (rest : List Char) :
    readMembers (fuel + 1) limit first (blanks ++ '}' :: rest) = .ok ([], rest) := by
  rw [readMembers, skipBlanks_append h, skipBlanks_cons rfl]
  rfl

theorem readMembers_first {blanks : List Char} (h : blanks.all isBlank) (fuel limit : Nat)
    (cs : List Char) :
    readMembers (fuel + 1) limit true (blanks ++ '"' :: cs) =
      readMember fuel limit ('"' :: cs) := by
  rw [readMembers, skipBlanks_append h, skipBlanks_cons rfl]
  rfl

theorem readMembers_comma {blanks : List Char} (h : blanks.all isBlank) (fuel limit : Nat)
    (cs : List Char) :
    readMembers (fuel + 1) limit false (',' :: (blanks ++ '"' :: cs)) =
      readMember fuel limit ('"' :: cs) := by
  rw [readMembers, skipBlanks_cons rfl]
  simp [skipBlanks_append h, skipBlanks_cons (show isBlank '"' = false from rfl)]

/-- A value is read back from what is written for it in a layout. -/
structure ReadsBack (l : Layout) (v : Json) : Prop where
  begins : ∀ d, ∃ c cs, v.write l d = c :: cs ∧ isBlank c = false ∧ c ≠ ']'
  reads : ∀ d fuel limit rest, 3 * (v.write l d).length ≤ fuel → Delimits rest →
    Limited v.nesting limit (readValue fuel limit (v.write l d ++ rest)) (v, rest)

section Layout

variable {l : Layout}

theorem ReadsBack.string (s : String) : ReadsBack l (string s) := by
  constructor
  · intro d
    exact ⟨'"', _, rfl, rfl, by decide⟩
  · intro d fuel limit rest hfuel _
    have hwrite : (Json.string s).write l d ++ rest =
        '"' :: (s.toList.flatMap escapeChar ++ '"' :: rest) := by
      simp [write, quoted]
    obtain ⟨fuel, rfl⟩ : ∃ n, fuel = n + 1 := ⟨fuel - 1, by
      have : 0 < ((Json.string s).write l d).length := Nat.succ_pos _
      omega⟩
    refine limited_zero ?_
    rw [hwrite, readValue_quote, readString_escaped]
    rfl

theorem delimits_writeElements (hl : l.Blank) (d : Nat) (xs : List Json) (rest : List Char) :
    Delimits (writeElements l d xs ++ rest) := by
  cases xs with
  | nil =>
    rw [writeElements, List.append_assoc]
    exact delimits_append (hl.line d) (Or.inr (Or.inr (Or.inl rfl)))
  | cons x xs => exact Or.inr (Or.inl rfl)

theorem delimits_writeMembers (hl : l.Blank) (d : Nat) {b : Option String} (ms : Fields Json b)
    (rest : List Char) : Delimits (writeMembers l d ms ++ rest) := by
  cases ms with
  | nil =>
    rw [writeMembers, List.append_assoc]
    exact delimits_append (hl.line d) (Or.inr (Or.inr (Or.inr rfl)))
  | cons k above v ms => exact Or.inr (Or.inl rfl)

/-- An element and what is written for the elements after it. -/
theorem limited_readElement {x : Json} {xs : List Json} {n d fuel limit : Nat} {rest : List Char}
    (hl : l.Blank) (hx : ReadsBack l x) (hfuel : 3 * (x.write l (d + 1)).length ≤ fuel)
    (hxs : Limited n limit (readElements fuel limit false (writeElements l d xs ++ rest))
      (xs, rest)) :
    Limited (max x.nesting n) limit
      (readElement (fuel + 1) limit (x.write l (d + 1) ++ (writeElements l d xs ++ rest)))
      (x :: xs, rest) := by
  rw [readElement]
  refine Limited.bind
    (hx.reads (d + 1) fuel limit _ hfuel (delimits_writeElements hl d xs rest)) ?_
  exact hxs.map fun (xs, rest) => (x :: xs, rest)

theorem limited_readElements (hl : l.Blank) {d limit : Nat} {rest : List Char} :
    ∀ (xs : List Json) (fuel : Nat), (∀ x ∈ xs, ReadsBack l x) →
      3 * (writeElements l d xs).length ≤ fuel →
      Limited (heightOfElements 0 xs) limit
        (readElements fuel limit false (writeElements l d xs ++ rest)) (xs, rest) := by
  intro xs
  induction xs with
  | nil =>
    intro fuel _ hfuel
    rw [writeElements, List.length_append, List.length_singleton] at hfuel
    obtain ⟨fuel, rfl⟩ : ∃ n, fuel = n + 1 := ⟨fuel - 1, by omega⟩
    rw [writeElements, List.append_assoc, List.singleton_append]
    exact limited_zero (readElements_close (hl.line d) fuel limit false rest)
  | cons x xs ih =>
    intro fuel hback hfuel
    rw [List.forall_mem_cons] at hback
    obtain ⟨c, cs, hwrite, hblank, hne⟩ := hback.1.begins (d + 1)
    have hlength : 1 + (x.write l (d + 1)).length + (writeElements l d xs).length ≤
        (writeElements l d (x :: xs)).length := by
      rw [writeElements]
      simp only [List.cons_append, List.length_cons, List.length_append]
      omega
    -- one call for the comma and one for the element
    obtain ⟨fuel, rfl⟩ : ∃ n, fuel = n + 2 := ⟨fuel - 2, by omega⟩
    have hread : readElements (fuel + 2) limit false (writeElements l d (x :: xs) ++ rest) =
        readElement (fuel + 1) limit (x.write l (d + 1) ++ (writeElements l d xs ++ rest)) := by
      rw [writeElements, hwrite]
      simp only [List.cons_append, List.append_assoc]
      exact readElements_comma (hl.line (d + 1)) (fuel + 1) limit hblank hne _
    rw [hread]
    exact limited_readElement hl hback.1 (by omega) (ih fuel hback.2 (by omega))

theorem ReadsBack.array (hl : l.Blank) {xs : List Json} (h : ∀ x ∈ xs, ReadsBack l x) :
    ReadsBack l (array xs) := by
  cases xs with
  | nil =>
    refine ⟨fun d => ⟨'[', [']'], rfl, rfl, by decide⟩, ?_⟩
    intro d fuel limit rest hfuel _
    obtain ⟨fuel, rfl⟩ : ∃ n, fuel = n + 2 := ⟨fuel - 2, by
      have : ((Json.array []).write l d).length = 2 := rfl
      omega⟩
    refine Limited.bracket (r := fun limit => readValue (fuel + 2) limit ('[' :: ']' :: rest))
      (readValue_bracket_zero (fuel + 1) _) (fun limit => ?_) limit
    rw [readValue_bracket_succ]
    exact (limited_zero (readElements_close List.all_nil fuel limit true rest)).map
      fun (xs, rest) => (Json.array xs, rest)
  | cons x xs =>
    rw [List.forall_mem_cons] at h
    refine ⟨fun d => ⟨'[', _, rfl, rfl, by decide⟩, ?_⟩
    intro d fuel limit rest hfuel _
    obtain ⟨c, cs, hwrite, hblank, hne⟩ := h.1.begins (d + 1)
    have htext : (Json.array (x :: xs)).write l d ++ rest =
        '[' :: (l.line (d + 1) ++ (x.write l (d + 1) ++ (writeElements l d xs ++ rest))) := by
      rw [write]
      simp only [List.cons_append, List.append_assoc]
    have hlength : 1 + (x.write l (d + 1)).length + (writeElements l d xs).length ≤
        ((Json.array (x :: xs)).write l d).length := by
      rw [write]
      simp only [List.cons_append, List.length_cons, List.length_append]
      omega
    obtain ⟨fuel, rfl⟩ : ∃ n, fuel = n + 3 := ⟨fuel - 3, by omega⟩
    rw [htext]
    refine Limited.bracket (r := fun limit => readValue (fuel + 3) limit _)
      (readValue_bracket_zero (fuel + 2) _) (fun limit => ?_) limit
    have hread : readElements (fuel + 2) limit true
          (l.line (d + 1) ++ (x.write l (d + 1) ++ (writeElements l d xs ++ rest))) =
        readElement (fuel + 1) limit (x.write l (d + 1) ++ (writeElements l d xs ++ rest)) := by
      rw [hwrite]
      exact readElements_first (hl.line (d + 1)) (fuel + 1) limit hblank hne _
    rw [readValue_bracket_succ, hread]
    exact (limited_readElement (d := d) hl h.1 (by omega)
      (limited_readElements hl xs fuel h.2 (by omega))).map fun (xs, rest) => (Json.array xs, rest)

/-- A member and what is written for the members after it. -/
theorem limited_readMember {b : Option String} {k : String} {v : Json} {ms : Fields Json b}
    {n d fuel limit : Nat} {rest : List Char} (hl : l.Blank) (hv : ReadsBack l v)
    (hfuel : 3 * (v.write l (d + 1)).length ≤ fuel)
    (hms : Limited n limit (readMembers fuel limit false (writeMembers l d ms ++ rest))
      (ms.toList, rest)) :
    Limited (max v.nesting n) limit
      (readMember (fuel + 1) limit (quoted k ++ l.colon ++
        (v.write l (d + 1) ++ (writeMembers l d ms ++ rest))))
      ((k, v) :: ms.toList, rest) := by
  obtain ⟨blanks, hcolon, hblanks⟩ := hl.colon
  obtain ⟨c, cs, hwrite, -, -⟩ := hv.begins (d + 1)
  have hvalue := hv.reads (d + 1) fuel limit _ hfuel (delimits_writeMembers hl d ms rest)
  obtain ⟨fuel, rfl⟩ : ∃ n, fuel = n + 1 := ⟨fuel - 1, by
    rw [hwrite, List.length_cons] at hfuel
    omega⟩
  have htext : quoted k ++ l.colon ++ (v.write l (d + 1) ++ (writeMembers l d ms ++ rest)) =
      '"' :: (k.toList.flatMap escapeChar ++
        '"' :: ':' :: (blanks ++ (v.write l (d + 1) ++ (writeMembers l d ms ++ rest)))) := by
    simp [quoted, hcolon]
  rw [htext, readMember]
  simp only [readString_escaped]
  rw [← readValue_blanks hblanks] at hvalue
  refine hvalue.bind ?_
  exact hms.map fun (ms, rest) => ((k, v) :: ms, rest)

theorem limited_readMembers (hl : l.Blank) {d limit : Nat} {rest : List Char} :
    ∀ {b : Option String} (ms : Fields Json b) (fuel : Nat), (∀ m ∈ ms.toList, ReadsBack l m.2) →
      3 * (writeMembers l d ms).length ≤ fuel →
      Limited (heightOfMembers 0 ms) limit
        (readMembers fuel limit false (writeMembers l d ms ++ rest)) (ms.toList, rest) := by
  intro b ms
  induction ms with
  | nil =>
    intro fuel _ hfuel
    rw [writeMembers, List.length_append, List.length_singleton] at hfuel
    obtain ⟨fuel, rfl⟩ : ∃ n, fuel = n + 1 := ⟨fuel - 1, by omega⟩
    rw [writeMembers, List.append_assoc, List.singleton_append]
    exact limited_zero (readMembers_close (hl.line d) fuel limit false rest)
  | cons k above v ms ih =>
    intro fuel hback hfuel
    rw [Fields.toList, List.forall_mem_cons] at hback
    have htext : writeMembers l d (.cons k above v ms) ++ rest =
        ',' :: (l.line (d + 1) ++ (quoted k ++ l.colon ++
          (v.write l (d + 1) ++ (writeMembers l d ms ++ rest)))) := by
      rw [writeMembers]
      simp only [List.cons_append, List.append_assoc]
    have hlength : 1 + (v.write l (d + 1)).length + (writeMembers l d ms).length ≤
        (writeMembers l d (.cons k above v ms)).length := by
      rw [writeMembers]
      simp only [List.cons_append, List.length_cons, List.length_append]
      omega
    obtain ⟨fuel, rfl⟩ : ∃ n, fuel = n + 2 := ⟨fuel - 2, by omega⟩
    rw [htext, show quoted k = '"' :: (k.toList.flatMap escapeChar ++ ['"']) from rfl,
      List.cons_append, List.cons_append, readMembers_comma (hl.line (d + 1))]
    exact limited_readMember hl hback.1 (by omega) (ih fuel hback.2 (by omega))

theorem ReadsBack.object (hl : l.Blank) {ms : Fields Json none}
    (h : ∀ m ∈ ms.toList, ReadsBack l m.2) : ReadsBack l (object ms) := by
  cases ms with
  | nil =>
    refine ⟨fun d => ⟨'{', ['}'], rfl, rfl, by decide⟩, ?_⟩
    intro d fuel limit rest hfuel _
    obtain ⟨fuel, rfl⟩ : ∃ n, fuel = n + 2 := ⟨fuel - 2, by
      have : ((Json.object .nil).write l d).length = 2 := rfl
      omega⟩
    refine Limited.bracket (r := fun limit => readValue (fuel + 2) limit ('{' :: '}' :: rest))
      (readValue_brace_zero (fuel + 1) _) (fun limit => ?_) limit
    rw [readValue_brace_succ]
    exact (limited_zero (readMembers_close List.all_nil fuel limit true rest)).map
      fun (ms, rest) => (Json.object (Dict.ofList ms), rest)
  | cons k above v ms =>
    -- the reader sorts the members anew, which changes nothing
    have hsame : Json.object (Dict.ofList ((k, v) :: ms.toList)) =
        .object (.cons k above v ms) :=
      congrArg Json.object (Dict.ofList_toList (.cons k above v ms))
    rw [Fields.toList, List.forall_mem_cons] at h
    have hv : ReadsBack l v := h.1
    refine ⟨fun d => ⟨'{', _, rfl, rfl, by decide⟩, ?_⟩
    intro d fuel limit rest hfuel _
    have htext : (Json.object (.cons k above v ms)).write l d ++ rest =
        '{' :: (l.line (d + 1) ++ (quoted k ++ l.colon ++
          (v.write l (d + 1) ++ (writeMembers l d ms ++ rest)))) := by
      rw [write]
      simp only [List.cons_append, List.append_assoc]
    have hlength : 1 + (v.write l (d + 1)).length + (writeMembers l d ms).length ≤
        ((Json.object (.cons k above v ms)).write l d).length := by
      rw [write]
      simp only [List.cons_append, List.length_cons, List.length_append]
      omega
    obtain ⟨fuel, rfl⟩ : ∃ n, fuel = n + 3 := ⟨fuel - 3, by omega⟩
    rw [htext]
    refine Limited.bracket (r := fun limit => readValue (fuel + 3) limit _)
      (readValue_brace_zero (fuel + 2) _) (fun limit => ?_) limit
    have hread : readMembers (fuel + 2) limit true (l.line (d + 1) ++ (quoted k ++ l.colon ++
          (v.write l (d + 1) ++ (writeMembers l d ms ++ rest)))) =
        readMember (fuel + 1) limit (quoted k ++ l.colon ++
          (v.write l (d + 1) ++ (writeMembers l d ms ++ rest))) :=
      readMembers_first (hl.line (d + 1)) (fuel + 1) limit _
    rw [readValue_brace_succ, hread, ← hsame]
    exact (limited_readMember (d := d) hl hv (by omega)
      (limited_readMembers hl ms fuel h.2 (by omega))).map
        fun (ms, rest) => (Json.object (Dict.ofList ms), rest)

end Layout

/-! ### Texts -/

/-- The text of a value in any layout is read as the value, with blanks behind it, if the brackets
do not exceed the limit. -/
theorem read_write {l : Layout} {v : Json} (h : ReadsBack l v) (hlimit : v.nesting ≤ nestingLimit)
    {blanks : List Char} (hblanks : blanks.all isBlank) :
    read (String.ofList (v.write l 0 ++ blanks)) = .ok v := by
  have hdelimits : Delimits blanks := by
    rw [← List.append_nil blanks]
    exact delimits_append hblanks trivial
  have hend : skipBlanks blanks = [] := by
    rw [← List.append_nil blanks]
    exact skipBlanks_append hblanks []
  have hread := (h.reads 0 (3 * (v.write l 0 ++ blanks).length + 3) nestingLimit blanks
    (by rw [List.length_append]; omega) hdelimits).1 hlimit
  rw [read, String.toList_ofList, readAll, readFront, hread]
  show (do readEnd blanks; Except.ok v : Except Fault Json).mapError _ = _
  rw [readEnd, hend]
  rfl

/-- The compact text of a value is read as the value within the limit on nested brackets, and ends
in the error of too deep a nesting beyond it. -/
theorem read_text {v : Json} (h : ReadsBack .compact v) :
    (v.nesting ≤ nestingLimit → read v.text = .ok v) ∧
      (nestingLimit < v.nesting → ∃ e, read v.text = .error e ∧ e.cause = .nestedTooDeeply) := by
  constructor
  · intro hn
    have hread := read_write h hn List.all_nil
    rwa [List.append_nil] at hread
  · intro hn
    have hread := h.reads 0 (3 * (v.write .compact 0).length + 3) nestingLimit [] (by omega) trivial
    obtain ⟨f, hf, hcause⟩ := hread.2 hn
    rw [List.append_nil] at hf
    rw [read, text, String.toList_ofList, readAll, readFront, hf]
    exact ⟨_, rfl, hcause⟩

end ShapeContract.Json
