import ShapeContract.Proofs.Json.Locality

/-!
# Objects put together from texts

The text of an object may be put together from texts that are read one by one.  `Spells limit text v`
says that a text is read as a value when brackets may be nested to `limit`; `ObjectText text pairs`
says that a text is that of an object whose members are spelled in the order of `pairs`.  Blanks may
stand wherever the reader allows them, strings may be escaped in any way, and a name may come again.
Such a text is read as the table of `pairs` (`read_objectText`).

The members after the first are spelled with a comma before each, so they are read by induction with
any blanks before the next comma (`readMembers_spelled`); the first one is put on top of that.
-/

namespace ShapeContract.Json

/-! ### Spelling -/

/-- A text is read as a value, with nothing but blanks behind it, when brackets may be nested to the
limit. -/
def Spells (limit : Nat) (text : String) (v : Json) : Prop :=
  ∃ rest, readValue (3 * text.toList.length + 3) limit text.toList = .ok (v, rest) ∧
    rest.all isBlank

/-- Only a quote begins a string. -/
theorem yields_readValue_of_ne_quote {cs rest : List Char} {c : Char}
    (hcs : skipBlanks cs = c :: rest) (hc : c ≠ '"') (fuel limit : Nat) :
    Yields (fun v => v.kind ≠ .string) (readValue (fuel + 1) limit cs) := by
  have hnumber : ∀ n, (number n).kind ≠ .string := by rintro n ⟨⟩
  rw [readValue, hcs]
  dsimp only
  split
  · exact yields_readLetters (by rintro ⟨⟩) _ _
  split
  · exact yields_readLetters (by rintro ⟨⟩) _ _
  split
  · exact yields_readLetters (by rintro ⟨⟩) _ _
  split
  · exact yields_readNumber hnumber true rest
  split
  · exact yields_readNumber hnumber false (c :: rest)
  split
  · cases limit with
    | zero => exact yields_error
    | succ limit => exact (yields_true _).map fun xs _ => by rintro ⟨⟩
  split
  · cases limit with
    | zero => exact yields_error
    | succ limit =>
      exact (yields_true _).map (g := fun ms => object (Dict.ofList ms)) fun ms _ => by rintro ⟨⟩
  · exact yields_error

/-- What spells a string is a quoted string with blanks around it. -/
theorem Spells.string {limit : Nat} {text k : String} (h : Spells limit text (.string k)) :
    ∃ blanks inner rest, text.toList = blanks ++ '"' :: inner ∧ blanks.all isBlank ∧
      readString inner = .ok (k, rest) ∧ rest.all isBlank := by
  obtain ⟨rest, hread, hrest⟩ := h
  cases hcs : skipBlanks text.toList with
  | nil =>
    rw [readValue, hcs] at hread
    cases hread
  | cons c inner =>
    have hc : c = '"' := by
      by_contra hc
      exact yields_readValue_of_ne_quote hcs hc _ _ _ _ hread rfl
    subst hc
    have hblanks : (text.toList.takeWhile isBlank).all isBlank := List.all_takeWhile
    have htext : text.toList = text.toList.takeWhile isBlank ++ '"' :: inner := by
      rw [← hcs, skipBlanks, List.takeWhile_append_dropWhile]
    refine ⟨_, inner, rest, htext, hblanks, ?_, hrest⟩
    rw [htext, readValue_blanks hblanks, readValue_quote] at hread
    cases hs : readString inner with
    | error f =>
      rw [hs] at hread
      cases hread
    | ok t =>
      rw [hs] at hread
      cases hread
      rfl

/-- The texts of the name and the value of a member. -/
structure MemberText where
  name : String
  value : String

/-- The text of a member. -/
def MemberText.text (t : MemberText) : String := t.name ++ ":" ++ t.value

/-- The texts spell the name and the value. -/
def MemberText.Spells (limit : Nat) (t : MemberText) (m : String × Json) : Prop :=
  Json.Spells limit t.name (.string m.1) ∧ Json.Spells limit t.value m.2

/-- The text is that of an object: the texts of its members, with a colon in each and commas between
them, stand in braces, and between and around them there may be blanks. -/
def ObjectText (text : String) (pairs : List (String × Json)) : Prop :=
  ∃ (before inner after : String) (members : List MemberText),
    before.toList.all isBlank ∧ inner.toList.all isBlank ∧ after.toList.all isBlank ∧
    members.Forall₂ (MemberText.Spells (nestingLimit - 1)) pairs ∧
    text = before ++ "\x7b" ++ inner ++ ",".intercalate (members.map MemberText.text) ++
      "\x7d" ++ after

/-! ### Reading -/

/-- The text of members behind others. -/
def furtherText (members : List MemberText) : List Char :=
  members.flatMap fun t => ',' :: (t.name.toList ++ ':' :: t.value.toList)

variable {limit : Nat}

theorem delimits_furtherText (members : List MemberText) (after : List Char) :
    Delimits (furtherText members ++ '}' :: after) := by
  cases members with
  | nil => exact Or.inr (Or.inr (Or.inr rfl))
  | cons t members => exact Or.inr (Or.inl rfl)

/-- A member whose texts spell it is read, and then the members behind it. -/
theorem readMember_spelled {t : MemberText} {m : String × Json} (h : t.Spells limit m)
    {tail after : List Char} {ms : List (String × Json)} (htail : Delimits tail) {fuel : Nat}
    (hfuel : 3 * t.value.toList.length + 3 ≤ fuel)
    (hms : ∀ blanks : List Char, blanks.all isBlank →
      readMembers fuel limit false (blanks ++ tail) = .ok (ms, after)) :
    ∃ blanks inner, blanks.all isBlank ∧
      t.name.toList ++ ':' :: (t.value.toList ++ tail) = blanks ++ '"' :: inner ∧
      readMember (fuel + 1) limit ('"' :: inner) = .ok (m :: ms, after) := by
  obtain ⟨blanks, inner, krest, hname, hblanks, hkey, hkrest⟩ := h.1.string
  obtain ⟨vrest, hvalue, hvrest⟩ := h.2
  refine ⟨blanks, inner ++ ':' :: (t.value.toList ++ tail), hblanks, ?_, ?_⟩
  · rw [hname, List.append_assoc, List.cons_append]
  · have hkey' : readString (inner ++ ':' :: (t.value.toList ++ tail)) =
        .ok (m.1, krest ++ ':' :: (t.value.toList ++ tail)) := carries_readString inner _ _ hkey
    have hvalue' := readValue_append htail hfuel hvalue
    have hcolon : skipBlanks (krest ++ ':' :: (t.value.toList ++ tail)) =
        ':' :: (t.value.toList ++ tail) := by
      rw [skipBlanks_append hkrest, skipBlanks_cons rfl]
    rw [readMember, hkey']
    simp only [bind, Except.bind, hcolon, hvalue', hms vrest hvrest]

theorem readMembers_blanks {blanks : List Char} (h : blanks.all isBlank) (fuel limit : Nat)
    (first : Bool) (cs : List Char) :
    readMembers (fuel + 1) limit first (blanks ++ cs) = readMembers (fuel + 1) limit first cs := by
  rw [readMembers, readMembers, skipBlanks_append h]

/-- Members whose texts spell them are read, in their order. -/
theorem readMembers_spelled {members : List MemberText} {ms : List (String × Json)}
    (h : members.Forall₂ (MemberText.Spells limit) ms) (after : List Char) :
    ∀ (fuel : Nat) (blanks : List Char), 3 * (furtherText members).length + 1 ≤ fuel →
      blanks.all isBlank →
      readMembers fuel limit false (blanks ++ (furtherText members ++ '}' :: after)) =
        .ok (ms, after) := by
  induction h with
  | nil =>
    intro fuel blanks hfuel hblanks
    obtain ⟨fuel, rfl⟩ : ∃ n, fuel = n + 1 := ⟨fuel - 1, by omega⟩
    exact readMembers_close hblanks fuel limit false after
  | @cons t m members ms ht _ ih =>
    intro fuel blanks hfuel hblanks
    have hlength : (furtherText (t :: members)).length =
        2 + t.name.toList.length + t.value.toList.length + (furtherText members).length := by
      simp only [furtherText, List.flatMap_cons, List.length_append, List.length_cons]
      omega
    -- one call for the comma and one for the member
    obtain ⟨fuel, rfl⟩ : ∃ n, fuel = n + 2 := ⟨fuel - 2, by omega⟩
    obtain ⟨lead, inner, hlead, htext, hread⟩ := readMember_spelled ht
      (delimits_furtherText members after) (by omega) (fun bs hbs => ih fuel bs (by omega) hbs)
    have hsplit : furtherText (t :: members) ++ '}' :: after = ',' :: (lead ++ '"' :: inner) := by
      rw [← htext]
      simp only [furtherText, List.flatMap_cons, List.cons_append, List.append_assoc]
    rw [hsplit, readMembers_blanks hblanks, readMembers_comma hlead]
    exact hread

theorem toList_memberTexts (t : MemberText) (members : List MemberText) :
    (",".intercalate ((t :: members).map MemberText.text)).toList =
      t.name.toList ++ ':' :: (t.value.toList ++ furtherText members) := by
  induction members generalizing t with
  | nil => simp [MemberText.text, furtherText]
  | cons u members ih =>
    have hu := ih u
    rw [List.map_cons] at hu
    rw [List.map_cons, List.map_cons, String.intercalate_cons_cons, String.toList_append, hu]
    simp [MemberText.text, furtherText]

/-- What is between the braces is read as the members. -/
theorem readMembers_first_spelled {members : List MemberText} {ms : List (String × Json)}
    (h : members.Forall₂ (MemberText.Spells limit) ms) {inner : List Char}
    (hinner : inner.all isBlank) (after : List Char) {fuel : Nat}
    (hfuel : 3 * (",".intercalate (members.map MemberText.text)).toList.length + 2 ≤ fuel) :
    readMembers fuel limit true
        (inner ++ ((",".intercalate (members.map MemberText.text)).toList ++ '}' :: after)) =
      .ok (ms, after) := by
  cases h with
  | nil =>
    obtain ⟨fuel, rfl⟩ : ∃ n, fuel = n + 1 := ⟨fuel - 1, by omega⟩
    exact readMembers_close hinner fuel limit true after
  | @cons t m members ms ht hmembers =>
    rw [toList_memberTexts] at hfuel ⊢
    simp only [List.length_append, List.length_cons] at hfuel
    obtain ⟨fuel, rfl⟩ : ∃ n, fuel = n + 2 := ⟨fuel - 2, by omega⟩
    obtain ⟨lead, rest, hlead, htext, hread⟩ := readMember_spelled ht
      (delimits_furtherText members after) (by omega)
      (fun bs hbs => readMembers_spelled hmembers after fuel bs (by omega) hbs)
    have hsplit : t.name.toList ++ ':' :: (t.value.toList ++ furtherText members) ++ '}' :: after =
        lead ++ '"' :: rest := by
      rw [← htext, List.append_assoc, List.cons_append, List.append_assoc]
    rw [hsplit, readMembers_blanks hinner, readMembers_first hlead]
    exact hread

theorem readFront_objectText {text : String} {pairs : List (String × Json)}
    (h : ObjectText text pairs) :
    ∃ rest, readFront text.toList = .ok (.object (Dict.ofList pairs), rest) ∧ rest.all isBlank := by
  obtain ⟨before, inner, after, members, hbefore, hinner, hafter, hmembers, rfl⟩ := h
  refine ⟨after.toList, ?_, hafter⟩
  generalize hbody : ",".intercalate (members.map MemberText.text) = body
  have htext : (before ++ "\x7b" ++ inner ++ body ++ "\x7d" ++ after).toList =
      before.toList ++ '{' :: (inner.toList ++ (body.toList ++ '}' :: after.toList)) := by
    simp
  rw [htext, readFront, readValue_blanks hbefore,
    show nestingLimit = nestingLimit - 1 + 1 from rfl, readValue_brace_succ, ← hbody,
    readMembers_first_spelled hmembers hinner]
  · rfl
  · rw [hbody]
    simp only [List.length_append, List.length_cons]
    omega

/-- **The text of an object is read as the table of its members**: of a name that is spelled again
the last value counts. -/
theorem read_objectText {text : String} {pairs : List (String × Json)} (h : ObjectText text pairs) :
    read text = .ok (.object (Dict.ofList pairs)) := by
  obtain ⟨rest, hread, hrest⟩ := readFront_objectText h
  rw [read, readAll, hread]
  show (do readEnd rest; Except.ok _ : Except Fault Json).mapError _ = _
  have hend := skipBlanks_append hrest []
  rw [List.append_nil] at hend
  rw [readEnd, hend]
  rfl

end ShapeContract.Json
