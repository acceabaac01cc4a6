import ShapeContract.Json.Reader

/-!
# Relayed errors

An error that arises while a value that has been read is decoded is relayed as one of the reader's,
and all that is known of it is its message. When the message ends with a place, in the words that
the reader uses for its own places, that is taken for the place of the error and written anew at
the end: without zeros at the front of its numbers, and not at all if its line is zero, since lines
count from one.

* `splitLast_eq_some`: what is split at a word is put together again by the word.
* `Relayed.text_ofMessage_of_none`: a message without a place is relayed as it is.
-/

namespace ShapeContract

namespace Json

/-- Split a text at the last occurrence of a word. -/
def splitLast (word : List Char) : List Char → Option (List Char × List Char)
  | [] => none
  | c :: cs =>
    match splitLast word cs with
    | some (before, after) => some (c :: before, after)
    | none =>
      if word.isPrefixOf (c :: cs) then some ([], (c :: cs).drop word.length) else none

/-- The two parts of a split text with the word between them are the text. -/
theorem splitLast_eq_some {word text before after : List Char}
    (h : splitLast word text = some (before, after)) : text = before ++ word ++ after := by
  induction text generalizing before with
  | nil => simp [splitLast] at h
  | cons c cs ih =>
    unfold splitLast at h
    split at h
    · next b a hs =>
      obtain ⟨rfl, rfl⟩ := by simpa using h
      simp [ih hs]
    · split at h
      · next hp =>
        obtain ⟨rfl, rfl⟩ := by simpa using h
        obtain ⟨rest, hrest⟩ := List.isPrefixOf_iff_prefix.1 hp
        simp [← hrest]
      · simp at h

/-- The number of 64 bits that decimal digits at the front of a text stand for, and the rest. -/
def readWord (cs : List Char) : Option (Nat × List Char) :=
  let (digits, rest) := readDigits cs
  match appendDigits wordBound 0 digits with
  | (n, []) => if digits.isEmpty then none else some (n, rest)
  | _ => none

/-- The place that a text is, after the words that introduce one. -/
def readPlace (cs : List Char) : Option Place :=
  match readWord cs with
  | none => none
  | some (line, rest) =>
    if Place.columnWord.toList.isPrefixOf rest then
      match readWord (rest.drop Place.columnWord.length) with
      | some (column, []) => some ⟨line, column⟩
      | _ => none
    else none

/-- An error that is known by its message, with its place if it has one. -/
structure Relayed where
  reason : String
  place : Option Place
  deriving DecidableEq, Repr

namespace Relayed

/-- The error with a message, where a place at the end of the message is the place of the error. -/
def ofMessage (message : String) : Relayed :=
  match splitLast Place.lineWord.toList message.toList with
  | none => ⟨message, none⟩
  | some (reason, rest) =>
    match readPlace rest with
    | some place => ⟨String.ofList reason, some place⟩
    | none => ⟨message, none⟩

/-- The message that is relayed. -/
def text (e : Relayed) : String :=
  match e.place with
  | some place => if place.line = 0 then e.reason else e.reason ++ place.text
  | none => e.reason

/-- A message that does not end with a place is the whole reason. -/
theorem reason_ofMessage_of_none {message : String} (h : (ofMessage message).place = none) :
    (ofMessage message).reason = message := by
  unfold ofMessage at h ⊢
  cases hs : splitLast Place.lineWord.toList message.toList with
  | none => rfl
  | some parts =>
    rw [hs] at h
    cases hp : readPlace parts.2 with
    | none => simp [hp]
    | some place => simp [hp] at h

/-- A message that does not end with a place is relayed as it is. -/
theorem text_ofMessage_of_none {message : String} (h : (ofMessage message).place = none) :
    (ofMessage message).text = message := by
  unfold text
  rw [h]
  exact reason_ofMessage_of_none h

end Relayed

end Json

end ShapeContract
