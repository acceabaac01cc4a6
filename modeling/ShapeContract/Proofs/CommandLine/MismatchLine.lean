import ShapeContract.CommandLine.Commands
import ShapeContract.Proofs.Json.Quoting
import ShapeContract.Proofs.Pointer.Unambiguous
import ShapeContract.Proofs.Schema.Places

/-!
# The line of a mismatch

The line of a mismatch names a place, the literal that was expected there and what was found, with
fixed words between them.  Names of members may contain these words, and quotes and backslashes in
any number, which a pointer does not escape and a literal does.  Still the line gives its parts away
(`mismatch_lines_are_unambiguous`): what was found is one word, so it begins behind the last blank;
and the literal is a compact text behind a separator with blanks in it, which can be told from the
place before it by its quotes alone (`Json.Separates.append_inj`).
-/

namespace ShapeContract

/-! ### The parts of a message -/

/-- The text between the place and the literal. -/
def Mismatch.separator : List Char := ": expected ".toList

theorem Mismatch.separates_separator : Json.Separates separator := by
  constructor
  · intro q
    cases q with
    | outside => exact Or.inl (by decide)
    | inside => exact Or.inr (by decide)
    | escaped => exact Or.inr (by decide)
  · exact ⟨':', separator.tail, by decide, by decide⟩

theorem Mismatch.toList_message (m : Mismatch) :
    m.message.toList = (Pointer.shown m.path).toList ++ (separator ++ m.expected.toList) ++
      ", found".toList ++ ' ' :: m.found.toList := by
  have hblank : ", found ".toList = ", found".toList ++ [' '] := by decide
  have hwords : ": expected ".toList = separator := rfl
  rw [message, String.toList_append, String.toList_append, String.toList_append,
    String.toList_append, hblank, hwords]
  simp only [List.append_assoc, List.cons_append, List.nil_append]

theorem Kind.all_tag (k : Kind) : k.tag.toList.all fun c => 32 < c.toNat := by
  cases k <;> decide

namespace Schema

theorem all_foundAt (o : Option Json) : (foundAt o).toList.all fun c => 32 < c.toNat := by
  cases o with
  | none => decide
  | some v => exact v.kind.all_tag

/-- What is found is told in a word, without blanks and control characters. -/
theorem toNat_gt_of_mem_foundAt {o : Option Json} {c : Char} (h : c ∈ (foundAt o).toList) :
    32 < c.toNat := of_decide_eq_true (List.all_eq_true.mp (all_foundAt o) c h)

theorem blank_not_mem_foundAt (o : Option Json) : ' ' ∉ (foundAt o).toList :=
  fun h => absurd (toNat_gt_of_mem_foundAt h) (by decide)

/-- A mismatch is the report of a place. -/
theorem exists_report_of_mismatch? {s : Schema} {v : Json} {m : Mismatch}
    (h : s.mismatch? v = some m) : ∃ q : Place, m = report "" q := by
  rw [mismatch?, locate_eq_head?, Option.map_eq_some_iff] at h
  obtain ⟨q, -, hq⟩ := h
  exact ⟨q, hq.symm⟩

theorem closed_text (s : Schema) : Json.Closed s.text.toList := by
  rw [text, Json.text, String.toList_ofList]
  exact Json.closed_write_compact s.literal 0

end Schema

/-! ### Telling the parts apart -/

theorem eq_nil_of_blank_cons {bs ds es : List Char} (hbs : ' ' ∉ bs)
    (h : ' ' :: bs = es ++ ' ' :: ds) : es = [] := by
  cases es with
  | nil => rfl
  | cons e es =>
    rw [List.cons_append, List.cons.injEq] at h
    exact absurd (h.2 ▸ List.mem_append_right es List.mem_cons_self) hbs

/-- What stands behind the last blank can be told from what stands before it. -/
theorem append_blank_inj {as bs cs ds : List Char} (hbs : ' ' ∉ bs) (hds : ' ' ∉ ds)
    (h : as ++ ' ' :: bs = cs ++ ' ' :: ds) : as = cs ∧ bs = ds := by
  have hsame : as = cs := by
    rcases List.append_eq_append_iff.mp h with ⟨es, rfl, he⟩ | ⟨es, rfl, he⟩
    · rw [eq_nil_of_blank_cons hbs he, List.append_nil]
    · rw [eq_nil_of_blank_cons hds he, List.append_nil]
  subst hsame
  exact ⟨rfl, List.tail_eq_of_cons_eq (List.append_cancel_left h)⟩

/-- **The message of a place gives its parts away.** -/
theorem Schema.report_eq_of_message_eq {q r : Place}
    (h : (report "" q).message = (report "" r).message) : report "" q = report "" r := by
  have hchars := congrArg String.toList h
  rw [Mismatch.toList_message, Mismatch.toList_message] at hchars
  -- from the right: the word, the fixed text before it, the literal, and the place is left
  obtain ⟨hfront, hfound⟩ :=
    append_blank_inj (blank_not_mem_foundAt q.node) (blank_not_mem_foundAt r.node) hchars
  obtain ⟨hplace, hexpected⟩ := Mismatch.separates_separator.append_inj (closed_text q.shape)
    (closed_text r.shape) (List.append_cancel_right hfront)
  have hpath := Pointer.along_eq_of_shown_eq (String.toList_inj.mp hplace)
  rw [report, report, mismatchAt, mismatchAt, hpath, String.toList_inj.mp hexpected,
    String.toList_inj.mp hfound]

namespace CommandLine

/-- The line of a mismatch is longer than that of a success. -/
theorem reportLine_eq_ok_iff {o : Option Mismatch} : reportLine o = "ok" ↔ o = none := by
  cases o with
  | none => exact ⟨fun _ => rfl, fun _ => rfl⟩
  | some m =>
    refine iff_of_false (fun h => ?_) (Option.some_ne_none m)
    have hlength := congrArg String.length h
    have hok : "ok".length = 2 := rfl
    have hlead : "mismatch at ".length = 12 := rfl
    rw [reportLine, String.length_append] at hlength
    omega

/-- Results are told apart by their lines if mismatches are told apart by their messages. -/
theorem eq_of_reportLine_eq {o o' : Option Mismatch}
    (hmessage : ∀ m n, o = some m → o' = some n → m.message = n.message → m = n)
    (h : reportLine o = reportLine o') : o = o' := by
  by_cases ho : o = none
  · rw [ho, reportLine_eq_ok_iff.mp (h.symm.trans (reportLine_eq_ok_iff.mpr ho))]
  by_cases ho' : o' = none
  · rw [ho', reportLine_eq_ok_iff.mp (h.trans (reportLine_eq_ok_iff.mpr ho'))]
  obtain ⟨m, rfl⟩ := Option.ne_none_iff_exists'.mp ho
  obtain ⟨n, rfl⟩ := Option.ne_none_iff_exists'.mp ho'
  rw [reportLine, reportLine, String.append_right_inj] at h
  rw [hmessage m n rfl rfl h]

/-- **A mismatch line can be read back.**  Whatever the schemas and the values are, two mismatches
that have one message have the same place, the same literal and the same word for what was found; so
the line that is printed determines the result of the check, and it is `ok` only if there is no
mismatch. -/
theorem mismatch_lines_are_unambiguous (s t : Schema) (v w : Json) :
    (∀ m n, s.mismatch? v = some m → t.mismatch? w = some n → m.message = n.message →
      m.path = n.path ∧ m.expected = n.expected ∧ m.found = n.found) ∧
    (reportLine (s.mismatch? v) = reportLine (t.mismatch? w) ↔ s.mismatch? v = t.mismatch? w) ∧
    (reportLine (s.mismatch? v) = "ok" ↔ s.mismatch? v = none) := by
  have hmessage : ∀ m n, s.mismatch? v = some m → t.mismatch? w = some n →
      m.message = n.message → m = n := by
    intro m n hm hn h
    obtain ⟨q, rfl⟩ := Schema.exists_report_of_mismatch? hm
    obtain ⟨r, rfl⟩ := Schema.exists_report_of_mismatch? hn
    exact Schema.report_eq_of_message_eq h
  refine ⟨?_, ⟨eq_of_reportLine_eq hmessage, congrArg reportLine⟩, reportLine_eq_ok_iff⟩
  intro m n hm hn h
  rw [hmessage m n hm hn h]
  exact ⟨rfl, rfl, rfl⟩

end CommandLine

end ShapeContract
