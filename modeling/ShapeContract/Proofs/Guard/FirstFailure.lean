import ShapeContract.Proofs.Guard.Outcome

/-!
# The first argument that fails

Checking arguments gives the failure there is to report (`checkArguments_of_rejects`), so its
outcome is settled by what is said of that failure without a word about checking:

* `outcome_checkArguments_eq_ok_iff`: arguments pass exactly when they are admitted;
* `outcome_checkArguments_eq_error_iff`: an error is exactly the failure of arguments that are not.

The failure of an argument is about the first one that does not have the shape of its schema.
Arguments and schemas behind it have no say in it (`Rejects.of_take_eq`), in spite of the check on
their number that comes before, as long as the two lists stay equally long.
-/

namespace ShapeContract.Guard

variable {ε : Type} {schemas schemas' : List Schema} {arguments arguments' : List Json}

/-! ### What checking comes to -/

theorem checkArguments_of_admits (h : Admits schemas arguments) :
    checkArguments schemas arguments = (.done () : Run (GuardError ε) Unit) := by
  rcases checkArguments_cases (ε := ε) schemas arguments with ⟨hrun, -⟩ | ⟨e, -, hr⟩
  · exact hrun
  · exact absurd h hr.not_admits

/-- Rejected arguments give their failure, after a notice of it in the log. -/
theorem checkArguments_of_rejects {e : GuardError ε} (h : Rejects schemas arguments e) :
    checkArguments schemas arguments = ⟨notice e, .error e⟩ := by
  rcases checkArguments_cases (ε := ε) schemas arguments with ⟨-, hadm⟩ | ⟨e', hrun, hr⟩
  · exact absurd hadm h.not_admits
  · rw [hrun, hr.unique h]

theorem outcome_checkArguments_eq_ok_iff :
    (checkArguments (ε := ε) schemas arguments).outcome = .ok () ↔ Admits schemas arguments := by
  constructor
  · intro h
    rcases admits_or_rejects (ε := ε) schemas arguments with hadm | ⟨e, hr⟩
    · exact hadm
    · rw [checkArguments_of_rejects hr] at h
      cases h
  · intro h
    rw [checkArguments_of_admits h]
    rfl

theorem outcome_checkArguments_eq_error_iff {e : GuardError ε} :
    (checkArguments schemas arguments).outcome = .error e ↔ Rejects schemas arguments e := by
  constructor
  · intro h
    rcases admits_or_rejects (ε := ε) schemas arguments with hadm | ⟨e', hr⟩
    · rw [checkArguments_of_admits hadm] at h
      cases h
    · rw [checkArguments_of_rejects hr] at h
      cases h
      exact hr
  · intro h
    rw [checkArguments_of_rejects h]

/-! ### Which failure there is -/

theorem admits_iff : Admits schemas arguments ↔
    schemas.length = arguments.length ∧ ∀ i, Fits schemas arguments i :=
  ⟨fun h => ⟨h.length_eq, h.fits⟩, fun h => ⟨h.1, h.2⟩⟩

theorem rejects_arity_iff {expected actual : Nat} :
    Rejects schemas arguments (.arity expected actual : GuardError ε) ↔
      schemas.length ≠ arguments.length ∧ expected = schemas.length ∧
        actual = arguments.length := by
  constructor
  · intro h
    cases h with
    | arity hne => exact ⟨hne, rfl, rfl⟩
  · rintro ⟨hne, rfl, rfl⟩
    exact .arity hne

theorem rejects_argument_iff {index : Nat} {value : Json} {m : Mismatch} :
    Rejects schemas arguments (.argument index value m : GuardError ε) ↔
      schemas.length = arguments.length ∧ arguments[index]? = some value ∧
        (∀ j < index, Fits schemas arguments j) ∧
        ∃ s, schemas[index]? = some s ∧ s.accepts value = false ∧ s.mismatch? value = some m := by
  constructor
  · intro h
    cases h with
    | argument hlen hs hv hrej hm hleast => exact ⟨hlen, hv, hleast, _, hs, hrej, hm⟩
  · rintro ⟨hlen, hv, hleast, s, hs, hrej, hm⟩
    exact .argument hlen hs hv hrej hm hleast

theorem not_rejects_execution {x : ε} :
    ¬ Rejects schemas arguments (.execution x : GuardError ε) := by
  rintro ⟨⟩

/-- As many arguments as schemas can only be rejected for one of them. -/
theorem exists_rejects_argument (hlen : schemas.length = arguments.length)
    (h : ¬ Admits schemas arguments) :
    ∃ index value m, Rejects schemas arguments (.argument index value m : GuardError ε) := by
  rcases admits_or_rejects (ε := ε) schemas arguments with hadm | ⟨e, hr⟩
  · exact absurd hadm h
  cases e with
  | arity expected actual => exact absurd hlen (rejects_arity_iff.mp hr).1
  | argument index value m => exact ⟨index, value, m, hr⟩
  | execution x => exact absurd hr not_rejects_execution

/-! ### What comes behind the first failure -/

theorem getElem?_eq_of_take_eq {α : Type} {xs ys : List α} {n i : Nat} (h : xs.take n = ys.take n)
    (hi : i < n) : xs[i]? = ys[i]? := by
  rw [← List.getElem?_take_of_lt hi, h, List.getElem?_take_of_lt hi]

/-- Whether an argument fits is settled by it and its schema. -/
theorem Fits.of_getElem?_eq {i : Nat} (hs : schemas'[i]? = schemas[i]?)
    (hv : arguments'[i]? = arguments[i]?) (h : Fits schemas arguments i) :
    Fits schemas' arguments' i := by
  intro s v hs' hv'
  rw [hs] at hs'
  rw [hv] at hv'
  exact h s v hs' hv'

/-- **Nothing behind the first failure matters**, as long as there are as many arguments as
schemas. -/
theorem Rejects.of_take_eq {index : Nat} {value : Json} {m : Mismatch}
    (h : Rejects schemas arguments (.argument index value m : GuardError ε))
    (hlen : schemas'.length = arguments'.length)
    (hs : schemas'.take (index + 1) = schemas.take (index + 1))
    (hv : arguments'.take (index + 1) = arguments.take (index + 1)) :
    Rejects schemas' arguments' (.argument index value m : GuardError ε) := by
  obtain ⟨-, hvalue, hleast, s, hschema, hrej, hm⟩ := rejects_argument_iff.mp h
  have hschemas : ∀ i < index + 1, schemas'[i]? = schemas[i]? :=
    fun i hi => getElem?_eq_of_take_eq hs hi
  have harguments : ∀ i < index + 1, arguments'[i]? = arguments[i]? :=
    fun i hi => getElem?_eq_of_take_eq hv hi
  have hlast : index < index + 1 := Nat.lt_succ_self index
  refine rejects_argument_iff.mpr ⟨hlen, (harguments index hlast).trans hvalue, fun j hj => ?_, s,
    (hschemas index hlast).trans hschema, hrej, hm⟩
  have hbefore : j < index + 1 := Nat.lt_succ_of_lt hj
  exact (hleast j hj).of_getElem?_eq (hschemas j hbefore) (harguments j hbefore)

/-- **Checking finds the least position that fails.**  Arguments pass exactly when there are as many
of them as schemas and each has the shape of its schema.  A wrong number is the failure exactly when
the numbers differ, whatever the arguments are.  An argument is the failure exactly when the numbers
agree, those before it have their shapes and it does not, and the failure has the argument and its
mismatch; what comes behind it can be replaced and nothing changes, neither the outcome nor what is
logged.  There is no other failure. -/
theorem check_finds_least_failure (schemas : List Schema) (arguments : List Json) :
    let run : Run (GuardError ε) Unit := checkArguments schemas arguments
    (run.outcome = .ok () ↔
      schemas.length = arguments.length ∧ ∀ i, Fits schemas arguments i) ∧
    (∀ expected actual, run.outcome = .error (.arity expected actual) ↔
      schemas.length ≠ arguments.length ∧ expected = schemas.length ∧
        actual = arguments.length) ∧
    (∀ index value m, run.outcome = .error (.argument index value m) ↔
      schemas.length = arguments.length ∧ arguments[index]? = some value ∧
        (∀ j < index, Fits schemas arguments j) ∧
        ∃ s, schemas[index]? = some s ∧ s.accepts value = false ∧
          s.mismatch? value = some m) ∧
    (∀ x, run.outcome ≠ .error (.execution x)) ∧
    ∀ index value m, run.outcome = .error (.argument index value m) →
      ∀ schemas' arguments', schemas'.length = arguments'.length →
        schemas'.take (index + 1) = schemas.take (index + 1) →
        arguments'.take (index + 1) = arguments.take (index + 1) →
        checkArguments schemas' arguments' = run := by
  intro run
  refine ⟨?_, ?_, ?_, ?_, ?_⟩
  · exact outcome_checkArguments_eq_ok_iff.trans admits_iff
  · intro expected actual
    exact outcome_checkArguments_eq_error_iff.trans rejects_arity_iff
  · intro index value m
    exact outcome_checkArguments_eq_error_iff.trans rejects_argument_iff
  · intro x hx
    exact not_rejects_execution (outcome_checkArguments_eq_error_iff.mp hx)
  · intro index value m h schemas' arguments' hlen hs hv
    have hr := outcome_checkArguments_eq_error_iff.mp h
    rw [checkArguments_of_rejects (hr.of_take_eq hlen hs hv)]
    exact (checkArguments_of_rejects hr).symm

end ShapeContract.Guard
