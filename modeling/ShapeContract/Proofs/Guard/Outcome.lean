import ShapeContract.Guard.Call
import ShapeContract.Proofs.Schema.Parts

/-!
# What a guarded call does

`Guard.Admits` says that arguments fit a list of schemas, `Guard.Rejects` which failure there is to
report when they do not, and `Guard.Fails` adds the failure of the operation.  Neither mentions how
a call goes about it.  Then, for a call under any policy:

* `call_completed`: admitted arguments are handed to the operation, once, and its value is the
  result;
* `call_execution`: an error of the operation is dealt with by the policy, after that one call;
* `call_rejected`: rejected arguments are noted in the log and dealt with by the policy, without a
  call.

One of the three always applies (`admits_or_rejects`), and each gives the whole run, effects and
outcome.  What a sink receives, `Run.received`, is read off the effects.
-/

namespace ShapeContract

/-- The message of an effect that reaches a sink; the log receives the events that are errors. -/
def Effect.receivedBy (sink : Sink) : Effect → Option String
  | .event e => if sink = .log ∧ e.level = .error then some e.message else none
  | .report target message => if target = sink then some message else none
  | _ => none

/-- The messages that a sink receives in a run, in order. -/
def Run.received {ε α : Type} (sink : Sink) (r : Run ε α) : List String :=
  r.effects.filterMap (Effect.receivedBy sink)

theorem Effect.receivedBy_deliver (sink target : Sink) (message : String) :
    (target.deliver message).receivedBy sink = if sink = target then some message else none := by
  cases target <;> cases sink <;> simp [Sink.deliver, receivedBy, eq_comm]

namespace Guard

variable {ε α : Type}

/-! ### Which arguments are admitted, and which failure there is -/

/-- The argument at a position has the shape of its schema. -/
def Fits (schemas : List Schema) (arguments : List Json) (i : Nat) : Prop :=
  ∀ (s : Schema) (v : Json), schemas[i]? = some s → arguments[i]? = some v → s.accepts v = true

/-- There are as many arguments as schemas, and every argument has the shape of its schema. -/
structure Admits (schemas : List Schema) (arguments : List Json) : Prop where
  length_eq : schemas.length = arguments.length
  fits : ∀ i, Fits schemas arguments i

/-- The failure of arguments that are not admitted: their number is wrong, or one of them is the
first not to have the shape of its schema. -/
inductive Rejects (schemas : List Schema) (arguments : List Json) : GuardError ε → Prop
  | arity : schemas.length ≠ arguments.length →
      Rejects schemas arguments (.arity schemas.length arguments.length)
  | argument {i : Nat} {s : Schema} {v : Json} {m : Mismatch} :
      schemas.length = arguments.length → schemas[i]? = some s → arguments[i]? = some v →
      s.accepts v = false → s.mismatch? v = some m → (∀ j < i, Fits schemas arguments j) →
      Rejects schemas arguments (.argument i v m)

/-- The failure of a call: that of its arguments, or else that of the operation. -/
inductive Fails (schemas : List Schema) (arguments : List Json) (operation : Operation ε α) :
    GuardError ε → Prop
  | rejected {e : GuardError ε} : Rejects schemas arguments e →
      Fails schemas arguments operation e
  | execution {x : ε} : Admits schemas arguments → operation arguments = .error x →
      Fails schemas arguments operation (.execution x)

/-! ### Checking -/

/-- The event that notes a failure of the arguments. -/
def notice : GuardError ε → List Effect
  | .arity expected actual =>
    [.event ⟨.debug, "argument count does not match schema count",
      [("expected", Nat.repr expected), ("actual", Nat.repr actual)]⟩]
  | .argument index _ m =>
    [.event ⟨.debug, "argument does not match its schema",
      [("index", Nat.repr index), ("mismatch", m.message)]⟩]
  | .execution _ => []

theorem fits_cons_zero {s : Schema} {v : Json} {schemas : List Schema} {arguments : List Json} :
    Fits (s :: schemas) (v :: arguments) 0 ↔ s.accepts v = true := by
  constructor
  · intro h
    exact h s v rfl rfl
  · intro h t w ht hw
    cases ht
    cases hw
    exact h

theorem fits_cons_succ {s : Schema} {v : Json} {schemas : List Schema} {arguments : List Json}
    {i : Nat} : Fits (s :: schemas) (v :: arguments) (i + 1) ↔ Fits schemas arguments i := Iff.rfl

/-- Checking from the left ends without effects, or with a notice of the first argument that does
not have the shape of its schema. -/
theorem checkFrom_cases (schemas : List Schema) : ∀ (arguments : List Json) (index : Nat),
    (checkFrom index schemas arguments = (.done () : Run (GuardError ε) Unit) ∧
      ∀ i, Fits schemas arguments i) ∨
    ∃ (i : Nat) (s : Schema) (v : Json) (m : Mismatch),
      schemas[i]? = some s ∧ arguments[i]? = some v ∧ s.mismatch? v = some m ∧
      (∀ j < i, Fits schemas arguments j) ∧
      checkFrom index schemas arguments =
        (⟨notice (.argument (index + i) v m : GuardError ε), .error (.argument (index + i) v m)⟩ :
          Run (GuardError ε) Unit) := by
  induction schemas with
  | nil =>
    intro arguments index
    exact Or.inl ⟨rfl, fun i s v hs => by simp at hs⟩
  | cons s schemas ih =>
    intro arguments index
    cases arguments with
    | nil => exact Or.inl ⟨rfl, fun i s v _ hv => by simp at hv⟩
    | cons v arguments =>
      cases hm : s.mismatch? v with
      | some m =>
        refine Or.inr ⟨0, s, v, m, rfl, rfl, hm, fun j hj => absurd hj (Nat.not_lt_zero j), ?_⟩
        simp only [checkFrom, hm]
        rfl
      | none =>
        have hv : s.accepts v = true := Schema.mismatch?_eq_none_iff.mp hm
        have hrest : checkFrom index (s :: schemas) (v :: arguments) =
            (checkFrom (index + 1) schemas arguments : Run (GuardError ε) Unit) := by
          simp only [checkFrom, hm]
        rw [hrest]
        rcases ih arguments (index + 1) with ⟨hdone, hall⟩ | ⟨i, t, w, m, ht, hw, hm, hleast, hrun⟩
        · refine Or.inl ⟨hdone, ?_⟩
          intro i
          cases i with
          | zero => exact fits_cons_zero.mpr hv
          | succ i => exact fits_cons_succ.mpr (hall i)
        · refine Or.inr ⟨i + 1, t, w, m, ht, hw, hm, ?_, ?_⟩
          · intro j hj
            cases j with
            | zero => exact fits_cons_zero.mpr hv
            | succ j => exact fits_cons_succ.mpr (hleast j (by omega))
          · rw [hrun, show index + 1 + i = index + (i + 1) by omega]

/-- Arguments pass the check silently and are admitted, or the check notes and gives the failure
there is to report. -/
theorem checkArguments_cases (schemas : List Schema) (arguments : List Json) :
    (checkArguments schemas arguments = (.done () : Run (GuardError ε) Unit) ∧
      Admits schemas arguments) ∨
    ∃ e : GuardError ε, checkArguments schemas arguments = ⟨notice e, .error e⟩ ∧
      Rejects schemas arguments e := by
  unfold checkArguments
  by_cases hlen : schemas.length = arguments.length
  · rw [if_pos hlen]
    rcases checkFrom_cases schemas arguments 0 with
      ⟨hdone, hall⟩ | ⟨i, s, v, m, hs, hv, hm, hleast, hrun⟩
    · exact Or.inl ⟨hdone, hlen, hall⟩
    · rw [Nat.zero_add] at hrun
      have hrej : s.accepts v = false := by
        rw [Bool.eq_false_iff]
        intro h
        rw [Schema.mismatch?_eq_none_iff.mpr h] at hm
        cases hm
      exact Or.inr ⟨_, hrun, .argument hlen hs hv hrej hm hleast⟩
  · rw [if_neg hlen]
    exact Or.inr ⟨_, rfl, .arity hlen⟩

theorem admits_or_rejects (schemas : List Schema) (arguments : List Json) :
    Admits schemas arguments ∨ ∃ e : GuardError ε, Rejects schemas arguments e := by
  rcases checkArguments_cases (ε := ε) schemas arguments with ⟨-, h⟩ | ⟨e, -, h⟩
  · exact Or.inl h
  · exact Or.inr ⟨e, h⟩

theorem Rejects.not_admits {schemas : List Schema} {arguments : List Json} {e : GuardError ε}
    (h : Rejects schemas arguments e) : ¬ Admits schemas arguments := by
  intro hadm
  cases h with
  | arity hne => exact hne hadm.length_eq
  | @argument i s v m _ hs hv hrej _ _ =>
    rw [hadm.fits i s v hs hv] at hrej
    cases hrej

/-- There is only one failure to report. -/
theorem Rejects.unique {schemas : List Schema} {arguments : List Json} {e e' : GuardError ε}
    (h : Rejects schemas arguments e) (h' : Rejects schemas arguments e') : e = e' := by
  cases h with
  | arity hne =>
    cases h' with
    | arity => rfl
    | argument hlen => exact absurd hlen hne
  | @argument i s v m hlen hs hv hrej hm hleast =>
    cases h' with
    | arity hne => exact absurd hlen hne
    | @argument j t w m' _ ht hw hrej' hm' hleast' =>
      rcases Nat.lt_trichotomy i j with hij | rfl | hji
      · rw [hleast' i hij s v hs hv] at hrej
        cases hrej
      · rw [hs] at ht
        rw [hv] at hw
        cases ht
        cases hw
        rw [hm] at hm'
        cases hm'
        rfl
      · rw [hleast j hji t w ht hw] at hrej'
        cases hrej'

theorem Fails.unique {schemas : List Schema} {arguments : List Json} {operation : Operation ε α}
    {e e' : GuardError ε} (h : Fails schemas arguments operation e)
    (h' : Fails schemas arguments operation e') : e = e' := by
  cases h with
  | rejected hr =>
    cases h' with
    | rejected hr' => exact hr.unique hr'
    | execution hadm => exact absurd hadm hr.not_admits
  | execution hadm hx =>
    cases h' with
    | rejected hr' => exact absurd hadm hr'.not_admits
    | execution _ hx' =>
      rw [hx] at hx'
      cases hx'
      rfl

/-- There is no failure exactly when the operation gives a value for arguments that are admitted. -/
theorem no_failure_iff {schemas : List Schema} {arguments : List Json}
    {operation : Operation ε α} : (∀ e, ¬ Fails schemas arguments operation e) ↔
    ∃ y, Admits schemas arguments ∧ operation arguments = .ok y := by
  constructor
  · intro h
    rcases admits_or_rejects (ε := ε) schemas arguments with hadm | ⟨e, hr⟩
    · cases hy : operation arguments with
      | ok y => exact ⟨y, hadm, rfl⟩
      | error x => exact absurd (.execution hadm hy) (h _)
    · exact absurd (.rejected hr) (h e)
  · rintro ⟨y, hadm, hy⟩ e he
    cases he with
    | rejected hr => exact hr.not_admits hadm
    | execution _ hx =>
      rw [hy] at hx
      cases hx

/-! ### What sinks do not receive -/

/-- Effects of which no sink receives anything. -/
def Quiet (effects : List Effect) : Prop :=
  ∀ sink, effects.filterMap (Effect.receivedBy sink) = []

theorem quiet_notice (e : GuardError ε) : Quiet (notice e) := by
  intro sink
  cases e <;> simp [notice, Effect.receivedBy]

theorem quiet_call (arguments : List Json) : Quiet [.call arguments] := fun _ => rfl

theorem calls_notice {δ β : Type} (e : GuardError ε) (effects : List Effect) (r : Except δ β) :
    Run.calls ⟨notice e ++ effects, r⟩ = Run.calls ⟨effects, r⟩ := by
  cases e <;> rfl

/-! ### Calling -/

section Call

variable {schemas : List Schema} {arguments : List Json} {operation : Operation ε α}

theorem perform_ok {y : α} (hy : operation arguments = .ok y) :
    perform operation arguments = (⟨[.call arguments], .ok y⟩ : Run (GuardError ε) α) := by
  rw [perform, hy]
  rfl

theorem perform_error {x : ε} (hx : operation arguments = .error x) :
    perform operation arguments =
      (⟨[.call arguments], .error (.execution x)⟩ : Run (GuardError ε) α) := by
  rw [perform, hx]
  rfl

variable [ToString ε] {policy : Policy}

theorem call_completed {y : α} (h : Admits schemas arguments) (hy : operation arguments = .ok y) :
    call schemas arguments operation policy = ⟨[.call arguments], .ok (.completed y)⟩ := by
  rcases checkArguments_cases (ε := ε) schemas arguments with ⟨hrun, -⟩ | ⟨e, -, hr⟩
  · simp only [call, hrun, Run.done, Run.andThen, perform_ok hy, List.nil_append]
  · exact absurd h hr.not_admits

theorem call_execution {x : ε} (h : Admits schemas arguments)
    (hx : operation arguments = .error x) :
    call schemas arguments operation policy =
      ⟨.call arguments :: (policy.handle (α := α) (.execution x)).effects,
        (policy.handle (.execution x)).outcome⟩ := by
  rcases checkArguments_cases (ε := ε) schemas arguments with ⟨hrun, -⟩ | ⟨e, -, hr⟩
  · simp only [call, hrun, Run.done, Run.andThen, perform_error hx, List.nil_append,
      List.singleton_append]
  · exact absurd h hr.not_admits

theorem call_rejected {e : GuardError ε} (h : Rejects schemas arguments e) :
    call schemas arguments operation policy =
      ⟨notice e ++ (policy.handle (α := α) e).effects, (policy.handle e).outcome⟩ := by
  rcases checkArguments_cases (ε := ε) schemas arguments with ⟨-, hadm⟩ | ⟨e', hrun, hr⟩
  · exact absurd hadm h.not_admits
  · rw [hr.unique h] at hrun
    simp only [call, hrun, Run.andThen]

/-- A failing call does something quiet and then deals with the failure. -/
theorem call_of_fails (policy : Policy) {e : GuardError ε}
    (h : Fails schemas arguments operation e) :
    ∃ before, Quiet before ∧ call schemas arguments operation policy =
      ⟨before ++ (policy.handle (α := α) e).effects, (policy.handle e).outcome⟩ := by
  cases h with
  | rejected hr => exact ⟨_, quiet_notice e, call_rejected hr⟩
  | execution hadm hx => exact ⟨_, quiet_call arguments, call_execution hadm hx⟩

theorem received_handle_report (sink other : Sink) (e : GuardError ε) :
    ((Policy.report sink).handle (α := α) e).received other =
      if other = sink then [e.message] else [] := by
  have hrun : ((Policy.report sink).handle (α := α) e).effects =
      [.event ⟨.debug, "guarded call failed; reporting and suppressing", [("kind", e.kind.name)]⟩,
        sink.deliver e.message] := rfl
  rw [Run.received, hrun, List.filterMap_cons_none (by simp [Effect.receivedBy]),
    List.filterMap_cons, Effect.receivedBy_deliver]
  by_cases h : other = sink
  · rw [if_pos h, if_pos h]
    rfl
  · rw [if_neg h, if_neg h]
    rfl

theorem calls_handle (e : GuardError ε) : (policy.handle (α := α) e).calls = [] := by
  cases policy with
  | propagate => rfl
  | report sink => cases sink <;> rfl

theorem calls_of_admits (h : Admits schemas arguments) :
    (call schemas arguments operation policy).calls = [arguments] := by
  cases hy : operation arguments with
  | ok y =>
    rw [call_completed h hy]
    rfl
  | error x =>
    have hhandle : (policy.handle (α := α) (.execution x)).calls = [] := calls_handle _
    rw [call_execution h hy]
    show arguments :: (policy.handle (α := α) (.execution x)).calls = [arguments]
    rw [hhandle]

theorem calls_of_not_admits (h : ¬ Admits schemas arguments) :
    (call schemas arguments operation policy).calls = [] := by
  rcases admits_or_rejects (ε := ε) schemas arguments with hadm | ⟨e, hr⟩
  · exact absurd hadm h
  · rw [call_rejected hr, calls_notice]
    exact calls_handle e

/-- A failing call hands its failure on or reports it, as the policy says. -/
theorem handled_of_fails (policy : Policy) {e : GuardError ε}
    (h : Fails schemas arguments operation e) :
    match policy with
    | .propagate => (call schemas arguments operation policy).outcome = .error e ∧
        ∀ sink, (call schemas arguments operation policy).received sink = []
    | .report sink =>
        (call schemas arguments operation policy).outcome = .ok (.suppressed e.kind) ∧
        ∀ other, (call schemas arguments operation policy).received other =
          if other = sink then [e.message] else [] := by
  obtain ⟨before, hquiet, hrun⟩ := call_of_fails policy h
  rw [hrun]
  cases policy with
  | propagate =>
    refine ⟨rfl, fun sink => ?_⟩
    rw [Run.received, List.filterMap_append, hquiet sink]
    rfl
  | report sink =>
    refine ⟨rfl, fun other => ?_⟩
    rw [Run.received, List.filterMap_append, hquiet other, List.nil_append]
    exact received_handle_report sink other e

/-- **A guarded call from end to end.**  The operation is called once, on the arguments, if they are
admitted, and not at all otherwise.  There is no failure exactly when they are admitted and the
operation gives a value, which is then the result, and no sink receives anything.  A failure is the
only one there is; it is handed on with nothing reported, or else its message is all that the sink
of the policy receives and the call is suppressed.  So a reporting policy never hands on a failure,
and a propagating one never suppresses any. -/
theorem guarded_call_end_to_end (schemas : List Schema) (arguments : List Json)
    (operation : Operation ε α) (policy : Policy) :
    let run := call schemas arguments operation policy
    (Admits schemas arguments → run.calls = [arguments]) ∧
    (¬ Admits schemas arguments → run.calls = []) ∧
    ((∀ e, ¬ Fails schemas arguments operation e) ↔
      ∃ y, Admits schemas arguments ∧ operation arguments = .ok y) ∧
    (∀ y, Admits schemas arguments → operation arguments = .ok y →
      run.outcome = .ok (.completed y) ∧ ∀ sink, run.received sink = []) ∧
    (∀ e, Fails schemas arguments operation e →
      (∀ e', Fails schemas arguments operation e' → e' = e) ∧
      match policy with
      | .propagate => run.outcome = .error e ∧ ∀ sink, run.received sink = []
      | .report sink => run.outcome = .ok (.suppressed e.kind) ∧
          ∀ other, run.received other = if other = sink then [e.message] else []) ∧
    (∀ sink e, policy = .report sink → run.outcome ≠ .error e) ∧
    (∀ kind, policy = .propagate → run.outcome ≠ .ok (.suppressed kind)) := by
  intro run
  have hcompleted : ∀ y, Admits schemas arguments → operation arguments = .ok y →
      run = ⟨[.call arguments], .ok (.completed y)⟩ := fun y => call_completed
  have hfailure : (∃ y, run.outcome = .ok (.completed y)) ∨
      ∃ e, Fails schemas arguments operation e := by
    by_cases h : ∃ e, Fails schemas arguments operation e
    · exact Or.inr h
    · obtain ⟨y, hadm, hy⟩ := no_failure_iff.mp (not_exists.mp h)
      exact Or.inl ⟨y, by rw [hcompleted y hadm hy]⟩
  refine ⟨calls_of_admits, calls_of_not_admits, no_failure_iff, ?_, ?_, ?_, ?_⟩
  · intro y hadm hy
    rw [hcompleted y hadm hy]
    exact ⟨rfl, quiet_call arguments⟩
  · intro e he
    exact ⟨fun e' he' => he'.unique he, handled_of_fails policy he⟩
  · rintro sink e rfl herr
    rcases hfailure with ⟨y, hy⟩ | ⟨e', he'⟩
    · rw [herr] at hy
      cases hy
    · have hout := (handled_of_fails (.report sink) he').1
      rw [herr] at hout
      cases hout
  · rintro kind rfl hsup
    rcases hfailure with ⟨y, hy⟩ | ⟨e', he'⟩
    · rw [hsup] at hy
      cases hy
    · have hout := (handled_of_fails .propagate he').1
      rw [hsup] at hout
      cases hout

end Call

end Guard

end ShapeContract
