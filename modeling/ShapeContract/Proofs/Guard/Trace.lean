import Mathlib.Data.List.Basic
import ShapeContract.Proofs.Guard.Outcome

/-!
# What a guarded call logs

The events of a guarded call are settled by its failure and its policy.  `Guard.failure?` finds the
failure there is, without looking at how a call goes about it (`failure?_eq_some_iff`).  Then the
events are those of `GuardError.noted`, by which the check notes a failure of the arguments, and
after them those of `Policy.logged`, which deal with the failure (`events_call`).

The only error among them is the message of a failure that goes to the log, so the errors logged by
calls one after the other are the messages of those that fail and report there (`errors_calls`).
-/

namespace ShapeContract

variable {ε α : Type}

namespace Guard

/-! ### The failure of a call -/

/-- The failure of the argument at a position, if it does not have the shape of its schema. -/
def argumentFailure? (schemas : List Schema) (arguments : List Json) (i : Nat) :
    Option (GuardError ε) :=
  match schemas[i]?, arguments[i]? with
  | some s, some v => (s.mismatch? v).map (.argument i v)
  | _, _ => none

/-- The failure of a call, if there is one: that of the number of arguments, or else of the first
argument that fails, or else of the operation. -/
def failure? (schemas : List Schema) (arguments : List Json) (operation : Operation ε α) :
    Option (GuardError ε) :=
  if schemas.length = arguments.length then
    ((List.range schemas.length).findSome? (argumentFailure? schemas arguments)).or
      (match operation arguments with
        | .error x => some (.execution x)
        | .ok _ => none)
  else some (.arity schemas.length arguments.length)

theorem argumentFailure?_eq_none_iff {schemas : List Schema} {arguments : List Json} {i : Nat} :
    argumentFailure? schemas arguments i = (none : Option (GuardError ε)) ↔
      Fits schemas arguments i := by
  unfold argumentFailure? Fits
  cases schemas[i]? with
  | none => simp
  | some s =>
    cases arguments[i]? with
    | none => simp
    | some v => simp [Schema.mismatch?_eq_none_iff]

section

variable {schemas : List Schema} {arguments : List Json} {operation : Operation ε α}

theorem Admits.findSome?_argumentFailure? (h : Admits schemas arguments) :
    (List.range schemas.length).findSome? (argumentFailure? (ε := ε) schemas arguments) = none :=
  List.findSome?_eq_none_iff.mpr fun i _ => argumentFailure?_eq_none_iff.mpr (h.fits i)

theorem failure?_of_completed {y : α} (h : Admits schemas arguments)
    (hy : operation arguments = .ok y) : failure? schemas arguments operation = none := by
  rw [failure?, if_pos h.length_eq, h.findSome?_argumentFailure?, hy]
  rfl

theorem failure?_of_fails {e : GuardError ε} (h : Fails schemas arguments operation e) :
    failure? schemas arguments operation = some e := by
  cases h with
  | rejected hr =>
    cases hr with
    | arity hne => rw [failure?, if_neg hne]
    | @argument i s v m hlen hs hv _ hm hleast =>
      have hlt : i < schemas.length := (List.getElem?_eq_some_iff.mp hs).1
      obtain ⟨n, hn⟩ : ∃ n, schemas.length = i + (n + 1) := ⟨schemas.length - i - 1, by omega⟩
      have hhere : argumentFailure? schemas arguments i =
          some (.argument i v m : GuardError ε) := by
        rw [argumentFailure?, hs, hv]
        exact Option.map_eq_some_iff.mpr ⟨m, hm, rfl⟩
      have hfind : (List.range schemas.length).findSome? (argumentFailure? schemas arguments) =
          some (.argument i v m : GuardError ε) := by
        rw [hn, List.range_add, List.range_succ_eq_map, List.map_cons]
        refine List.findSome?_eq_some_iff.mpr ⟨_, i, _, rfl, hhere, fun j hj => ?_⟩
        exact argumentFailure?_eq_none_iff.mpr (hleast j (List.mem_range.mp hj))
      rw [failure?, if_pos hlen, hfind]
      rfl
  | execution hadm hx =>
    rw [failure?, if_pos hadm.length_eq, hadm.findSome?_argumentFailure?, hx]
    rfl

/-- **The failure that is found is the failure there is.** -/
theorem failure?_eq_some_iff {e : GuardError ε} :
    failure? schemas arguments operation = some e ↔ Fails schemas arguments operation e := by
  refine ⟨fun h => ?_, failure?_of_fails⟩
  by_cases hfail : ∃ e', Fails schemas arguments operation e'
  · obtain ⟨e', he'⟩ := hfail
    rw [failure?_of_fails he'] at h
    cases h
    exact he'
  · obtain ⟨y, hadm, hy⟩ := no_failure_iff.mp (not_exists.mp hfail)
    rw [failure?_of_completed hadm hy] at h
    cases h

theorem failure?_eq_none_iff : failure? schemas arguments operation = none ↔
    ∃ y, Admits schemas arguments ∧ operation arguments = .ok y := by
  rw [← no_failure_iff, Option.eq_none_iff_forall_ne_some]
  exact forall_congr' fun e => not_congr failure?_eq_some_iff

end

end Guard

/-! ### Events -/

/-- The events by which a check notes a failure of the arguments.  The failure of an operation is
none of the arguments. -/
def GuardError.noted : GuardError ε → List Event
  | arity expected actual =>
    [⟨.debug, "argument count does not match schema count",
      [("expected", Nat.repr expected), ("actual", Nat.repr actual)]⟩]
  | argument index _ m =>
    [⟨.debug, "argument does not match its schema",
      [("index", Nat.repr index), ("mismatch", m.message)]⟩]
  | execution _ => []

/-- The events by which a policy deals with a failure: none if it hands the failure on, and
otherwise a note of the way in which the call failed and, if it reports to the log, the message as an
error. -/
def Policy.logged [ToString ε] (e : GuardError ε) : Policy → List Event
  | propagate => []
  | report sink =>
    ⟨.debug, "guarded call failed; reporting and suppressing", [("kind", e.kind.name)]⟩ ::
      if sink = .log then [⟨.error, e.message, []⟩] else []

/-- The errors among the events. -/
def Run.errors {β : Type} (r : Run ε β) : List Event := r.events.filter (·.level = .error)

namespace Guard

theorem events_notice {δ β : Type} (e : GuardError ε) (effects : List Effect) (r : Except δ β) :
    Run.events ⟨notice e ++ effects, r⟩ = e.noted ++ Run.events ⟨effects, r⟩ := by
  cases e <;> rfl

variable [ToString ε]

theorem events_handle (policy : Policy) (e : GuardError ε) :
    (policy.handle (α := α) e).events = policy.logged e := by
  cases policy with
  | propagate => rfl
  | report sink => cases sink <;> rfl

theorem errors_logged (policy : Policy) (e : GuardError ε) :
    (e.noted ++ policy.logged e).filter (·.level = .error) =
      if policy = .report .log then [⟨.error, e.message, []⟩] else [] := by
  have hnoted : e.noted.filter (·.level = .error) = [] := by cases e <;> rfl
  rw [List.filter_append, hnoted, List.nil_append]
  cases policy with
  | propagate => rfl
  | report sink => cases sink <;> rfl

theorem events_of_fails {schemas : List Schema} {arguments : List Json}
    {operation : Operation ε α} (policy : Policy) {e : GuardError ε}
    (h : Fails schemas arguments operation e) :
    (call schemas arguments operation policy).events = e.noted ++ policy.logged e := by
  cases h with
  | rejected hr =>
    rw [call_rejected hr, events_notice]
    exact congrArg _ (events_handle policy e)
  | execution hadm hx =>
    rw [call_execution hadm hx]
    exact events_handle policy _

/-! ### Calls one after the other -/

/-- A call to be made. -/
structure Request (ε α : Type) where
  schemas : List Schema
  arguments : List Json
  operation : Operation ε α
  policy : Policy

namespace Request

/-- The failure of the call, if there is one. -/
def failure? (c : Request ε α) : Option (GuardError ε) :=
  Guard.failure? c.schemas c.arguments c.operation

/-- Make the call. -/
def run (c : Request ε α) : Run (GuardError ε) (Invocation α) :=
  call c.schemas c.arguments c.operation c.policy

/-- The failure of the call if it is reported to the log. -/
def logged? (c : Request ε α) : Option (GuardError ε) :=
  if c.policy = .report .log then c.failure? else none

/-- **The events of a call are settled by its failure and its policy.** -/
theorem events_run (c : Request ε α) :
    c.run.events =
      match c.failure? with
      | none => []
      | some e => e.noted ++ c.policy.logged e := by
  cases hf : c.failure? with
  | none =>
    obtain ⟨y, hadm, hy⟩ := failure?_eq_none_iff.mp hf
    rw [run, call_completed hadm hy]
    rfl
  | some e => exact events_of_fails c.policy (failure?_eq_some_iff.mp hf)

theorem errors_run (c : Request ε α) :
    c.run.errors = (c.logged?.map fun e => ⟨.error, e.message, []⟩).toList := by
  rw [Run.errors, events_run, logged?]
  cases c.failure? with
  | none =>
    rw [ite_self]
    rfl
  | some e =>
    rw [errors_logged]
    split <;> rfl

/-- The errors of calls one after the other are the messages of the failures reported to the log. -/
theorem errors_calls (calls : List (Request ε α)) :
    (calls.flatMap fun c => c.run.errors) =
      (calls.filterMap logged?).map fun e => ⟨.error, e.message, []⟩ := by
  rw [List.map_filterMap, List.filterMap_eq_flatMap_toList]
  exact congrArg (fun f => calls.flatMap f) (funext errors_run)

end Request

/-- **What guarded calls log.**  A call without failure logs nothing.  A call that fails logs how the
check failed, if it was the check, and what the policy makes of the failure.  If failures go to the
log by default, every failing call logs its message as its one error, and if they are handed on, no
call logs any; the errors of calls one after the other are the messages of those that fail and
report to the log, in order. -/
theorem trace_of_guarded_calls :
    (∀ (c : Request ε α) (e : GuardError ε),
      c.failure? = some e ↔ Fails c.schemas c.arguments c.operation e) ∧
    (∀ c : Request ε α, c.run.events =
      match c.failure? with
      | none => []
      | some e => e.noted ++ c.policy.logged e) ∧
    (∀ c : Request ε α, c.policy = .ofRaiseFlag false → c.run.errors =
      match c.failure? with
      | none => []
      | some e => [⟨.error, e.message, []⟩]) ∧
    (∀ c : Request ε α, c.policy = .propagate → c.run.errors = []) ∧
    ∀ calls : List (Request ε α),
      (calls.flatMap fun c => c.run.errors).map Event.message =
        (calls.filterMap fun c => if c.policy = .report .log then c.failure? else none).map
          GuardError.message ∧
      ((∀ c ∈ calls, c.policy = .ofRaiseFlag false) →
        (calls.flatMap fun c => c.run.errors).map Event.message =
          (calls.filterMap Request.failure?).map GuardError.message) := by
  have hcalls : ∀ calls : List (Request ε α),
      (calls.flatMap fun c => c.run.errors).map Event.message =
        (calls.filterMap Request.logged?).map GuardError.message := by
    intro calls
    rw [Request.errors_calls, List.map_map]
    rfl
  refine ⟨fun c e => failure?_eq_some_iff, Request.events_run, ?_, ?_,
    fun calls => ⟨hcalls calls, ?_⟩⟩
  · intro c hc
    rw [c.errors_run, Request.logged?, if_pos (show c.policy = .report .log from hc)]
    cases c.failure? <;> rfl
  · intro c hc
    rw [c.errors_run, Request.logged?, hc, if_neg (by rintro ⟨⟩)]
    rfl
  · intro hdefault
    rw [hcalls]
    refine congrArg _ (List.filterMap_congr fun c hc => ?_)
    rw [Request.logged?, if_pos (show c.policy = .report .log from hdefault c hc)]

end Guard

end ShapeContract
