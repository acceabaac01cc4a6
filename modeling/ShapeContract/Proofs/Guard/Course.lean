import Mathlib.Data.List.DropRight
import ShapeContract.Proofs.Guard.Settings
import ShapeContract.Proofs.Guard.Trace

/-!
# The course of a session

A session that takes some steps has a `Moment` for each of them: the guards there are before the
step, the step and the answer.  What a moment directs to a memory sink (`Moment.directed`) is the
message of the failure of a call whose policy reports to the sink, or a message reported by hand;
only `take` removes anything (`Moment.taken`).

* `lines_step`: one step adds what it directs to a sink, after all else, or empties the sink.
* `taken_append_lines_run`: over a run, what is taken from a sink and what it holds in the end is
  what it held and what was directed to it, in this order.
* `lines_run`: after a run a sink holds what was directed to it since it was last emptied.

A step that is `Idle` directs nothing to any sink and empties none.  `no_message_is_lost` puts these
facts together with those about the guards of a session.
-/

namespace ShapeContract

/-! ### Storing messages -/

namespace Sinks

@[simp] theorem lines_mention (name sink : String) (s : Sinks) :
    (s.mention name).lines sink = s.lines sink := by
  unfold mention
  split
  · rfl
  · rename_i hnew
    unfold lines
    by_cases h : sink = name
    · subst h
      rw [Dict.get?_put_self]
      rw [Fields.contains, Bool.not_eq_true, Option.isSome_eq_false_iff, Option.isNone_iff_eq_none]
        at hnew
      rw [hnew]
      rfl
    · rw [Dict.get?_put_of_ne h]

@[simp] theorem lines_mentionPolicy (policy : Policy) (sink : String) (s : Sinks) :
    (s.mentionPolicy policy).lines sink = s.lines sink := by
  unfold mentionPolicy
  split
  · exact lines_mention _ _ _
  · rfl

theorem lines_clear (name sink : String) (s : Sinks) :
    (s.clear name).lines sink = if name = sink then [] else s.lines sink := by
  unfold clear lines
  by_cases h : name = sink
  · subst h
    rw [if_pos rfl, Dict.get?_put_self]
    rfl
  · rw [if_neg h, Dict.get?_put_of_ne (Ne.symm h)]

theorem lines_store (message : String) (target : Sink) (sink : String) (s : Sinks) :
    (s.store message target).lines sink =
      s.lines sink ++ if target = .memory sink then [message] else [] := by
  cases target with
  | memory name =>
    unfold store lines
    by_cases h : name = sink
    · subst h
      rw [if_pos rfl, Dict.get?_put_self]
      rfl
    · rw [if_neg (fun he => h (Sink.memory.inj he)), Dict.get?_put_of_ne (Ne.symm h),
        List.append_nil]
  | _ => exact (List.append_nil _).symm

/-- A sink keeps what it receives, in order. -/
theorem lines_absorb (effects : List Effect) (sink : String) : ∀ s : Sinks,
    (s.absorb effects).lines sink =
      s.lines sink ++ effects.filterMap (Effect.receivedBy (.memory sink)) := by
  induction effects with
  | nil => exact fun s => (List.append_nil _).symm
  | cons e effects ih =>
    intro s
    cases e with
    | report target message =>
      have hcons := ih (s.store message target)
      rw [lines_store, List.append_assoc] at hcons
      rw [List.filterMap_cons, Effect.receivedBy]
      by_cases h : target = .memory sink
      · rw [if_pos h] at hcons ⊢
        exact hcons
      · rw [if_neg h] at hcons ⊢
        exact hcons
    | event e =>
      rw [List.filterMap_cons_none (by rw [Effect.receivedBy, if_neg (by rintro ⟨⟨⟩, -⟩)])]
      exact ih s
    | _ => exact ih s

end Sinks

/-! ### Calls under a guard -/

namespace Guard

variable {ε α : Type} [ToString ε]

/-- What a call under a guard reports to a sink: the message of its failure, if there is one and the
policy reports there. -/
def reports (g : Guard) (sink : Sink) (arguments : List Json) (operation : Operation ε α) :
    List String :=
  if g.policy = .report sink then
    ((failure? g.schemas arguments operation).map GuardError.message).toList
  else []

/-- **A sink receives from a call what the guard reports to it.** -/
theorem received_invoke (g : Guard) (sink : Sink) (arguments : List Json)
    (operation : Operation ε α) :
    (g.invoke arguments operation).received sink = g.reports sink arguments operation := by
  rw [invoke, reports]
  cases hf : failure? g.schemas arguments operation with
  | none =>
    obtain ⟨y, hadm, hy⟩ := failure?_eq_none_iff.mp hf
    rw [call_completed hadm hy]
    exact (ite_self []).symm
  | some e =>
    have hhandled := handled_of_fails g.policy (failure?_eq_some_iff.mp hf)
    cases hp : g.policy with
    | propagate =>
      rw [hp] at hhandled
      rw [if_neg (by rintro ⟨⟩), hhandled.2 sink]
    | report target =>
      rw [hp] at hhandled
      rw [hhandled.2 sink]
      by_cases h : sink = target
      · rw [if_pos h, if_pos (by rw [h])]
        rfl
      · rw [if_neg h, if_neg (fun he => h (Policy.report.inj he).symm)]

theorem reports_of_completed {g : Guard} {arguments : List Json} {operation : Operation ε α} {y : α}
    (h : (g.invoke arguments operation).outcome = .ok (.completed y)) (sink : Sink) :
    g.reports sink arguments operation = [] := by
  rw [reports]
  cases hf : failure? g.schemas arguments operation with
  | none => exact ite_self []
  | some e =>
    have hhandled := handled_of_fails g.policy (failure?_eq_some_iff.mp hf)
    rw [invoke] at h
    cases hp : g.policy with
    | propagate => exact if_neg (by rintro ⟨⟩)
    | report target =>
      rw [hp] at h hhandled
      rw [h] at hhandled
      cases hhandled.1

end Guard

/-! ### Moments -/

namespace Session

variable {ε : Type}

/-- A step in the course of a session, with the guards there are before it and the answer to it. -/
structure Moment (ε : Type) where
  guards : Dict Guard
  step : Step ε
  reply : Reply ε

namespace Moment

/-- The moment empties a memory sink. -/
def empties (sink : String) (m : Moment ε) : Bool :=
  match m.step with
  | .take name => name = sink
  | _ => false

/-- The messages that are taken from a memory sink. -/
def taken (sink : String) (m : Moment ε) : List String :=
  match m.step, m.reply with
  | .take name, .taken messages => if name = sink then messages else []
  | _, _ => []

/-- The messages that are directed to a memory sink: what the guard of a call reports to it, or a
message reported by hand. -/
def directed [ToString ε] (sink : String) (m : Moment ε) : List String :=
  match m.step with
  | .invoke name arguments operation =>
    match m.guards.get? name with
    | some g => g.reports (.memory sink) arguments operation
    | none => []
  | .report name message => if name = sink then [message] else []
  | _ => []

end Moment

variable [ToString ε]

/-- The moment of a step. -/
def moment (s : Session) (x : Step ε) : Moment ε := ⟨s.guards, x, (s.step x).2⟩

/-- The moments of a session that takes some steps. -/
def course (s : Session) : List (Step ε) → List (Moment ε)
  | [] => []
  | x :: xs => s.moment x :: course (s.step x).1 xs

/-! ### What one step does to a sink -/

theorem directed_invoke {s : Session} {name : String} {g : Guard} (h : s.guards.get? name = some g)
    (arguments : List Json) (operation : Operation ε Json) (sink : String) :
    (s.moment (.invoke name arguments operation)).directed sink =
      g.reports (.memory sink) arguments operation := by
  rw [moment, Moment.directed]
  simp only [h]

theorem lines_invoke (s : Session) (name : String) (arguments : List Json)
    (operation : Operation ε Json) (sink : String) :
    (s.step (.invoke name arguments operation)).1.sinks.lines sink =
      s.sinks.lines sink ++ (s.moment (.invoke name arguments operation)).directed sink := by
  cases hg : s.guards.get? name with
  | none =>
    rw [step, withGuard, moment, Moment.directed]
    simp only [hg, List.append_nil]
  | some g =>
    rw [directed_invoke hg, step, withGuard, hg]
    show (s.sinks.absorb (g.invoke arguments operation).effects).lines sink = _
    rw [Sinks.lines_absorb]
    exact congrArg _ (g.received_invoke (.memory sink) arguments operation)

/-- **A step adds what it directs to a sink, after all else, or empties the sink.** -/
theorem lines_step (s : Session) (x : Step ε) (sink : String) :
    (s.step x).1.sinks.lines sink =
      if (s.moment x).empties sink then []
      else s.sinks.lines sink ++ (s.moment x).directed sink := by
  -- a step that has nothing to do with the sink directs nothing to it
  have hkept : (s.step x).1.sinks.lines sink = s.sinks.lines sink →
      (s.step x).1.sinks.lines sink = s.sinks.lines sink ++ [] := by
    intro h
    rw [h, List.append_nil]
  have hwork : ∀ {name : String} {f : Guard → Session × Reply ε},
      (∀ g, (f g).1.sinks.lines sink = s.sinks.lines sink) →
      (s.withGuard name f).1.sinks.lines sink = s.sinks.lines sink :=
    withGuard_keeps (P := fun t => t.sinks.lines sink = s.sinks.lines sink) rfl
  cases x with
  | lines name => exact hkept (Sinks.lines_mention name sink s.sinks)
  | take name =>
    show (s.sinks.clear name).lines sink =
      if decide (name = sink) = true then [] else s.sinks.lines sink ++ []
    rw [Sinks.lines_clear, List.append_nil]
    simp only [decide_eq_true_eq]
  | report name message =>
    show (s.sinks.store message (.memory name)).lines sink =
      s.sinks.lines sink ++ if name = sink then [message] else []
    rw [Sinks.lines_store]
    simp only [Sink.memory.injEq]
  | build name schemas => exact hkept rfl
  | describe name => exact hkept (hwork fun g => rfl)
  | check name arguments => exact hkept (hwork fun g => rfl)
  | invoke name arguments operation => exact lines_invoke s name arguments operation sink
  | raising name => exact hkept (hwork fun g => rfl)
  | setPolicy name policy =>
    exact hkept (hwork fun g => Sinks.lines_mentionPolicy policy sink s.sinks)
  | copy name target => exact hkept (hwork fun g => rfl)

/-- What is taken from a sink is all that it holds. -/
theorem taken_moment (s : Session) (x : Step ε) (sink : String) :
    (s.moment x).taken sink = if (s.moment x).empties sink then s.sinks.lines sink else [] := by
  cases x with
  | take name =>
    show (if name = sink then s.sinks.lines name else []) =
      if decide (name = sink) = true then s.sinks.lines sink else []
    by_cases h : name = sink
    · rw [if_pos h, if_pos (decide_eq_true h), h]
    · rw [if_neg h, if_neg (by rwa [decide_eq_true_eq])]
  | _ => rfl

theorem directed_of_empties {m : Moment ε} {sink : String} (h : m.empties sink = true) :
    m.directed sink = [] := by
  obtain ⟨guards, x, reply⟩ := m
  cases x with
  | take name => rfl
  | _ => cases h

/-- A step neither loses nor repeats a message of a sink, and keeps their order. -/
theorem taken_append_lines_step (s : Session) (x : Step ε) (sink : String) :
    (s.moment x).taken sink ++ (s.step x).1.sinks.lines sink =
      s.sinks.lines sink ++ (s.moment x).directed sink := by
  rw [taken_moment, lines_step]
  by_cases h : (s.moment x).empties sink
  · rw [if_pos h, if_pos h, directed_of_empties h]
  · rw [if_neg h, if_neg h, List.nil_append]

/-! ### What a run does to a sink -/

/-- **Over a run no message of a sink is lost or repeated, and they keep their order.** -/
theorem taken_append_lines_run (sink : String) (xs : List (Step ε)) : ∀ s : Session,
    (s.course xs).flatMap (Moment.taken sink) ++ (s.run xs).1.sinks.lines sink =
      s.sinks.lines sink ++ (s.course xs).flatMap (Moment.directed sink) := by
  induction xs with
  | nil => exact fun s => (List.append_nil _).symm
  | cons x xs ih =>
    intro s
    have hrest := ih (s.step x).1
    calc (s.course (x :: xs)).flatMap (Moment.taken sink) ++ (s.run (x :: xs)).1.sinks.lines sink
        = (s.moment x).taken sink ++ (((s.step x).1.course xs).flatMap (Moment.taken sink) ++
            ((s.step x).1.run xs).1.sinks.lines sink) := by
          rw [course, List.flatMap_cons, List.append_assoc]; rfl
      _ = (s.moment x).taken sink ++ (s.step x).1.sinks.lines sink ++
            ((s.step x).1.course xs).flatMap (Moment.directed sink) := by
          rw [hrest, List.append_assoc]
      _ = s.sinks.lines sink ++ (s.course (x :: xs)).flatMap (Moment.directed sink) := by
          rw [taken_append_lines_step, course, List.flatMap_cons, List.append_assoc]

theorem run_append (xs ys : List (Step ε)) : ∀ s : Session,
    (s.run (xs ++ ys)).1 = ((s.run xs).1.run ys).1 := by
  induction xs with
  | nil => exact fun s => rfl
  | cons x xs ih => exact fun s => ih (s.step x).1

theorem course_append (xs ys : List (Step ε)) : ∀ s : Session,
    s.course (xs ++ ys) = s.course xs ++ (s.run xs).1.course ys := by
  induction xs with
  | nil => exact fun s => rfl
  | cons x xs ih => exact fun s => congrArg (s.moment x :: ·) (ih (s.step x).1)

theorem length_course (xs : List (Step ε)) : ∀ s : Session, (s.course xs).length = xs.length := by
  induction xs with
  | nil => exact fun s => rfl
  | cons x xs ih => exact fun s => congrArg (· + 1) (ih (s.step x).1)

theorem map_reply_course (xs : List (Step ε)) : ∀ s : Session,
    (s.course xs).map Moment.reply = (s.run xs).2 := by
  induction xs with
  | nil => exact fun s => rfl
  | cons x xs ih => exact fun s => congrArg ((s.step x).2 :: ·) (ih (s.step x).1)

/-- **A sink holds what was directed to it since it was last emptied.** -/
theorem lines_run (sink : String) (xs : List (Step ε)) :
    (run {} xs).1.sinks.lines sink =
      ((course {} xs).rtakeWhile fun m => !m.empties sink).flatMap (Moment.directed sink) := by
  induction xs using List.reverseRecOn with
  | nil => rfl
  | append_singleton xs x ih =>
    have hlast : (run {} (xs ++ [x])).1 = ((run {} xs).1.step x).1 := run_append xs [x] {}
    have hcourse : course {} (xs ++ [x]) = course {} xs ++ [(run {} xs).1.moment x] :=
      course_append xs [x] {}
    rw [hlast, lines_step, hcourse, List.rtakeWhile_concat]
    by_cases h : ((run {} xs).1.moment x).empties sink = true
    · rw [if_pos h, if_neg (by rw [h]; decide), List.flatMap_nil]
    · rw [if_neg h, if_pos (by rw [Bool.not_eq_true] at h; rw [h]; rfl), List.flatMap_append,
        List.flatMap_singleton, ih]

/-! ### Steps that do nothing to a sink -/

/-- The step looks at a sink, checks arguments, or makes a call that completes or hands its failure
on. -/
inductive Idle (s : Session) : Step ε → Prop
  | lines (sink : String) : Idle s (.lines sink)
  | check (name : String) (arguments : List Json) : Idle s (.check name arguments)
  | completed {name : String} {arguments : List Json} {operation : Operation ε Json} {g : Guard}
      {y : Json} : s.guards.get? name = some g →
      (g.invoke arguments operation).outcome = .ok (.completed y) →
      Idle s (.invoke name arguments operation)
  | propagating {name : String} {arguments : List Json} {operation : Operation ε Json}
      {g : Guard} : s.guards.get? name = some g → g.policy = .propagate →
      Idle s (.invoke name arguments operation)

namespace Idle

theorem not_empties {s : Session} {x : Step ε} (h : s.Idle x) (sink : String) :
    ¬ (s.moment x).empties sink = true := by
  cases h <;> exact Bool.false_ne_true

theorem directed_eq_nil {s : Session} {x : Step ε} (h : s.Idle x) (sink : String) :
    (s.moment x).directed sink = [] := by
  cases h with
  | lines name => rfl
  | check name arguments => rfl
  | @completed name arguments operation g y hg hy =>
    rw [directed_invoke hg]
    exact Guard.reports_of_completed hy (.memory sink)
  | @propagating name arguments operation g hg hp =>
    rw [directed_invoke hg, Guard.reports, hp, if_neg (by rintro ⟨⟩)]

/-- **An idle step changes no sink.** -/
theorem lines_eq {s : Session} {x : Step ε} (h : s.Idle x) (sink : String) :
    (s.step x).1.sinks.lines sink = s.sinks.lines sink := by
  rw [lines_step, if_neg (h.not_empties sink), h.directed_eq_nil, List.append_nil]

end Idle

/-! ### The whole run -/

theorem getElem?_course (before : List (Step ε)) (x : Step ε) (after : List (Step ε))
    (s : Session) :
    (s.course (before ++ x :: after))[before.length]? = some ((s.run before).1.moment x) := by
  have hlen : (s.course before).length = before.length := length_course before s
  rw [course_append, List.getElem?_append_right (by rw [hlen]), hlen, Nat.sub_self]
  rfl

/-- **No message is lost, repeated, out of order or misdirected in a run.**  In the course of a run
each step is taken in the session that the steps before it lead to, and gets the answer of the run.
At the end a sink holds what was directed to it since it was last emptied, and that is what it shows
and gives away; what was taken from it and what it holds are all that was ever directed to it.  A
step that only looks or checks, and a call that completes or hands its failure on, changes no sink.
A guard that was made from schemas calls with these schemas and the policy that was set last; a copy
does so with the schemas and, at first, the policy that the other guard had. -/
theorem no_message_is_lost (xs : List (Step ε)) :
    let s := (run {} xs).1
    let moments := course {} xs
    (moments.map Moment.reply = (run {} xs).2 ∧
      ∀ before x after, xs = before ++ x :: after →
        moments[before.length]? = some ((run {} before).1.moment x)) ∧
    (∀ sink,
      s.sinks.lines sink =
        (moments.rtakeWhile fun m => !m.empties sink).flatMap (Moment.directed sink) ∧
      (s.step (.lines sink : Step ε)).2 = .lines (s.sinks.lines sink) ∧
      (s.step (.take sink : Step ε)).2 = .taken (s.sinks.lines sink) ∧
      moments.flatMap (Moment.taken sink) ++ s.sinks.lines sink =
        moments.flatMap (Moment.directed sink)) ∧
    (∀ (x : Step ε) sink, s.Idle x → (s.step x).1.sinks.lines sink = s.sinks.lines sink) ∧
    (∀ before name schemas after, xs = before ++ .build name schemas :: after →
      (∀ x ∈ after, ¬ x.Makes name) →
      let policy := lastPolicy name .standard after
      s.guards.get? name = some ⟨schemas, policy⟩ ∧
      ∀ arguments (operation : Operation ε Json), (s.step (.invoke name arguments operation)).2 =
        .called (Guard.call schemas arguments operation policy)) ∧
    (∀ before name target g after, xs = before ++ .copy name target :: after →
      (run {} before).1.guards.get? name = some g → (∀ x ∈ after, ¬ x.Makes target) →
      let policy := lastPolicy target g.policy after
      s.guards.get? target = some ⟨g.schemas, policy⟩ ∧
      ∀ arguments (operation : Operation ε Json), (s.step (.invoke target arguments operation)).2 =
        .called (Guard.call g.schemas arguments operation policy)) := by
  refine ⟨⟨map_reply_course xs {}, ?_⟩, fun sink => ⟨lines_run sink xs, ?_, rfl, ?_⟩,
    fun x sink h => h.lines_eq sink, ?_, ?_⟩
  · rintro before x after rfl
    exact getElem?_course before x after {}
  · exact congrArg Reply.lines (Sinks.lines_mention sink sink _)
  · exact taken_append_lines_run sink xs {}
  · rintro before name schemas after rfl hafter
    have hg := get?_guards_after (s := (run {} before).1) (x := .build name schemas) hafter
      (Dict.get?_put_self name _ _)
    rw [← run_append] at hg
    exact ⟨hg, reply_invoke hg⟩
  · rintro before name target g after rfl hname hafter
    have hg := get?_guards_after (s := (run {} before).1) (x := .copy name target) hafter
      (get?_guards_copy hname target)
    rw [← run_append] at hg
    exact ⟨hg, reply_invoke hg⟩

end Session

end ShapeContract
