import ShapeContract.Guard.Session
import ShapeContract.Proofs.Fields

/-!
# What the guards of a session keep

A guard has the schemas it was made with for as long as no other guard takes its name.  Its policy
is the one that was set last (`Session.lastPolicy`); neither calls nor checks change it.

* `get?_guards_step`: one step changes at most the policy of a guard.
* `get?_guards_run`: so a run leaves the schemas and sets the last policy.
-/

namespace ShapeContract.Session

variable {ε : Type}

/-- What holds of a session and of every outcome of work on a guard holds after the work, be there a
guard or not. -/
theorem withGuard_keeps {P : Session → Prop} {s : Session} {name : String}
    {f : Guard → Session × Reply ε} (hs : P s) (hf : ∀ g, P (f g).1) :
    P (s.withGuard name f).1 := by
  unfold withGuard
  split
  · exact hf _
  · exact hs

/-- The step puts a guard under the name, a new one or a copy. -/
def Step.Makes (name : String) : Step ε → Prop
  | .build guard _ => guard = name
  | .copy _ target => target = name
  | _ => False

/-- The policy that the step sets for the guard of a name. -/
def Step.policy? (name : String) : Step ε → Option Policy
  | .setPolicy guard policy => if guard = name then some policy else none
  | .raising guard => if guard = name then some .propagate else none
  | _ => none

/-- The policy that is set last for the guard of a name, if any is set after the first one. -/
def lastPolicy (name : String) (first : Policy) (xs : List (Step ε)) : Policy :=
  (xs.filterMap (Step.policy? name)).getLast?.getD first

theorem lastPolicy_cons (name : String) (first : Policy) (x : Step ε) (xs : List (Step ε)) :
    lastPolicy name first (x :: xs) = lastPolicy name ((x.policy? name).getD first) xs := by
  unfold lastPolicy
  cases h : x.policy? name with
  | none =>
    rw [List.filterMap_cons_none h]
    rfl
  | some policy =>
    rw [List.filterMap_cons_some h, List.getLast?_cons]
    rfl

/-- The policy of a guard set to what it is. -/
theorem map_withPolicy_policy (o : Option Guard) : (o.map fun g => g.withPolicy g.policy) = o := by
  cases o <;> rfl

/-- Setting the policy of one guard leaves every other guard alone. -/
theorem get?_guards_setPolicy (s : Session) (sinks : Sinks) (name other : String)
    (policy : Policy) :
    (s.withGuard name fun g =>
        ({ s with sinks }.store name (g.withPolicy policy) : Session × Reply ε)).1.guards.get?
          other =
      (s.guards.get? other).map fun g =>
        g.withPolicy ((if name = other then some policy else none).getD g.policy) := by
  unfold withGuard
  by_cases h : name = other
  · subst h
    rw [if_pos rfl]
    cases hg : s.guards.get? name with
    | none => exact hg
    | some g => exact Dict.get?_put_self name _ s.guards
  · rw [if_neg h]
    refine Eq.trans ?_ (map_withPolicy_policy _).symm
    cases s.guards.get? name with
    | none => rfl
    | some g => exact Dict.get?_put_of_ne (Ne.symm h) _ s.guards

variable [ToString ε]

/-- **A step that makes no guard of a name changes at most the policy of the one there is.** -/
theorem get?_guards_step {x : Step ε} {name : String} (h : ¬ x.Makes name) (s : Session) :
    (s.step x).1.guards.get? name =
      (s.guards.get? name).map fun g => g.withPolicy ((x.policy? name).getD g.policy) := by
  have hkept : (s.step x).1.guards.get? name = s.guards.get? name →
      (s.step x).1.guards.get? name =
        (s.guards.get? name).map fun g => g.withPolicy (Option.getD none g.policy) :=
    fun hsame => hsame.trans (map_withPolicy_policy _).symm
  have hwork : ∀ {guard : String} {f : Guard → Session × Reply ε},
      (∀ g, (f g).1.guards.get? name = s.guards.get? name) →
      (s.withGuard guard f).1.guards.get? name = s.guards.get? name :=
    withGuard_keeps (P := fun t => t.guards.get? name = s.guards.get? name) rfl
  cases x with
  | lines sink => exact hkept rfl
  | take sink => exact hkept rfl
  | report sink message => exact hkept rfl
  | build guard schemas => exact hkept (Dict.get?_put_of_ne (Ne.symm h) _ s.guards)
  | describe guard => exact hkept (hwork fun _ => rfl)
  | check guard arguments => exact hkept (hwork fun _ => rfl)
  | invoke guard arguments operation => exact hkept (hwork fun _ => rfl)
  | raising guard => exact get?_guards_setPolicy s s.sinks guard name .propagate
  | setPolicy guard policy => exact get?_guards_setPolicy s _ guard name policy
  | copy guard target =>
    exact hkept (hwork fun _ => Dict.get?_put_of_ne (Ne.symm h) _ s.guards)

/-- **A guard keeps its schemas and has the policy that was set last.** -/
theorem get?_guards_run {name : String} {xs : List (Step ε)} (h : ∀ x ∈ xs, ¬ x.Makes name) :
    ∀ s : Session, (s.run xs).1.guards.get? name =
      (s.guards.get? name).map fun g => g.withPolicy (lastPolicy name g.policy xs) := by
  induction xs with
  | nil => exact fun s => (map_withPolicy_policy _).symm
  | cons x xs ih =>
    intro s
    rw [List.forall_mem_cons] at h
    have hrest := ih h.2 (s.step x).1
    rw [get?_guards_step h.1, Option.map_map] at hrest
    refine Eq.trans hrest (congrArg (fun f => (s.guards.get? name).map f) (funext fun g => ?_))
    rw [lastPolicy_cons]
    rfl

/-- What becomes of the guard that a step makes. -/
theorem get?_guards_after {s : Session} {x : Step ε} {name : String} {g : Guard}
    {after : List (Step ε)} (hafter : ∀ y ∈ after, ¬ y.Makes name)
    (hg : (s.step x).1.guards.get? name = some g) :
    (s.run (x :: after)).1.guards.get? name =
      some (g.withPolicy (lastPolicy name g.policy after)) := by
  have hrun : (s.run (x :: after)).1 = ((s.step x).1.run after).1 := rfl
  rw [hrun, get?_guards_run hafter, hg]
  rfl

theorem get?_guards_copy {s : Session} {name : String} {g : Guard}
    (h : s.guards.get? name = some g) (target : String) :
    (s.step (.copy name target : Step ε)).1.guards.get? target = some g := by
  rw [step, withGuard, h]
  exact Dict.get?_put_self target g s.guards

/-- A call under a guard is a call with its schemas and its policy. -/
theorem reply_invoke {s : Session} {name : String} {g : Guard} (h : s.guards.get? name = some g)
    (arguments : List Json) (operation : Operation ε Json) :
    (s.step (.invoke name arguments operation)).2 =
      .called (Guard.call g.schemas arguments operation g.policy) := by
  rw [step, withGuard, h]
  rfl

end ShapeContract.Session
