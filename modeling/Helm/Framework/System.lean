import Mathlib

/-! # Labelled transition systems

  The common vocabulary of the development. A component is a set of
  initial states together with a step relation indexed by labels; its
  properties are statements about the states it can reach.

  This module collects:

  * **Reachability**: `Reachable` for single states and `Steps` for
    finite runs that remember which labels fired.
  * **Proof rules**: `Reachable.invariant` for safety and
    `Steps.stable` for facts that, once true, stay true along a run.
  * **Restriction**: `restrict` keeps only the steps that meet a
    condition on the state and the label. A property that fails on
    some runs is proved on the restricted system instead.
  * **Executable systems**: `ofNext` builds a system from a transition
    function, and `exec` runs it on a list of labels.
-/

namespace LTS

universe u v

/-- A labelled transition system. -/
structure System (State : Type u) (Label : Type v) where
  /-- The states a run may start in. -/
  init : State → Prop
  /-- `step s l s'`: firing `l` in `s` may lead to `s'`. -/
  step : State → Label → State → Prop

variable {State : Type u} {Label : Type v}

namespace System

/-! ### Reachability -/

/-- The states reachable from an initial one in finitely many steps. -/
inductive Reachable (sys : System State Label) : State → Prop where
  | init {s : State} (h : sys.init s) : Reachable sys s
  | step {s s' : State} {l : Label} (hr : Reachable sys s) (h : sys.step s l s') :
      Reachable sys s'

/-- `sys.Steps s ls s'`: firing the labels `ls` one after the other leads
    from `s` to `s'`. -/
inductive Steps (sys : System State Label) : State → List Label → State → Prop where
  | nil (s : State) : Steps sys s [] s
  | cons {s t u : State} {l : Label} {ls : List Label} (h : sys.step s l t)
      (hs : Steps sys t ls u) : Steps sys s (l :: ls) u

variable {sys : System State Label}

theorem Steps.reachable {s s' : State} {ls : List Label}
    (hs : sys.Steps s ls s') (hr : sys.Reachable s) : sys.Reachable s' := by
  induction hs with
  | nil s => exact hr
  | cons h _ ih => exact ih (.step hr h)

theorem Steps.append {s t u : State} {ls ls' : List Label}
    (hs : sys.Steps s ls t) (hs' : sys.Steps t ls' u) : sys.Steps s (ls ++ ls') u := by
  induction hs with
  | nil s => exact hs'
  | cons h _ ih => exact .cons h (ih hs')

/-! ### Proof rules -/

/-- **Invariant rule.** A predicate that holds initially and is preserved
    by every step out of a reachable state holds in every reachable state. -/
theorem Reachable.invariant {P : State → Prop}
    (hinit : ∀ s, sys.init s → P s)
    (hstep : ∀ s l s', sys.Reachable s → P s → sys.step s l s' → P s')
    {s : State} (hr : sys.Reachable s) : P s := by
  induction hr with
  | init h => exact hinit _ h
  | step hr h ih => exact hstep _ _ _ hr ih h

/-- **Stability rule.** A predicate preserved by every step out of a
    reachable state is preserved along every run. -/
theorem Steps.stable {P : State → Prop}
    (hstep : ∀ s l s', sys.Reachable s → P s → sys.step s l s' → P s')
    {s s' : State} {ls : List Label} (hs : sys.Steps s ls s') (hr : sys.Reachable s)
    (hp : P s) : P s' := by
  induction hs with
  | nil s => exact hp
  | cons h _ ih => exact ih (.step hr h) (hstep _ _ _ hr hp h)

/-- **Counting rule.** What one step carries from `k` to `k + 1`, a run of
    `m` steps carries from `k` to `k + m`. -/
theorem Steps.counted {P : Nat → State → Prop}
    (hstep : ∀ k s l s', P k s → sys.step s l s' → P (k + 1) s')
    {k : Nat} {s s' : State} {ls : List Label} (hs : sys.Steps s ls s') (hp : P k s) :
    P (k + ls.length) s' := by
  induction hs generalizing k with
  | nil s => exact hp
  | cons h _ ih =>
    have hlast := ih (hstep _ _ _ _ hp h)
    rwa [Nat.add_assoc, Nat.add_comm 1] at hlast

/-! ### Restriction -/

/-- The steps of `sys` that meet the condition `ok` on the state they start
    in and the label they fire. -/
def restrict (sys : System State Label) (ok : State → Label → Prop) : System State Label where
  init := sys.init
  step := fun s l s' => ok s l ∧ sys.step s l s'

theorem Reachable.of_restrict {ok : State → Label → Prop} {s : State}
    (hr : (sys.restrict ok).Reachable s) : sys.Reachable s := by
  induction hr with
  | init h => exact .init h
  | step _ h ih => exact .step ih h.2

/-! ### Executable systems -/

/-- The system of a transition function. `next s l = none` says that `l`
    cannot fire in `s`. -/
def ofNext (init : State → Prop) (next : State → Label → Option State) :
    System State Label where
  init := init
  step := fun s l s' => next s l = some s'

@[simp] theorem ofNext_init (init : State → Prop) (next : State → Label → Option State) :
    (ofNext init next).init = init := rfl

@[simp] theorem ofNext_step (init : State → Prop) (next : State → Label → Option State)
    (s : State) (l : Label) (s' : State) :
    (ofNext init next).step s l s' ↔ next s l = some s' := Iff.rfl

/-- Run a transition function on a list of labels. -/
def exec (next : State → Label → Option State) : State → List Label → Option State
  | s, [] => some s
  | s, l :: ls => (next s l).bind fun t => exec next t ls

theorem steps_of_exec {init : State → Prop} {next : State → Label → Option State}
    {s s' : State} {ls : List Label} (h : exec next s ls = some s') :
    (ofNext init next).Steps s ls s' := by
  induction ls generalizing s with
  | nil => cases h; exact .nil _
  | cons l ls ih =>
    obtain ⟨t, ht, hrest⟩ := Option.bind_eq_some_iff.mp h
    exact .cons ht (ih hrest)

theorem reachable_of_exec {init : State → Prop} {next : State → Label → Option State}
    {s s' : State} {ls : List Label} (hinit : init s) (h : exec next s ls = some s') :
    (ofNext init next).Reachable s' :=
  (steps_of_exec h).reachable (.init hinit)

/-- The transition function that takes only the steps that meet `ok`. -/
def guarded (next : State → Label → Option State) (ok : State → Label → Prop)
    [∀ s l, Decidable (ok s l)] (s : State) (l : Label) : Option State :=
  if ok s l then next s l else none

theorem restrict_reachable_of_exec {init : State → Prop} {next : State → Label → Option State}
    {ok : State → Label → Prop} [∀ s l, Decidable (ok s l)] {s s' : State} {ls : List Label}
    (hinit : init s) (h : exec (guarded next ok) s ls = some s') :
    ((ofNext init next).restrict ok).Reachable s' := by
  have hr := reachable_of_exec hinit h
  clear h hinit
  induction hr with
  | init h => exact .init h
  | step _ hstep ih =>
    have hstep := (Option.ite_none_right_eq_some).mp hstep
    exact .step ih hstep

end System

end LTS
