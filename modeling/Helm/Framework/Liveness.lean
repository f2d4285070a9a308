import Helm.Framework.System

/-! # Infinite runs and progress

  Safety looks at finite runs; progress needs infinite ones. This module
  has the executions of a system and two rules for deriving that one
  situation leads to another:

  * **One helpful step** (`leads_to_of_helpful`): a situation that persists
    until some helpful label fires, and that fairness does not let fire
    never.
  * **Measure** (`leads_to_of_measure`): a situation that is left, or comes
    closer to being left, again and again.

  A system that is built from components runs each of them in turn. What one
  component does along an execution of the whole is an execution of the
  component (`exists_component`), so that progress of the component carries
  over.
-/

namespace LTS

namespace System

universe u v

variable {State : Type u} {Label : Type v} {sys : System State Label}

/-- An infinite run of a system. -/
structure Execution (sys : System State Label) where
  state : ℕ → State
  label : ℕ → Label
  init : sys.init (state 0)
  step : ∀ i, sys.step (state i) (label i) (state (i + 1))

namespace Execution

variable (e : sys.Execution)

theorem reachable (i : ℕ) : sys.Reachable (e.state i) := by
  induction i with
  | zero => exact .init e.init
  | succ i ih => exact .step ih (e.step i)

theorem stable {P : State → Prop} (hstep : ∀ i, P (e.state i) → P (e.state (i + 1))) {i j : ℕ}
    (hij : i ≤ j) (h : P (e.state i)) : P (e.state j) := by
  induction j, hij using Nat.le_induction with
  | base => exact h
  | succ j _ ih => exact hstep j ih

/-- Whenever `P` holds, `Q` holds then or later. -/
def LeadsTo (P Q : State → Prop) : Prop :=
  ∀ i, P (e.state i) → ∃ j, i ≤ j ∧ Q (e.state j)

variable {e} {P Q R : State → Prop}

theorem LeadsTo.trans (hpq : e.LeadsTo P Q) (hqr : e.LeadsTo Q R) : e.LeadsTo P R := by
  intro i hp
  obtain ⟨j, hij, hq⟩ := hpq i hp
  obtain ⟨k, hjk, hr⟩ := hqr j hq
  exact ⟨k, hij.trans hjk, hr⟩

theorem stays_or (hstay : ∀ i, P (e.state i) → P (e.state (i + 1)) ∨ Q (e.state (i + 1))) {i j : ℕ}
    (hij : i ≤ j) (hp : P (e.state i)) :
    P (e.state j) ∨ ∃ k, i ≤ k ∧ Q (e.state k) := by
  induction j, hij using Nat.le_induction with
  | base => exact .inl hp
  | succ j hij ih =>
    rcases ih with hpj | hq
    · exact (hstay j hpj).imp_right fun hq => ⟨j + 1, by omega, hq⟩
    · exact .inr hq

/-- **One helpful step.** `P` persists until `Q`, a helpful label turns `P`
    into `Q`, and while `P` holds a helpful label is bound to fire. -/
theorem leads_to_of_helpful (helpful : Label → Prop)
    (hstay : ∀ i, P (e.state i) → P (e.state (i + 1)) ∨ Q (e.state (i + 1)))
    (hhelp : ∀ i, P (e.state i) → helpful (e.label i) → Q (e.state (i + 1)))
    (hfair : ∀ i, P (e.state i) → ∃ j, i ≤ j ∧ helpful (e.label j)) : e.LeadsTo P Q := by
  -- induction on the distance to the helpful step
  have key : ∀ d i, P (e.state i) → helpful (e.label (i + d)) → ∃ j, i ≤ j ∧ Q (e.state j) := by
    intro d
    induction d with
    | zero => exact fun i hp hl => ⟨i + 1, Nat.le_succ i, hhelp i hp hl⟩
    | succ d ih =>
      intro i hp hl
      rcases hstay i hp with hp' | hq
      · obtain ⟨j, hij, hq⟩ := ih (i + 1) hp' (by rwa [Nat.add_right_comm, Nat.add_assoc])
        exact ⟨j, by omega, hq⟩
      · exact ⟨i + 1, Nat.le_succ i, hq⟩
  intro i hp
  obtain ⟨j, hij, hl⟩ := hfair i hp
  exact key (j - i) i hp (by rwa [Nat.add_sub_cancel' hij])

/-- **Measure.** If `P` always leads to `Q` or back to `P` with a smaller
    measure, then it leads to `Q`. -/
theorem leads_to_of_measure (measure : State → ℕ)
    (h : ∀ m, e.LeadsTo (fun s => P s ∧ measure s = m) fun s => Q s ∨ P s ∧ measure s < m) :
    e.LeadsTo P Q := by
  have key : ∀ m i, P (e.state i) → measure (e.state i) = m → ∃ j, i ≤ j ∧ Q (e.state j) := by
    intro m
    induction m using Nat.strong_induction_on with
    | _ m ih =>
      intro i hp hm
      obtain ⟨j, hij, hq | ⟨hp', hlt⟩⟩ := h m i ⟨hp, hm⟩
      · exact ⟨j, hij, hq⟩
      · obtain ⟨k, hjk, hq⟩ := ih _ hlt j hp' rfl
        exact ⟨k, hij.trans hjk, hq⟩
  exact fun i hp => key _ i hp rfl

/-! ### Components -/

/-- `e'` is what the execution `e` does to the component `f`: step `k` of the
    component is step `φ k` of the whole, which fires the label `g (φ k)`. -/
structure Projects {State' : Type*} {Label' : Type*} {sys' : System State' Label'}
    (e : sys.Execution) (f : State → State') (g : ℕ → Option Label') (e' : sys'.Execution)
    (φ : ℕ → ℕ) : Prop where
  state : ∀ k, e'.state k = f (e.state (φ k))
  label : ∀ k, g (φ k) = some (e'.label k)
  mono : StrictMono φ
  /-- No step of the component is left out. -/
  cover : ∀ j l, g j = some l → ∃ k, φ k = j
  /-- Every state of the whole is seen by the component. -/
  seen : ∀ i, ∃ k, i ≤ φ k ∧ e'.state k = f (e.state i)

theorem component_const {State' : Type*} {Label' : Type*} {f : State → State'}
    {g : ℕ → Option Label'} (hnone : ∀ i, g i = none → f (e.state (i + 1)) = f (e.state i))
    {i j : ℕ} (hij : i ≤ j) (hgap : ∀ k, i ≤ k → k < j → g k = none) :
    f (e.state j) = f (e.state i) := by
  induction j, hij using Nat.le_induction with
  | base => rfl
  | succ j hij ih =>
    rw [hnone j (hgap j hij (Nat.lt_succ_self j))]
    exact ih fun k hk hkj => hgap k hk (hkj.trans (Nat.lt_succ_self j))

/-- **Components.** Each step of the whole is a step of the component or leaves
    it alone, and the component is never done. -/
theorem exists_component {State' : Type*} {Label' : Type*} {sys' : System State' Label'}
    (f : State → State') (g : ℕ → Option Label') (hinit : ∀ s, sys.init s → sys'.init (f s))
    (hsome : ∀ i l, g i = some l → sys'.step (f (e.state i)) l (f (e.state (i + 1))))
    (hnone : ∀ i, g i = none → f (e.state (i + 1)) = f (e.state i))
    (hinf : ∀ i, ∃ j, i ≤ j ∧ (g j).isSome) :
    ∃ (e' : sys'.Execution) (φ : ℕ → ℕ), e.Projects f g e' φ := by
  classical
  -- `φ` enumerates the steps of the component
  let p : ℕ → Prop := fun i => (g i).isSome
  have hp : {i | p i}.Infinite := Set.infinite_of_not_bddAbove fun ⟨b, hb⟩ => by
    obtain ⟨j, hj, hg⟩ := hinf (b + 1)
    have : j ≤ b := hb hg
    omega
  have hmem : ∀ k, p (Nat.nth p k) := Nat.nth_mem_of_infinite hp
  have hmono : StrictMono (Nat.nth p) := Nat.nth_strictMono hp
  -- from any moment to the next step of the component nothing happens to it
  have hnext : ∀ i, f (e.state (Nat.nth p (Nat.count p i))) = f (e.state i) := by
    intro i
    refine component_const hnone (Nat.le_nth_count hp i) fun k hk hlt => ?_
    by_contra hsome
    have hpk : p k := Option.isSome_iff_ne_none.mpr hsome
    have hcount : Nat.count p i ≤ Nat.count p k := Nat.count_monotone p hk
    have := hmono.monotone hcount
    rw [Nat.nth_count hpk] at this
    omega
  have hsucc : ∀ k, f (e.state (Nat.nth p (k + 1))) = f (e.state (Nat.nth p k + 1)) := by
    intro k
    rw [← hnext (Nat.nth p k + 1), Nat.count_succ, if_pos (hmem k), Nat.count_nth_of_infinite hp]
  refine ⟨⟨fun k => f (e.state (Nat.nth p k)), fun k => (g (Nat.nth p k)).get (hmem k), ?_, ?_⟩,
    Nat.nth p, fun _ => rfl, fun k => (Option.some_get _).symm, hmono, ?_, ?_⟩
  · have := hnext 0
    rw [Nat.count_zero] at this
    rw [this]
    exact hinit _ e.init
  · intro k
    rw [hsucc]
    exact hsome _ _ (Option.some_get _).symm
  · intro j l hl
    have hpj : p j := by simp [p, hl]
    exact ⟨Nat.count p j, Nat.nth_count hpj⟩
  · exact fun i => ⟨Nat.count p i, Nat.le_nth_count hp i, hnext i⟩

end Execution

end System

end LTS
