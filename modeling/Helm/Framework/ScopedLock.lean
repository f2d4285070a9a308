import Helm.Framework.System

/-! # Scoped locks

  Threads that run programs around one mutex that is not recursive. A
  program is told by the actions it performs: it locks, unlocks, or does
  something else.

  * **Programs**: `Traced` is the monad of such programs. A program may end
    with an exception; `under_lock` holds the lock for a body and releases it
    in either case, as a guard object does.
  * **Discipline**: `Clean held acts` says that the actions, begun with the
    lock held or not, never lock it twice and leave it free. `Nests` says
    that they lock it while they hold it.
  * **Threads**: `mutexSystem` runs calls on any number of threads. If every
    call is clean, no thread ever asks for the lock it holds.
-/

namespace ScopedLock

open LTS

universe u

/-- What a program does next. -/
inductive Act (ε : Type u)
  | lock
  | unlock
  | event (e : ε)

/-! ### Discipline -/

section Discipline
variable {ε : Type u}

/-- The actions lock only while the lock is free, unlock only while it is
    held, and leave it free. -/
def Clean : Bool → List (Act ε) → Prop
  | held, [] => held = false
  | held, .lock :: as => held = false ∧ Clean true as
  | held, .unlock :: as => held = true ∧ Clean false as
  | held, .event _ :: as => Clean held as

/-- At some point the actions lock while the lock is held. -/
def Nests : Bool → List (Act ε) → Prop
  | _, [] => False
  | held, .lock :: as => held = true ∨ Nests true as
  | _, .unlock :: as => Nests false as
  | held, .event _ :: as => Nests held as

theorem Clean.not_nests {held : Bool} {as : List (Act ε)} (h : Clean held as) :
    ¬ Nests held as := by
  induction as generalizing held with
  | nil => exact id
  | cons a as ih =>
    match a with
    | .lock =>
      obtain ⟨hfree, hrest⟩ := h
      rintro (hheld | hnests)
      · rw [hfree] at hheld
        cases hheld
      · exact ih hrest hnests
    | .unlock => exact ih h.2
    | .event _ =>
      show ¬ Nests held as
      exact ih h

theorem Clean.append {held : Bool} {as bs : List (Act ε)} (ha : Clean held as)
    (hb : Clean false bs) : Clean held (as ++ bs) := by
  induction as generalizing held with
  | nil =>
    rw [show held = false from ha]
    exact hb
  | cons a as ih =>
    match a with
    | .lock => exact ⟨ha.1, ih ha.2⟩
    | .unlock => exact ⟨ha.1, ih ha.2⟩
    | .event _ =>
      show Clean held (as ++ bs)
      exact ih ha

/-- No action touches the lock. -/
def Quiet (as : List (Act ε)) : Prop := ∀ a ∈ as, ∃ e, a = .event e

theorem Quiet.append {as bs : List (Act ε)} (ha : Quiet as) (hb : Quiet bs) :
    Quiet (as ++ bs) := by
  intro a h
  rcases List.mem_append.mp h with h | h
  · exact ha a h
  · exact hb a h

theorem Quiet.clean_append {held : Bool} {as bs : List (Act ε)} (h : Quiet as)
    (hb : Clean held bs) : Clean held (as ++ bs) := by
  induction as with
  | nil => exact hb
  | cons a as ih =>
    obtain ⟨e, rfl⟩ := h a List.mem_cons_self
    exact ih fun b hmem => h b (List.mem_cons_of_mem _ hmem)

theorem Quiet.clean {as : List (Act ε)} (h : Quiet as) : Clean false as := by
  have hclean : Clean false (as ++ []) := h.clean_append rfl
  rwa [List.append_nil] at hclean

theorem Quiet.nests_append {held : Bool} {as bs : List (Act ε)} (h : Quiet as) :
    Nests held (as ++ bs) ↔ Nests held bs := by
  induction as with
  | nil => exact Iff.rfl
  | cons a as ih =>
    obtain ⟨e, rfl⟩ := h a List.mem_cons_self
    exact ih fun b hmem => h b (List.mem_cons_of_mem _ hmem)

end Discipline

/-! ### Programs -/

/-- The actions of a program and its result; `none` when an exception leaves
    it. -/
structure Traced (ε : Type u) (α : Type) where
  acts : List (Act ε)
  result : Option α

namespace Traced

variable {ε : Type u} {α β : Type}

instance : Monad (Traced ε) where
  pure a := ⟨[], some a⟩
  bind x f :=
    match x.result with
    | none => ⟨x.acts, none⟩
    | some a => ⟨x.acts ++ (f a).acts, (f a).result⟩

/-- An exception. -/
def throw : Traced ε α := ⟨[], none⟩

/-- One event, and whether the program goes on after it. -/
def perform (e : ε) (ok : Bool) : Traced ε Unit := ⟨[.event e], if ok then some () else none⟩

/-- Hold the lock for the whole body. -/
def under_lock (body : Traced ε α) : Traced ε α := ⟨.lock :: body.acts ++ [.unlock], body.result⟩

theorem acts_bind (x : Traced ε α) (f : α → Traced ε β) :
    (x >>= f).acts = x.acts ++ (x.result.elim [] fun a => (f a).acts) := by
  show (match x.result with
    | none => (⟨x.acts, none⟩ : Traced ε β)
    | some a => ⟨x.acts ++ (f a).acts, (f a).result⟩).acts = _
  split
  · next h => simp [h]
  · next a h => simp [h]

theorem quiet_pure (a : α) : Quiet (pure a : Traced ε α).acts := by
  intro x h
  cases h

theorem quiet_throw : Quiet (throw : Traced ε α).acts := by
  intro x h
  cases h

theorem quiet_perform (e : ε) (ok : Bool) : Quiet (perform e ok).acts := by
  intro x h
  exact ⟨e, List.mem_singleton.mp h⟩

theorem quiet_bind {x : Traced ε α} {f : α → Traced ε β} (hx : Quiet x.acts)
    (hf : ∀ a, Quiet (f a).acts) : Quiet (x >>= f).acts := by
  rw [acts_bind]
  apply hx.append
  match x.result with
  | none =>
    intro a h
    cases h
  | some a => exact hf a

theorem clean_bind {x : Traced ε α} {f : α → Traced ε β} (hx : Clean false x.acts)
    (hf : ∀ a, Clean false (f a).acts) : Clean false (x >>= f).acts := by
  rw [acts_bind]
  apply hx.append
  match x.result with
  | none => rfl
  | some a => exact hf a

theorem clean_under_lock {body : Traced ε α} (h : Quiet body.acts) :
    Clean false (under_lock body).acts :=
  ⟨rfl, h.clean_append ⟨rfl, rfl⟩⟩

end Traced

/-! ### Threads -/

/-- Who holds the lock, and what every thread has left to do. -/
structure MutexState (T : Type) (ε : Type u) where
  owner : Option T
  todo : T → List (Act ε)

/-- A thread that has nothing left to do makes a call, or a thread performs its
    next action. -/
inductive MutexLabel (T C : Type)
  | call (t : T) (c : C)
  | act (t : T)

section Threads
variable {T C : Type} [DecidableEq T] {ε : Type u}

/-- A thread that asks for the lock waits until nobody holds it. -/
def MutexState.next (acts : C → List (Act ε)) (s : MutexState T ε) :
    MutexLabel T C → Option (MutexState T ε)
  | .call t c =>
    match s.todo t with
    | [] => some { s with todo := Function.update s.todo t (acts c) }
    | _ :: _ => none
  | .act t =>
    match s.todo t with
    | [] => none
    | .lock :: as =>
      if s.owner = none then some ⟨some t, Function.update s.todo t as⟩ else none
    | .unlock :: as =>
      if s.owner = some t then some ⟨none, Function.update s.todo t as⟩ else none
    | .event _ :: as => some { s with todo := Function.update s.todo t as }

/-- Nobody holds the lock and nothing is running. -/
def MutexInit (s : MutexState T ε) : Prop := s.owner = none ∧ ∀ t, s.todo t = []

/-- The threads, each making any sequence of calls. -/
def mutexSystem (acts : C → List (Act ε)) : System (MutexState T ε) (MutexLabel T C) :=
  .ofNext MutexInit (MutexState.next acts)

/-- The thread asks for the lock it holds, and waits for itself. -/
def Relocks (s : MutexState T ε) (t : T) : Prop :=
  s.owner = some t ∧ (s.todo t).head? = some .lock

/-- What every thread has left to do fits the lock it holds or does not. -/
def Disciplined (s : MutexState T ε) : Prop :=
  ∀ t, Clean (decide (s.owner = some t)) (s.todo t)

theorem Disciplined.not_relocks {s : MutexState T ε} (h : Disciplined s) (t : T) :
    ¬ Relocks s t := by
  rintro ⟨howner, hhead⟩
  have hclean := h t
  match htodo : s.todo t with
  | [] =>
    rw [htodo] at hhead
    cases hhead
  | a :: as =>
    rw [htodo] at hhead hclean
    cases hhead
    rw [howner] at hclean
    simp [Clean] at hclean

theorem disciplined_init {s : MutexState T ε} (h : MutexInit s) : Disciplined s := by
  intro t
  rw [h.1, h.2 t]
  rfl

theorem Disciplined.update {s : MutexState T ε} (h : Disciplined s) {t : T}
    {owner : Option T} {as : List (Act ε)} (hclean : Clean (decide (owner = some t)) as)
    (hother : ∀ t', t' ≠ t → (owner = some t' ↔ s.owner = some t')) :
    Disciplined ⟨owner, Function.update s.todo t as⟩ := by
  intro t'
  by_cases heq : t' = t
  · subst heq
    simpa using hclean
  · have hsame : decide (owner = some t') = decide (s.owner = some t') :=
      decide_eq_decide.mpr (hother t' heq)
    show Clean (decide (owner = some t')) (Function.update s.todo t as t')
    rw [Function.update_of_ne heq, hsame]
    exact h t'

theorem Disciplined.next {acts : C → List (Act ε)} {s s' : MutexState T ε} {l : MutexLabel T C}
    (h : Disciplined s) (hclean : ∀ t c, l = .call t c → Clean false (acts c))
    (hs : s.next acts l = some s') : Disciplined s' := by
  match l with
  | .call t c =>
    simp only [MutexState.next] at hs
    split at hs
    · next hidle =>
      cases hs
      -- an idle thread does not hold the lock
      have hfree := h t
      rw [hidle] at hfree
      refine h.update ?_ fun _ _ => Iff.rfl
      rw [show decide (s.owner = some t) = false from hfree]
      exact hclean t c rfl
    · cases hs
  | .act t =>
    have hnext := h t
    simp only [MutexState.next] at hs
    split at hs
    · cases hs
    · next as htodo =>
      rw [htodo] at hnext
      obtain ⟨howner, rfl⟩ := Option.ite_none_right_eq_some.mp hs |>.imp_right Option.some.inj
      refine h.update ?_ ?_
      · simpa using hnext.2
      · intro t' hne
        rw [howner]
        simp [hne.symm]
    · next as htodo =>
      rw [htodo] at hnext
      obtain ⟨howner, rfl⟩ := Option.ite_none_right_eq_some.mp hs |>.imp_right Option.some.inj
      refine h.update ?_ ?_
      · simpa using hnext.2
      · intro t' hne
        rw [howner]
        simp [hne.symm]
    · next e as htodo =>
      rw [htodo] at hnext
      cases hs
      exact h.update hnext fun _ _ => Iff.rfl

/-- **Clean calls.** In every run whose calls are all clean, no thread ever
    asks for the lock it holds. -/
theorem not_relocks_of_reachable {acts : C → List (Act ε)}
    {ok : MutexState T ε → MutexLabel T C → Prop}
    (hok : ∀ s t c, ok s (.call t c) → Clean false (acts c)) {s : MutexState T ε}
    (hr : ((mutexSystem acts).restrict ok).Reachable s) (t : T) : ¬ Relocks s t := by
  have hdisciplined : Disciplined s := by
    refine hr.invariant ?_ ?_
    · intro s hs
      exact disciplined_init hs
    · intro s l s' _ hinv hstep
      refine hinv.next ?_ hstep.2
      rintro t c rfl
      exact hok s t c hstep.1
  exact hdisciplined.not_relocks t

end Threads

end ScopedLock
