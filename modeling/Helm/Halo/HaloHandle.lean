import Helm.Framework.History
import Helm.Framework.System

/-! # Completion handles of asynchronous exchanges

  `exchange_async` returns a `Halo_Handle` that owns the requests of the
  exchange. Where the receives go to staging buffers, it also owns the
  callback that copies them to the view once all requests have completed.

  The handles of a process are the state. A call on a handle is a sequence
  of steps, one for each request that it tests or waits for, and MPI
  completes requests between any two of them. No two calls use the same
  handle at once, as for any C++ object.

  Main results:
  - `copy_exactly_once`: the copy is made by the handle that owns the
    exchange, after all of its requests, and once
  - `call_returns`: a call returns when the requests of its handle have
    completed
-/

namespace Halo

open LTS History

/-! ## Section 1: Requests and handles -/

/-- `Request_Guard`, where `none` is `MPI_REQUEST_NULL`. -/
structure RequestGuard where
  req : Option Nat
  deriving DecidableEq

/-- `Staged_Recv`. The callback is named by the exchange whose copy it makes. -/
structure StagedRecv where
  post_recv_copy : Nat
  completed : Bool := false
  deriving DecidableEq

structure HaloHandle where
  requests : List RequestGuard := []
  staged_recv : Option StagedRecv := none
  deriving DecidableEq

/-- `Halo_Handle::empty` -/
def HaloHandle.empty (x : HaloHandle) : Bool := x.requests.isEmpty

/-- `MPI_Test` and `MPI_Wait` set a request that has completed to null. -/
def HaloHandle.clear (x : HaloHandle) (i : Nat) : HaloHandle :=
  { x with requests := x.requests.set i ⟨none⟩ }

/-- `Request_Guard::test`: true for a null request. -/
def RequestGuard.test (g : RequestGuard) (completed : List Nat) : Bool :=
  match g.req with
  | none => true
  | some r => completed.contains r

namespace HaloHandle

/-! ## Section 2: States and histories -/

/-- What follows the loop of `wait()`. -/
inductive After
  | return_
  /-- the rest of the destructor -/
  | destroy
  /-- the rest of a move assignment from this handle -/
  | assign (other : Nat)
  deriving DecidableEq

/-- What a handle is busy with. -/
inductive Call
  | idle
  /-- at the `i`-th request of the loop of `test()` -/
  | testing (i : Nat)
  /-- at the `i`-th request of the loop of `wait()` -/
  | waiting (i : Nat) (after : After)
  /-- the source of a move assignment to this handle -/
  | lent (target : Nat)
  deriving DecidableEq

/-- The requests of an exchange, and whether a copy is attached to it. -/
structure Exchange where
  requests : List Nat
  staging : Bool
  deriving DecidableEq

/-- What happens to the requests and to the exchanges with a copy. -/
inductive Event
  | started (h e : Nat)
  | completed (r : Nat)
  | copied (h e : Nat)
  /-- `e` moves from one handle to the other -/
  | moved (source e target : Nat)
  /-- `test()` has returned true, or `wait()` has returned -/
  | reported (h e : Nat)
  /-- the callback is destroyed -/
  | released (h e : Nat)
  deriving DecidableEq

/-- The exchange of an event. -/
def Event.exchange : Event → Option Nat
  | .completed _ => none
  | .started _ e | .copied _ e | .moved _ e _ | .reported _ e | .released _ e => some e

structure State where
  /-- The requests that MPI has completed. -/
  completed : List Nat
  next_request : Nat
  exchanges : List Exchange
  /-- The handles that are alive. -/
  handles : Nat → Option HaloHandle
  calls : Nat → Call
  log : List Event

namespace State

variable (s : State) (h : Nat) (x : HaloHandle)

def record (ev : Event) : State := { s with log := s.log ++ [ev] }

def put (x : Option HaloHandle) : State := { s with handles := Function.update s.handles h x }

def set_call (call : Call) : State := { s with calls := Function.update s.calls h call }

/-- Record what happens to the exchange of a handle that has a copy to make. -/
def note (ev : Nat → Event) : State :=
  match x.staged_recv with
  | some staged => s.record (ev staged.post_recv_copy)
  | none => s

/-! ## Section 3: Operations -/

/-- `finalize_staged_recv_` -/
def finalize_staged_recv : State :=
  match x.staged_recv with
  | some staged =>
    if staged.completed then s
    else (s.record (.copied h staged.post_recv_copy)).put h
      (some { x with staged_recv := some { staged with completed := true } })
  | none => s

/-- The members of a handle are destroyed. All of its requests are null, so
    the destructors of the guards do nothing. -/
def release : State := (s.note x (.released h)).put h none

/-- The members of `other`, which is `y`, become those of `h`. -/
def take (other : Nat) (y : HaloHandle) : State :=
  ((s.note y (.moved other · h)).put h (some y)).put other (some {})

/-- The rest of `operator=`: the old callback is destroyed. -/
def move_members (other : Nat) (y : HaloHandle) : State :=
  (((s.note x (.released h)).take h other y).set_call h .idle).set_call other .idle

/-- The end of `wait()`, and what comes after it. -/
def finish_wait : After → Option State
  | .return_ => some ((s.note x (.reported h)).set_call h .idle)
  | .destroy => some ((s.release h x).set_call h .idle)
  | .assign other => (s.handles other).map fun y => s.move_members h x other y

/-- A new handle with the requests of a new exchange. -/
def start (num_requests : Nat) (staging : Bool) : State :=
  let e := s.exchanges.length
  let requests := List.range' s.next_request num_requests
  let staged_recv := if staging then some ⟨e, false⟩ else none
  let x : HaloHandle := ⟨requests.map fun r => ⟨some r⟩, staged_recv⟩
  { (s.note x (.started h)).put h (some x) with
    next_request := s.next_request + num_requests
    exchanges := s.exchanges ++ [⟨requests, staging⟩] }

/-- `exchange_async`. `staging` is what the type of the view and the test for
    GPU-aware MPI decide. -/
def exchange_async (num_recv num_send : Nat) (staging : Bool) : State :=
  if num_send = 0 ∧ num_recv = 0 then s.put h (some {})
  else s.start h (num_recv + num_send) staging

/-- `exchange_structured_async` unpacks its buffers in the callback. -/
def exchange_structured_async (active_neighbors : Nat) : State :=
  if active_neighbors = 0 then s.put h (some {})
  else s.start h (active_neighbors + active_neighbors) true

end State

inductive Label
  | exchange_async (h num_recv num_send : Nat) (staging : Bool)
  | exchange_structured_async (h active_neighbors : Nat)
  | construct (h : Nat)
  /-- `Halo_Handle h(std::move(other))` -/
  | move_construct (h other : Nat)
  /-- `h = std::move(other)` -/
  | move_assign (h other : Nat)
  | destroy (h : Nat)
  | test (h : Nat)
  | wait (h : Nat)
  /-- The call on `h` goes on. -/
  | resume (h : Nat)
  /-- MPI completes a request that was posted. -/
  | complete (r : Nat)
  deriving DecidableEq

/-- The handle, when it is alive and no call uses it. -/
def State.usable (s : State) (h : Nat) : Option HaloHandle :=
  if s.calls h = .idle then s.handles h else none

/-- The place for a new handle. -/
def State.vacant (s : State) (h : Nat) : Prop := s.handles h = none

instance (s : State) (h : Nat) : Decidable (s.vacant h) :=
  inferInstanceAs (Decidable (s.handles h = none))

/-- One more request of the loop of `test()`. -/
def State.test_next (s : State) (h : Nat) (x : HaloHandle) (i : Nat) : State :=
  match x.requests[i]? with
  | none => ((s.finalize_staged_recv h x).note x (.reported h)).set_call h .idle
  | some g =>
    if g.test s.completed then (s.put h (some (x.clear i))).set_call h (.testing (i + 1))
    else s.set_call h .idle

/-- One more request of the loop of `wait()`, which blocks until it has
    completed. -/
def State.wait_next (s : State) (h : Nat) (x : HaloHandle) (i : Nat) (after : After) :
    Option State :=
  match x.requests[i]? with
  | none => (s.finalize_staged_recv h x).finish_wait h x after
  | some g =>
    if g.test s.completed then
      some ((s.put h (some (x.clear i))).set_call h (.waiting (i + 1) after))
    else none

/-- The move assignment and the destructor wait only when there are requests. -/
def State.begin_wait (s : State) (h : Nat) (x : HaloHandle) (after : After) : Option State :=
  if x.empty then s.finish_wait h x after
  else some (s.set_call h (.waiting 0 after))

def next (s : State) : Label → Option State
  | .exchange_async h num_recv num_send staging =>
    if s.vacant h then some (s.exchange_async h num_recv num_send staging) else none
  | .exchange_structured_async h active_neighbors =>
    if s.vacant h then some (s.exchange_structured_async h active_neighbors) else none
  | .construct h => if s.vacant h then some (s.put h (some {})) else none
  | .move_construct h other =>
    if s.vacant h then (s.usable other).map fun y => s.take h other y else none
  | .move_assign h other =>
    (s.usable h).bind fun x =>
      if h = other then some s
      else (s.usable other).bind fun _ =>
        (s.set_call other (.lent h)).begin_wait h x (.assign other)
  | .destroy h => (s.usable h).bind fun x => s.begin_wait h x .destroy
  | .test h =>
    (s.usable h).map fun x =>
      if x.empty then s.note x (.reported h) else s.set_call h (.testing 0)
  | .wait h => (s.usable h).bind fun x => s.begin_wait h x .return_
  | .resume h =>
    (s.handles h).bind fun x =>
      match s.calls h with
      | .testing i => some (s.test_next h x i)
      | .waiting i after => s.wait_next h x i after
      | _ => none
  | .complete r =>
    if r < s.next_request ∧ r ∉ s.completed then
      some ({ s with completed := r :: s.completed }.record (.completed r))
    else none

/-- No handles at first. -/
def State.start_of_process : State := ⟨[], 0, [], fun _ => none, fun _ => .idle, []⟩

def system : System State Label := System.ofNext (· = State.start_of_process) next

/-! ## Section 4: What a history says -/

/-- The change of owner that an event makes. -/
def owner_change (e : Nat) : Event → Option (Option Nat)
  | .started h e' => if e' = e then some (some h) else none
  | .moved _ e' target => if e' = e then some (some target) else none
  | .released _ e' => if e' = e then some none else none
  | _ => none

/-- The handle that the exchange was last given to. -/
def owner (e : Nat) (log : List Event) : Option Nat := last (owner_change e) none log

def Event.is_copy (e : Nat) : Event → Bool
  | .copied _ e' => e' = e
  | _ => false

/-- How often the copy of the exchange was made. -/
def copies (e : Nat) (log : List Event) : Nat := log.countP (Event.is_copy e)

/-- An event after the events `pre`. -/
def Justified (exchanges : List Exchange) (pre : List Event) : Event → Prop
  | .started _ e => ∀ ev ∈ pre, ev.exchange ≠ some e
  | .completed _ => True
  | .copied h e => owner e pre = some h ∧ copies e pre = 0 ∧
      ∃ x, exchanges[e]? = some x ∧ ∀ r ∈ x.requests, .completed r ∈ pre
  | .moved source e target => owner e pre = some source ∧ source ≠ target
  | .reported h e | .released h e => owner e pre = some h ∧ copies e pre = 1

section History

variable {exchanges exchanges' : List Exchange} {log : List Event} {ev : Event} {e : Nat}

@[simp] theorem owner_snoc : owner e (log ++ [ev]) = (owner_change e ev).getD (owner e log) :=
  last_snoc ..

@[simp] theorem copies_snoc :
    copies e (log ++ [ev]) = copies e log + if ev.is_copy e then 1 else 0 := by
  simp [copies, List.countP_append, List.countP_singleton]

theorem owner_change_of_ne (h : ev.exchange ≠ some e) : owner_change e ev = none := by
  cases ev <;> simp_all [Event.exchange, owner_change]

theorem is_copy_of_ne (h : ev.exchange ≠ some e) : ev.is_copy e = false := by
  cases ev <;> simp_all [Event.exchange, Event.is_copy]

theorem copies_eq_zero (h : ∀ ev ∈ log, ev.exchange ≠ some e) : copies e log = 0 := by
  apply List.countP_eq_zero.mpr
  intro ev hev
  simp [is_copy_of_ne (h ev hev)]

theorem getElem?_append_some {x : Exchange} (hx : exchanges[e]? = some x) :
    (exchanges ++ exchanges')[e]? = some x :=
  (List.getElem?_append_left (List.getElem?_eq_some_iff.mp hx).1).trans hx

theorem Justified.append (h : Justified exchanges log ev) (more : List Exchange) :
    Justified (exchanges ++ more) log ev := by
  cases ev with
  | copied h' e =>
    obtain ⟨howner, hcopies, x, hx, hdone⟩ := h
    exact ⟨howner, hcopies, x, getElem?_append_some hx, hdone⟩
  | _ => exact h

end History

/-! ## Section 5: The ledger -/

/-- The history agrees with the exchanges and with MPI. -/
structure Journal (s : State) : Prop where
  mentioned : ∀ ev ∈ s.log, ∀ e, ev.exchange = some e → e < s.exchanges.length
  observed : ∀ r ∈ s.completed, .completed r ∈ s.log
  sound : Sound (Justified s.exchanges) s.log

/-- Each guard has the request that was posted for it, or is null after the
    request has completed. -/
structure Tracks (completed : List Nat) (guards : List RequestGuard) (requests : List Nat) :
    Prop where
  length_eq : guards.length = requests.length
  guard : ∀ i (hi : i < guards.length) (hi' : i < requests.length),
    guards[i].req = some requests[i] ∨ guards[i].req = none ∧ requests[i] ∈ completed

/-- The handle owns the exchange of its callback. -/
structure Holds (s : State) (h : Nat) (x : HaloHandle) (staged : StagedRecv) (ex : Exchange) :
    Prop where
  exchange : s.exchanges[staged.post_recv_copy]? = some ex
  requests : Tracks s.completed x.requests ex.requests
  nonempty : ex.requests ≠ []
  owner : owner staged.post_recv_copy s.log = some h
  copies : copies staged.post_recv_copy s.log = if staged.completed then 1 else 0

/-- A copy is attached to the exchange, and no handle has it. -/
def Settled (s : State) (e : Nat) : Prop := owner e s.log = none ∧ copies e s.log = 1

/-- A handle has the callback of the exchange. -/
def Held (s : State) (e : Nat) : Prop :=
  ∃ h x staged, s.handles h = some x ∧ x.staged_recv = some staged ∧ staged.post_recv_copy = e

/-- Every callback has one owner until its copy was made. -/
structure Ownership (s : State) : Prop where
  holds : ∀ {h x staged}, s.handles h = some x → x.staged_recv = some staged →
    ∃ ex, Holds s h x staged ex
  account : ∀ {e ex}, s.exchanges[e]? = some ex → ex.staging = true → Held s e ∨ Settled s e

section Steps

variable {s : State} {h other : Nat} {x y : HaloHandle} {staged : StagedRecv} {ex : Exchange}
  {e : Nat} {ev : Event}

theorem Journal.record (hj : Journal s) (hev : ∀ e, ev.exchange = some e → e < s.exchanges.length)
    (hjust : Justified s.exchanges s.log ev) : Journal (s.record ev) where
  mentioned := by
    intro ev' hev'
    rcases List.mem_append.mp hev' with hold | hnew
    · exact hj.mentioned ev' hold
    · obtain rfl := List.mem_singleton.mp hnew
      exact hev
  observed := fun r hr => List.mem_append_left _ (hj.observed r hr)
  sound := hj.sound.snoc hjust

theorem Journal.fresh (hj : Journal s) : ∀ ev ∈ s.log, ev.exchange ≠ some s.exchanges.length :=
  fun ev hev heq => absurd (hj.mentioned ev hev _ heq) (lt_irrefl _)

theorem Holds.lt (hx : Holds s h x staged ex) : staged.post_recv_copy < s.exchanges.length :=
  (List.getElem?_eq_some_iff.mp hx.exchange).1

theorem Holds.not_empty (hx : Holds s h x staged ex) : x.empty = false := by
  apply Bool.eq_false_iff.mpr
  intro hempty
  have hnil : x.requests = [] := List.isEmpty_iff.mp hempty
  have hlength := hx.requests.length_eq
  rw [hnil] at hlength
  exact hx.nonempty (List.eq_nil_of_length_eq_zero hlength.symm)

theorem Holds.all_completed (hx : Holds s h x staged ex) (hnull : ∀ g ∈ x.requests, g.req = none) :
    ∀ r ∈ ex.requests, r ∈ s.completed := by
  intro r hr
  obtain ⟨i, hi', rfl⟩ := List.getElem_of_mem hr
  have hi : i < x.requests.length := hx.requests.length_eq ▸ hi'
  rcases hx.requests.guard i hi hi' with hsome | ⟨-, hdone⟩
  · rw [hnull _ (List.getElem_mem hi)] at hsome
    cases hsome
  · exact hdone

theorem Ownership.unique (ho : Ownership s) {h' : Nat} {x' : HaloHandle} {staged' : StagedRecv}
    (hx : s.handles h = some x) (hstaged : x.staged_recv = some staged)
    (hx' : s.handles h' = some x') (hstaged' : x'.staged_recv = some staged')
    (hsame : staged'.post_recv_copy = staged.post_recv_copy) : h' = h := by
  obtain ⟨ex, hholds⟩ := ho.holds hx hstaged
  obtain ⟨ex', hholds'⟩ := ho.holds hx' hstaged'
  have howner := hholds'.owner
  rw [hsame, hholds.owner] at howner
  exact (Option.some.inj howner).symm

/-- An event of another exchange, or one that changes neither the owner nor
    the number of copies. -/
def Quiet (ev : Event) (e : Nat) : Prop := owner_change e ev = none ∧ ev.is_copy e = false

theorem quiet_of_ne (hne : ev.exchange ≠ some e) : Quiet ev e :=
  ⟨owner_change_of_ne hne, is_copy_of_ne hne⟩

theorem Holds.record (hx : Holds s h x staged ex) (hq : Quiet ev staged.post_recv_copy) :
    Holds (s.record ev) h x staged ex where
  exchange := hx.exchange
  requests := hx.requests
  nonempty := hx.nonempty
  owner := by simp [State.record, hq.1, hx.owner]
  copies := by simp [State.record, hq.2, hx.copies]

theorem Settled.record (hs : Settled s e) (hq : Quiet ev e) : Settled (s.record ev) e := by
  constructor
  · simp [State.record, hq.1, hs.1]
  · simp [State.record, hq.2, hs.2]

theorem Ownership.put (ho : Ownership s) (hold : ∀ x, s.handles h = some x → x.staged_recv = none)
    {new : Option HaloHandle} (hnew : ∀ x, new = some x → x.staged_recv = none) :
    Ownership (s.put h new) where
  holds := by
    intro h' x staged hx hstaged
    by_cases hh : h' = h
    · subst hh
      have hx : new = some x := by simpa [State.put] using hx
      rw [hnew x hx] at hstaged
      cases hstaged
    · have hx : s.handles h' = some x := by simpa [State.put, hh] using hx
      obtain ⟨ex, hholds⟩ := ho.holds hx hstaged
      exact ⟨ex, ⟨hholds.exchange, hholds.requests, hholds.nonempty, hholds.owner,
        hholds.copies⟩⟩
  account := by
    intro e ex hex hstaging
    rcases ho.account hex hstaging with ⟨h', x, staged, hx, hstaged, he⟩ | hsettled
    · have hne : h' ≠ h := by
        rintro rfl
        rw [hold x hx] at hstaged
        cases hstaged
      exact Or.inl ⟨h', x, staged, by simpa [State.put, hne] using hx, hstaged, he⟩
    · exact Or.inr hsettled

/-- The handle has no callback, or that of `e`. -/
def About (e : Nat) (x : HaloHandle) : Prop :=
  ∀ staged, x.staged_recv = some staged → staged.post_recv_copy = e

/-- The exchanges other than `e` are as before. -/
structure Elsewhere (e : Nat) (s s' : State) : Prop where
  handles : ∀ h x staged, x.staged_recv = some staged → staged.post_recv_copy ≠ e →
    (s'.handles h = some x ↔ s.handles h = some x)
  exchanges : ∀ e', e' ≠ e → s'.exchanges[e']? = s.exchanges[e']?
  completed : s'.completed = s.completed
  owner : ∀ e', e' ≠ e → owner e' s'.log = owner e' s.log
  copies : ∀ e', e' ≠ e → copies e' s'.log = copies e' s.log

namespace Elsewhere

variable {s s' s'' : State}

theorem trans (h₁ : Elsewhere e s s') (h₂ : Elsewhere e s' s'') : Elsewhere e s s'' where
  handles := fun h x staged hstaged hne =>
    (h₂.handles h x staged hstaged hne).trans (h₁.handles h x staged hstaged hne)
  exchanges := fun e' hne => (h₂.exchanges e' hne).trans (h₁.exchanges e' hne)
  completed := h₂.completed.trans h₁.completed
  owner := fun e' hne => (h₂.owner e' hne).trans (h₁.owner e' hne)
  copies := fun e' hne => (h₂.copies e' hne).trans (h₁.copies e' hne)

theorem record (s : State) (hev : ev.exchange = some e) : Elsewhere e s (s.record ev) where
  handles := fun _ _ _ _ _ => Iff.rfl
  exchanges := fun _ _ => rfl
  completed := rfl
  owner := by
    intro e' hne
    have hq : Quiet ev e' := quiet_of_ne (by rw [hev]; simpa using hne.symm)
    simp [State.record, hq.1]
  copies := by
    intro e' hne
    have hq : Quiet ev e' := quiet_of_ne (by rw [hev]; simpa using hne.symm)
    simp [State.record, hq.2]

theorem put (hold : ∀ x, s.handles h = some x → About e x) {o : Option HaloHandle}
    (hnew : ∀ x, o = some x → About e x) : Elsewhere e s (s.put h o) where
  handles := by
    intro h' x staged hstaged hne
    by_cases hh : h' = h
    · subst hh
      have hl : (s.put h' o).handles h' = o := Function.update_self ..
      rw [hl]
      constructor
      · exact fun hx => absurd (hnew x hx staged hstaged) hne
      · exact fun hx => absurd (hold x hx staged hstaged) hne
    · have hl : (s.put h o).handles h' = s.handles h' := Function.update_of_ne hh ..
      rw [hl]
  exchanges := fun _ _ => rfl
  completed := rfl
  owner := fun _ _ => rfl
  copies := fun _ _ => rfl

theorem holds (hel : Elsewhere e s s') (hx : Holds s h x staged ex)
    (hne : staged.post_recv_copy ≠ e) : Holds s' h x staged ex where
  exchange := (hel.exchanges _ hne).trans hx.exchange
  requests := hel.completed ▸ hx.requests
  nonempty := hx.nonempty
  owner := (hel.owner _ hne).trans hx.owner
  copies := (hel.copies _ hne).trans hx.copies

theorem ownership (hel : Elsewhere e s s') (ho : Ownership s)
    (hholds : ∀ h x staged, s'.handles h = some x → x.staged_recv = some staged →
      staged.post_recv_copy = e → ∃ ex, Holds s' h x staged ex)
    (haccount : ∀ ex, s'.exchanges[e]? = some ex → ex.staging = true → Held s' e ∨ Settled s' e) :
    Ownership s' where
  holds := by
    intro h x staged hx hstaged
    by_cases hne : staged.post_recv_copy = e
    · exact hholds h x staged hx hstaged hne
    · obtain ⟨ex, hold⟩ := ho.holds ((hel.handles h x staged hstaged hne).mp hx) hstaged
      exact ⟨ex, hel.holds hold hne⟩
  account := by
    intro e' ex hex hstaging
    by_cases hne : e' = e
    · subst hne
      exact haccount ex hex hstaging
    · rw [hel.exchanges e' hne] at hex
      rcases ho.account hex hstaging with ⟨h, x, staged, hx, hstaged, he⟩ | hsettled
      · have hx' := (hel.handles h x staged hstaged (he ▸ hne)).mpr hx
        exact Or.inl ⟨h, x, staged, hx', hstaged, he⟩
      · exact Or.inr ⟨(hel.owner e' hne).trans hsettled.1, (hel.copies e' hne).trans hsettled.2⟩

end Elsewhere

/-! ## Section 6: The operations keep the ledger -/

/-- The part of the invariant that is about the exchanges. -/
structure Ledger (s : State) : Prop where
  journal : Journal s
  ownership : Ownership s

theorem Ledger.complete (hl : Ledger s) (r : Nat) :
    Ledger ({ s with completed := r :: s.completed }.record (.completed r)) where
  journal :=
    { mentioned := by
        intro ev hev e he
        rcases List.mem_append.mp hev with hold | hnew
        · exact hl.journal.mentioned ev hold e he
        · obtain rfl := List.mem_singleton.mp hnew
          cases he
      observed := by
        intro r' hr'
        rcases List.mem_cons.mp hr' with rfl | hold
        · exact List.mem_append_right _ (List.mem_singleton.mpr rfl)
        · exact List.mem_append_left _ (hl.journal.observed r' hold)
      sound := hl.journal.sound.snoc trivial }
  ownership :=
    { holds := by
        intro h x staged hx hstaged
        obtain ⟨ex, hholds⟩ := hl.ownership.holds hx hstaged
        have hquiet : Quiet (.completed r) staged.post_recv_copy := ⟨rfl, rfl⟩
        have hmore : Tracks (r :: s.completed) x.requests ex.requests := by
          refine ⟨hholds.requests.length_eq, ?_⟩
          intro i hi hi'
          exact (hholds.requests.guard i hi hi').imp_right fun hdone =>
            ⟨hdone.1, List.mem_cons_of_mem _ hdone.2⟩
        have hrecord := hholds.record hquiet
        exact ⟨ex, hrecord.exchange, hmore, hrecord.nonempty, hrecord.owner, hrecord.copies⟩
      account := by
        intro e ex hex hstaging
        have hquiet : Quiet (.completed r) e := ⟨rfl, rfl⟩
        exact (hl.ownership.account hex hstaging).imp_right fun hsettled => hsettled.record hquiet }

theorem Ledger.put (hl : Ledger s) (hold : ∀ x, s.handles h = some x → x.staged_recv = none)
    {new : Option HaloHandle} (hnew : ∀ x, new = some x → x.staged_recv = none) :
    Ledger (s.put h new) :=
  ⟨⟨hl.journal.mentioned, hl.journal.observed, hl.journal.sound⟩, hl.ownership.put hold hnew⟩

/-- The guard of a request that has completed becomes null. -/
theorem Ledger.clear (hl : Ledger s) (hx : s.handles h = some x) {i : Nat} {g : RequestGuard}
    (hi : x.requests[i]? = some g) (hg : g.test s.completed = true) :
    Ledger (s.put h (some (x.clear i))) := by
  cases hstaged : x.staged_recv with
  | none =>
    apply hl.put
    · intro x' hx'
      obtain rfl : x = x' := Option.some.inj (hx.symm.trans hx')
      exact hstaged
    · rintro x' ⟨⟩
      exact hstaged
  | some staged =>
    refine ⟨⟨hl.journal.mentioned, hl.journal.observed, hl.journal.sound⟩, ?_⟩
    obtain ⟨ex, hholds⟩ := hl.ownership.holds hx hstaged
    have habout : ∀ y : HaloHandle, y.staged_recv = x.staged_recv →
        About staged.post_recv_copy y := by
      intro y hy staged' hstaged'
      rw [hy, hstaged] at hstaged'
      exact congrArg StagedRecv.post_recv_copy (Option.some.inj hstaged').symm
    have hel : Elsewhere staged.post_recv_copy s (s.put h (some (x.clear i))) := by
      apply Elsewhere.put
      · intro x' hx'
        obtain rfl : x = x' := Option.some.inj (hx.symm.trans hx')
        exact habout x rfl
      · rintro x' ⟨⟩
        exact habout _ rfl
    -- the request of the guard has completed, so that null is right for it
    have htracks : Tracks s.completed (x.clear i).requests ex.requests := by
      refine ⟨by simpa [HaloHandle.clear] using hholds.requests.length_eq, ?_⟩
      intro j hj hj'
      have hj : j < x.requests.length := by simpa [HaloHandle.clear] using hj
      by_cases hij : i = j
      · subst hij
        have hgi : x.requests[i] = g := (List.getElem?_eq_some_iff.mp hi).2
        refine Or.inr ⟨by simp [HaloHandle.clear], ?_⟩
        rcases hholds.requests.guard i hj hj' with hsome | ⟨-, hdone⟩
        · rw [hgi] at hsome
          simpa [RequestGuard.test, hsome] using hg
        · exact hdone
      · simpa [HaloHandle.clear, hij] using hholds.requests.guard j hj hj'
    have hself : (s.put h (some (x.clear i))).handles h = some (x.clear i) :=
      Function.update_self ..
    apply hel.ownership hl.ownership
    · intro h' x' staged' hx' hstaged' hsame
      by_cases hh : h' = h
      · subst hh
        obtain rfl : x.clear i = x' := Option.some.inj (hself.symm.trans hx')
        obtain rfl : staged = staged' := Option.some.inj (hstaged.symm.trans hstaged')
        exact ⟨ex, hholds.exchange, htracks, hholds.nonempty, hholds.owner, hholds.copies⟩
      · have hx' : s.handles h' = some x' := by simpa [State.put, hh] using hx'
        exact absurd (hl.ownership.unique hx hstaged hx' hstaged' hsame) hh
    · intro _ _ _
      exact Or.inl ⟨h, x.clear i, staged, hself, hstaged, rfl⟩

/-- The copy of the handle has been made, or there is none to make. -/
def Done (x : HaloHandle) : Prop := ∀ staged, x.staged_recv = some staged → staged.completed = true

/-- The handle after `finalize_staged_recv_`. -/
def finalized (x : HaloHandle) : HaloHandle :=
  { x with staged_recv := x.staged_recv.map fun staged => { staged with completed := true } }

theorem done_finalized (x : HaloHandle) : Done (finalized x) := by
  intro staged hstaged
  obtain ⟨_, -, rfl⟩ := Option.map_eq_some_iff.mp hstaged
  rfl

theorem note_finalized (s : State) (x : HaloHandle) (ev : Nat → Event) :
    s.note (finalized x) ev = s.note x ev := by
  unfold State.note finalized
  cases x.staged_recv <;> rfl

@[simp] theorem note_handles (s : State) (x : HaloHandle) (ev : Nat → Event) :
    (s.note x ev).handles = s.handles := by
  unfold State.note
  cases x.staged_recv <;> rfl

@[simp] theorem note_calls (s : State) (x : HaloHandle) (ev : Nat → Event) :
    (s.note x ev).calls = s.calls := by
  unfold State.note
  cases x.staged_recv <;> rfl

theorem finalize_handles (hx : s.handles h = some x) :
    (s.finalize_staged_recv h x).handles = Function.update s.handles h (some (finalized x)) := by
  unfold State.finalize_staged_recv finalized
  cases hstaged : x.staged_recv with
  | none =>
    have hsame : { x with staged_recv := none } = x := by rw [← hstaged]
    simp [hsame, ← hx]
  | some staged =>
    cases hdone : staged.completed with
    | true =>
      have hsame : { x with staged_recv := some { staged with completed := true } } = x := by
        rw [← hdone, ← hstaged]
      simp [hsame, hdone, ← hx]
    | false => simp [State.put, State.record, hdone]

@[simp] theorem finalize_calls : (s.finalize_staged_recv h x).calls = s.calls := by
  unfold State.finalize_staged_recv
  split
  · split <;> rfl
  · rfl

theorem Ledger.finalize (hl : Ledger s) (hx : s.handles h = some x)
    (hnull : ∀ g ∈ x.requests, g.req = none) : Ledger (s.finalize_staged_recv h x) := by
  have hhandles := finalize_handles hx
  unfold State.finalize_staged_recv finalized at *
  cases hstaged : x.staged_recv with
  | none => exact hl
  | some staged =>
    cases hdone : staged.completed with
    | true => simpa [hdone] using hl
    | false =>
      simp only [hstaged, hdone, Bool.false_eq_true, if_false, Option.map_some] at hhandles ⊢
      obtain ⟨ex, hholds⟩ := hl.ownership.holds hx hstaged
      have hcopies : copies staged.post_recv_copy s.log = 0 := by simpa [hdone] using hholds.copies
      have hall : ∀ r ∈ ex.requests, .completed r ∈ s.log :=
        fun r hr => hl.journal.observed r (hholds.all_completed hnull r hr)
      have hjournal : Journal (s.record (.copied h staged.post_recv_copy)) := by
        apply hl.journal.record
        · rintro _ ⟨⟩
          exact hholds.lt
        · exact ⟨hholds.owner, hcopies, ex, hholds.exchange, hall⟩
      refine ⟨⟨hjournal.mentioned, hjournal.observed, hjournal.sound⟩, ?_⟩
      set y : HaloHandle := { x with staged_recv := some { staged with completed := true } }
        with hy
      have hel : Elsewhere staged.post_recv_copy s
          ((s.record (.copied h staged.post_recv_copy)).put h (some y)) := by
        have hrecord : Elsewhere staged.post_recv_copy s
            (s.record (.copied h staged.post_recv_copy)) := Elsewhere.record s rfl
        apply hrecord.trans
        apply Elsewhere.put
        · intro x' hx' staged' hstaged'
          obtain rfl : x = x' := Option.some.inj (hx.symm.trans hx')
          obtain rfl : staged = staged' := Option.some.inj (hstaged.symm.trans hstaged')
          rfl
        · rintro x' ⟨⟩ staged' ⟨⟩
          rfl
      have hself : ((s.record (.copied h staged.post_recv_copy)).put h (some y)).handles h =
          some y := Function.update_self ..
      apply hel.ownership hl.ownership
      · intro h' x' staged' hx' hstaged' hsame
        by_cases hh : h' = h
        · subst hh
          obtain rfl : y = x' := Option.some.inj (hself.symm.trans hx')
          obtain rfl : { staged with completed := true } = staged' := Option.some.inj hstaged'
          refine ⟨ex, hholds.exchange, hholds.requests, hholds.nonempty, ?_, ?_⟩
          · simpa [State.put, State.record, owner_change] using hholds.owner
          · simp [State.put, State.record, hcopies, Event.is_copy]
        · have hx' : s.handles h' = some x' := by
            simpa [State.put, State.record, hh] using hx'
          exact absurd (hl.ownership.unique hx hstaged hx' hstaged' hsame) hh
      · intro _ _ _
        exact Or.inl ⟨h, y, _, hself, rfl, rfl⟩

theorem Ledger.reported (hl : Ledger s) (hx : s.handles h = some x) (hdone : Done x) :
    Ledger (s.note x (.reported h)) := by
  unfold State.note
  cases hstaged : x.staged_recv with
  | none => exact hl
  | some staged =>
    obtain ⟨ex, hholds⟩ := hl.ownership.holds hx hstaged
    have hcopies : copies staged.post_recv_copy s.log = 1 := by
      simpa [hdone staged hstaged] using hholds.copies
    have hquiet : ∀ e, Quiet (.reported h staged.post_recv_copy) e := fun e => ⟨rfl, rfl⟩
    constructor
    · apply hl.journal.record
      · rintro _ ⟨⟩
        exact hholds.lt
      · exact ⟨hholds.owner, hcopies⟩
    · constructor
      · intro h' x' staged' hx' hstaged'
        obtain ⟨ex', hholds'⟩ := hl.ownership.holds hx' hstaged'
        exact ⟨ex', hholds'.record (hquiet _)⟩
      · intro e' ex' hex hstaging
        exact (hl.ownership.account hex hstaging).imp_right fun hsettled =>
          hsettled.record (hquiet _)

/-- A callback is destroyed only after its copy. -/
theorem Ledger.release (hl : Ledger s) (hx : s.handles h = some x) (hdone : Done x) :
    Ledger (s.release h x) := by
  unfold State.release State.note
  cases hstaged : x.staged_recv with
  | none =>
    apply hl.put
    · intro x' hx'
      obtain rfl : x = x' := Option.some.inj (hx.symm.trans hx')
      exact hstaged
    · rintro x' ⟨⟩
  | some staged =>
    obtain ⟨ex, hholds⟩ := hl.ownership.holds hx hstaged
    have hcopies : copies staged.post_recv_copy s.log = 1 := by
      simpa [hdone staged hstaged] using hholds.copies
    have hjournal : Journal (s.record (.released h staged.post_recv_copy)) := by
      apply hl.journal.record
      · rintro _ ⟨⟩
        exact hholds.lt
      · exact ⟨hholds.owner, hcopies⟩
    refine ⟨⟨hjournal.mentioned, hjournal.observed, hjournal.sound⟩, ?_⟩
    have hel : Elsewhere staged.post_recv_copy s
        ((s.record (.released h staged.post_recv_copy)).put h none) := by
      have hrecord : Elsewhere staged.post_recv_copy s
          (s.record (.released h staged.post_recv_copy)) := Elsewhere.record s rfl
      apply hrecord.trans
      apply Elsewhere.put
      · intro x' hx' staged' hstaged'
        obtain rfl : x = x' := Option.some.inj (hx.symm.trans hx')
        obtain rfl : staged = staged' := Option.some.inj (hstaged.symm.trans hstaged')
        rfl
      · rintro x' ⟨⟩
    apply hel.ownership hl.ownership
    · intro h' x' staged' hx' hstaged' hsame
      by_cases hh : h' = h
      · subst hh
        simp [State.put] at hx'
      · have hx' : s.handles h' = some x' := by simpa [State.put, State.record, hh] using hx'
        exact absurd (hl.ownership.unique hx hstaged hx' hstaged' hsame) hh
    · intro _ _ _
      refine Or.inr ⟨?_, ?_⟩
      · simp [State.put, State.record, owner_change]
      · simpa [State.put, State.record, Event.is_copy] using hcopies

/-- The callback and the requests of `other` go to `h`. -/
theorem Ledger.take (hl : Ledger s) (hvacant : ∀ x, s.handles h = some x → x.staged_recv = none)
    (hy : s.handles other = some y) (hne : h ≠ other) : Ledger (s.take h other y) := by
  unfold State.take State.note
  cases hstaged : y.staged_recv with
  | none =>
    have hput : Ledger (s.put h (some y)) := by
      apply hl.put hvacant
      rintro x' ⟨⟩
      exact hstaged
    apply hput.put
    · intro x' hx'
      have hx' : s.handles other = some x' := by simpa [State.put, hne.symm] using hx'
      obtain rfl : y = x' := Option.some.inj (hy.symm.trans hx')
      exact hstaged
    · rintro x' ⟨⟩
      rfl
  | some staged =>
    obtain ⟨ex, hholds⟩ := hl.ownership.holds hy hstaged
    have hjournal : Journal (s.record (.moved other staged.post_recv_copy h)) := by
      apply hl.journal.record
      · rintro _ ⟨⟩
        exact hholds.lt
      · exact ⟨hholds.owner, hne.symm⟩
    refine ⟨⟨hjournal.mentioned, hjournal.observed, hjournal.sound⟩, ?_⟩
    set s' := ((s.record (.moved other staged.post_recv_copy h)).put h (some y)).put other
      (some {}) with hs'
    have habout : About staged.post_recv_copy y := by
      intro staged' hstaged'
      exact congrArg StagedRecv.post_recv_copy (Option.some.inj (hstaged.symm.trans hstaged')).symm
    have hel : Elsewhere staged.post_recv_copy s s' := by
      have hrecord : Elsewhere staged.post_recv_copy s
          (s.record (.moved other staged.post_recv_copy h)) := Elsewhere.record s rfl
      apply hrecord.trans
      refine Elsewhere.trans (Elsewhere.put (h := h) (o := some y) ?_ ?_) (Elsewhere.put ?_ ?_)
      · intro x' hx' staged' hstaged'
        rw [hvacant x' hx'] at hstaged'
        cases hstaged'
      · rintro x' ⟨⟩
        exact habout
      · intro x' hx'
        have hx' : s.handles other = some x' := by
          simpa [State.put, State.record, hne.symm] using hx'
        obtain rfl : y = x' := Option.some.inj (hy.symm.trans hx')
        exact habout
      · rintro x' ⟨⟩ staged' ⟨⟩
    have hself : s'.handles h = some y := by simp [hs', State.put, hne]
    apply hel.ownership hl.ownership
    · intro h' x' staged' hx' hstaged' hsame
      by_cases hother : h' = other
      · subst hother
        obtain rfl : {} = x' := by simpa [hs', State.put] using hx'
        cases hstaged'
      by_cases hh : h' = h
      · subst hh
        obtain rfl : y = x' := Option.some.inj (hself.symm.trans hx')
        obtain rfl : staged = staged' := Option.some.inj (hstaged.symm.trans hstaged')
        refine ⟨ex, hholds.exchange, hholds.requests, hholds.nonempty, ?_, ?_⟩
        · simp [hs', State.put, State.record, owner_change]
        · simpa [hs', State.put, State.record, Event.is_copy] using hholds.copies
      · have hx' : s.handles h' = some x' := by
          simpa [hs', State.put, State.record, hh, hother] using hx'
        exact absurd (hl.ownership.unique hy hstaged hx' hstaged' hsame) hother
    · intro _ _ _
      exact Or.inl ⟨h, y, staged, hself, hstaged, rfl⟩

theorem Ledger.set_call (hl : Ledger s) (h : Nat) (call : Call) : Ledger (s.set_call h call) where
  journal := ⟨hl.journal.mentioned, hl.journal.observed, hl.journal.sound⟩
  ownership :=
    { holds := by
        intro h' x staged hx hstaged
        obtain ⟨ex, hholds⟩ := hl.ownership.holds (s := s) hx hstaged
        exact ⟨ex, hholds.exchange, hholds.requests, hholds.nonempty, hholds.owner,
          hholds.copies⟩
      account := hl.ownership.account }

section Start

variable (s : State) (h num_requests : Nat) (staging : Bool)

@[simp] theorem start_exchanges : (s.start h num_requests staging).exchanges =
    s.exchanges ++ [⟨List.range' s.next_request num_requests, staging⟩] := rfl

@[simp] theorem start_completed : (s.start h num_requests staging).completed = s.completed := by
  cases staging <;> rfl

@[simp] theorem start_calls : (s.start h num_requests staging).calls = s.calls := by
  cases staging <;> rfl

@[simp] theorem start_log : (s.start h num_requests staging).log =
    s.log ++ if staging then [.started h s.exchanges.length] else [] := by
  cases staging with
  | false => exact (List.append_nil _).symm
  | true => rfl

@[simp] theorem start_handles : (s.start h num_requests staging).handles =
    Function.update s.handles h
      (some ⟨(List.range' s.next_request num_requests).map fun r => ⟨some r⟩,
        if staging then some ⟨s.exchanges.length, false⟩ else none⟩) := by
  cases staging <;> rfl

end Start

theorem Journal.start (hj : Journal s) (num_requests : Nat) (staging : Bool) :
    Journal (s.start h num_requests staging) := by
  have hsound : Sound (Justified (s.exchanges ++
      [⟨List.range' s.next_request num_requests, staging⟩])) s.log :=
    hj.sound.mono fun _ _ hev => hev.append _
  constructor
  · intro ev hev e he
    have hlength : (s.start h num_requests staging).exchanges.length = s.exchanges.length + 1 := by
      simp
    rw [hlength]
    rw [start_log] at hev
    rcases List.mem_append.mp hev with hold | hnew
    · exact Nat.lt_succ_of_lt (hj.mentioned ev hold e he)
    · cases staging with
      | false => cases hnew
      | true =>
        obtain rfl := List.mem_singleton.mp hnew
        obtain rfl : s.exchanges.length = e := Option.some.inj he
        exact Nat.lt_succ_self _
  · intro r hr
    rw [start_completed] at hr
    rw [start_log]
    exact List.mem_append_left _ (hj.observed r hr)
  · cases staging with
    | false => exact hsound
    | true => exact hsound.snoc hj.fresh

theorem Ledger.start (hl : Ledger s) (hvacant : s.vacant h) {num_requests : Nat}
    (hpos : 0 < num_requests) (staging : Bool) : Ledger (s.start h num_requests staging) := by
  refine ⟨hl.journal.start num_requests staging, ?_⟩
  set e := s.exchanges.length with he
  set s' := s.start h num_requests staging with hs'
  have hfresh : ∀ ev ∈ s.log, ev.exchange ≠ some e := hl.journal.fresh
  have hexchange : s'.exchanges[e]? = some ⟨List.range' s.next_request num_requests, staging⟩ := by
    simp [hs', he]
  have hother : ∀ h', h' ≠ h → s'.handles h' = s.handles h' := by
    intro h' hh
    simp [hs', hh]
  -- no handle has the new number yet
  have hunused : ∀ h' x' staged', s.handles h' = some x' → x'.staged_recv = some staged' →
      staged'.post_recv_copy ≠ e := by
    intro h' x' staged' hx' hstaged'
    obtain ⟨ex', hholds'⟩ := hl.ownership.holds hx' hstaged'
    exact ne_of_lt hholds'.lt
  have hnew : ∀ x', s'.handles h = some x' → ∀ staged', x'.staged_recv = some staged' →
      staging = true ∧ staged' = ⟨e, false⟩ ∧
      x'.requests = (List.range' s.next_request num_requests).map fun r => ⟨some r⟩ := by
    intro x' hx' staged' hstaged'
    rw [hs', start_handles, Function.update_self] at hx'
    obtain rfl := Option.some.inj hx'
    cases staging with
    | false => cases hstaged'
    | true => exact ⟨rfl, (Option.some.inj hstaged').symm, rfl⟩
  have hel : Elsewhere e s s' := by
    refine ⟨?_, ?_, ?_, ?_, ?_⟩
    · intro h' x' staged' hstaged' hne
      by_cases hh : h' = h
      · subst hh
        rw [show s.handles h' = none from hvacant]
        constructor
        · intro hx'
          obtain ⟨-, rfl, -⟩ := hnew x' hx' staged' hstaged'
          exact absurd rfl hne
        · rintro ⟨⟩
      · rw [hother h' hh]
    · intro e' hne
      have hlength : e' ≠ s.exchanges.length := hne
      rw [hs', start_exchanges, List.getElem?_append]
      split
      · rfl
      · rw [List.getElem?_singleton, if_neg (by omega), List.getElem?_eq_none (by omega)]
    · exact start_completed ..
    · intro e' hne
      cases staging <;> simp [hs', owner_change, ← he, hne.symm]
    · intro e' hne
      cases staging <;> simp [hs', Event.is_copy]
  apply hel.ownership hl.ownership
  · intro h' x' staged' hx' hstaged' hsame
    by_cases hh : h' = h
    · subst hh
      obtain ⟨rfl, rfl, hrequests⟩ := hnew x' hx' staged' hstaged'
      refine ⟨_, hexchange, ?_, ?_, ?_, ?_⟩
      · refine ⟨by simp [hrequests], ?_⟩
        intro i hi hi'
        exact Or.inl (by simp [hrequests])
      · simpa [List.range'_eq_nil_iff] using hpos.ne'
      · simp [hs', owner_change, ← he]
      · simp [hs', Event.is_copy, copies_eq_zero hfresh]
    · rw [hother h' hh] at hx'
      exact absurd hsame (hunused h' x' staged' hx' hstaged')
  · intro ex hex hstaging
    obtain rfl := Option.some.inj (hexchange.symm.trans hex)
    obtain rfl : staging = true := hstaging
    exact Or.inl ⟨h, _, ⟨e, false⟩, Function.update_self .., rfl, rfl⟩

/-! ## Section 7: Calls -/

/-- The request that a loop has come to. -/
def Call.position : Call → Option Nat
  | .testing i | .waiting i _ => some i
  | _ => none

/-- The handle that a move assignment takes from. -/
def Call.source : Call → Option Nat
  | .waiting _ (.assign other) => some other
  | _ => none

/-- The loop has set the guards before the `i`-th to null. -/
def Cleared (x : HaloHandle) (i : Nat) : Prop :=
  i ≤ x.requests.length ∧ ∀ j (hj : j < x.requests.length), j < i → x.requests[j].req = none

theorem Cleared.zero (x : HaloHandle) : Cleared x 0 := ⟨Nat.zero_le _, fun _ _ hj => by omega⟩

theorem Cleared.next {i : Nat} (hx : Cleared x i) (hi : i < x.requests.length) :
    Cleared (x.clear i) (i + 1) := by
  constructor
  · simpa [HaloHandle.clear] using hi
  · intro j hj hji
    have hj : j < x.requests.length := by simpa [HaloHandle.clear] using hj
    by_cases hij : i = j
    · simp [HaloHandle.clear, hij]
    · simpa [HaloHandle.clear, hij] using hx.2 j hj (by omega)

theorem Cleared.all {i : Nat} (hx : Cleared x i) (hi : x.requests[i]? = none) :
    ∀ g ∈ x.requests, g.req = none := by
  have hlength := List.getElem?_eq_none_iff.mp hi
  intro g hg
  obtain ⟨j, hj, rfl⟩ := List.getElem_of_mem hg
  exact hx.2 j hj (by omega)

/-- What holds of the call on a handle. -/
structure CallOk (s : State) (h : Nat) : Prop where
  alive : s.calls h ≠ .idle → s.handles h ≠ none
  cleared : ∀ x i, s.handles h = some x → (s.calls h).position = some i → Cleared x i
  lent : ∀ other, (s.calls h).source = some other → s.calls other = .lent h

theorem CallOk.of_idle (hidle : s.calls h = .idle) : CallOk s h where
  alive := fun hne => absurd hidle hne
  cleared := by
    intro x i _ hpos
    rw [hidle] at hpos
    cases hpos
  lent := by
    intro other hsource
    rw [hidle] at hsource
    cases hsource

/-- The invariant of the system. -/
structure Inv (s : State) : Prop where
  ledger : Ledger s
  calls : ∀ h, CallOk s h

theorem Inv.idle_of_vacant (hi : Inv s) (hvacant : s.vacant h) : s.calls h = .idle := by
  by_contra hne
  exact (hi.calls h).alive hne hvacant

theorem usable_eq_some : s.usable h = some x ↔ s.calls h = .idle ∧ s.handles h = some x := by
  unfold State.usable
  split
  · simp [*]
  · simp [*]

theorem calls_of_local {s' : State} {T : Nat → Prop} (hc : ∀ h, CallOk s h)
    (hframe : ∀ h, ¬ T h → s'.handles h = s.handles h ∧ s'.calls h = s.calls h)
    (hlent : ∀ t target, T t → s.calls t = .lent target → T target)
    (hlocal : ∀ t, T t → CallOk s' t) : ∀ h, CallOk s' h := by
  intro h
  by_cases ht : T h
  · exact hlocal h ht
  · obtain ⟨hhandles, hcalls⟩ := hframe h ht
    refine ⟨?_, ?_, ?_⟩
    · rw [hhandles, hcalls]
      exact (hc h).alive
    · intro x i
      rw [hhandles, hcalls]
      exact (hc h).cleared x i
    · intro other hsource
      rw [hcalls] at hsource
      have hother := (hc h).lent other hsource
      have hnot : ¬ T other := fun hto => ht (hlent other h hto hother)
      rw [(hframe other hnot).2]
      exact hother

theorem calls_of_one {s' : State} (hc : ∀ h, CallOk s h) (hnot : ∀ target, s.calls h ≠ .lent target)
    (hframe : ∀ h', h' ≠ h → s'.handles h' = s.handles h' ∧ s'.calls h' = s.calls h')
    (hlocal : CallOk s' h) : ∀ h', CallOk s' h' := by
  apply calls_of_local (T := (· = h)) hc hframe
  · rintro t target rfl hlent
    exact absurd hlent (hnot target)
  · rintro t rfl
    exact hlocal

theorem finish_wait_finalized (s : State) (h : Nat) (x : HaloHandle) (after : After) :
    s.finish_wait h (finalized x) after = s.finish_wait h x after := by
  cases after <;>
    simp only [State.finish_wait, State.release, State.move_members, note_finalized]

@[simp] theorem take_calls (s : State) (h : Nat) (other : Nat) (y : HaloHandle) :
    (s.take h other y).calls = s.calls := by
  simp [State.take, State.put]

/-- Once the copy has been made, a call ends well. -/
theorem Inv.finish_wait {s' : State} {after : After} (hi : Inv s) (hx : s.handles h = some x)
    (hdone : Done x) (hnot : ∀ target, s.calls h ≠ .lent target)
    (hassign : ∀ other, after = .assign other → s.calls other = .lent h)
    (hstep : s.finish_wait h x after = some s') : Inv s' := by
  cases after with
  | return_ =>
    obtain rfl := Option.some.inj hstep
    refine ⟨(hi.ledger.reported hx hdone).set_call h .idle, ?_⟩
    apply calls_of_one hi.calls hnot
    · intro h' hh
      simp [State.set_call, hh]
    · exact CallOk.of_idle (Function.update_self ..)
  | destroy =>
    obtain rfl := Option.some.inj hstep
    refine ⟨(hi.ledger.release hx hdone).set_call h .idle, ?_⟩
    apply calls_of_one hi.calls hnot
    · intro h' hh
      simp [State.set_call, State.release, State.put, hh]
    · exact CallOk.of_idle (Function.update_self ..)
  | assign other =>
    obtain ⟨y, hy, rfl⟩ := Option.map_eq_some_iff.mp hstep
    have hlent := hassign other rfl
    have hne : h ≠ other := by
      rintro rfl
      exact hnot h hlent
    -- the old contents of `h` are destroyed before the new ones arrive
    have hsplit : (s.note x (.released h)).take h other y = (s.release h x).take h other y := by
      have hnote : ∀ ev, ((s.release h x).note y ev) = ((s.note x (.released h)).note y ev).put h none := by
        intro ev
        unfold State.release State.note
        cases y.staged_recv <;> rfl
      unfold State.take
      rw [hnote]
      simp [State.put]
    have hreleased := hi.ledger.release hx hdone
    have hvacant : ∀ x', (s.release h x).handles h = some x' → x'.staged_recv = none := by
      intro x' hx'
      simp [State.release, State.put] at hx'
    have hy' : (s.release h x).handles other = some y := by
      simpa [State.release, State.put, hne.symm] using hy
    have htake : Ledger ((s.note x (.released h)).take h other y) :=
      hsplit ▸ hreleased.take hvacant hy' hne
    refine ⟨(htake.set_call h .idle).set_call other .idle, ?_⟩
    apply calls_of_local (T := fun t => t = h ∨ t = other) hi.calls
    · intro h' hh
      obtain ⟨hh, hother⟩ := not_or.mp hh
      simp [State.move_members, State.set_call, State.take, State.put, hh, hother]
    · rintro t target (rfl | rfl) htarget
      · exact absurd htarget (hnot target)
      · exact Or.inl (Call.lent.inj (htarget.symm.trans hlent))
    · rintro t (rfl | rfl)
      · apply CallOk.of_idle
        simp [State.move_members, State.set_call, hne]
      · apply CallOk.of_idle
        simp [State.move_members, State.set_call]

/-- The loop of `test()` goes on. -/
theorem Inv.test_next {i : Nat} (hi : Inv s) (hx : s.handles h = some x)
    (hcall : s.calls h = .testing i) : Inv (s.test_next h x i) := by
  have hnot : ∀ target, s.calls h ≠ .lent target := by
    intro target
    rw [hcall]
    simp
  have hcleared := (hi.calls h).cleared x i hx (by rw [hcall]; rfl)
  unfold State.test_next
  cases hg : x.requests[i]? with
  | none =>
    have hfinal := hi.ledger.finalize hx (hcleared.all hg)
    have hx' : (s.finalize_staged_recv h x).handles h = some (finalized x) := by
      simp [finalize_handles hx]
    have hreported := hfinal.reported hx' (done_finalized x)
    rw [note_finalized] at hreported
    refine ⟨hreported.set_call h .idle, ?_⟩
    apply calls_of_one hi.calls hnot
    · intro h' hh
      simp [State.set_call, finalize_handles hx, hh]
    · exact CallOk.of_idle (Function.update_self ..)
  | some g =>
    dsimp only
    split
    · next htest =>
      refine ⟨(hi.ledger.clear hx hg htest).set_call h _, ?_⟩
      apply calls_of_one hi.calls hnot
      · intro h' hh
        simp [State.set_call, State.put, hh]
      · refine ⟨?_, ?_, ?_⟩
        · simp [State.set_call, State.put]
        · intro x' i' hx' hpos
          obtain rfl : x.clear i = x' := by simpa [State.set_call, State.put] using hx'
          obtain rfl : i + 1 = i' := by simpa [State.set_call, Call.position] using hpos
          exact hcleared.next (List.getElem?_eq_some_iff.mp hg).1
        · simp [State.set_call, Call.source]
    · refine ⟨hi.ledger.set_call h .idle, ?_⟩
      apply calls_of_one hi.calls hnot
      · intro h' hh
        simp [State.set_call, hh]
      · exact CallOk.of_idle (Function.update_self ..)

/-- The loop of `wait()` goes on. -/
theorem Inv.wait_next {s' : State} {i : Nat} {after : After} (hi : Inv s)
    (hx : s.handles h = some x) (hcall : s.calls h = .waiting i after)
    (hstep : s.wait_next h x i after = some s') : Inv s' := by
  have hnot : ∀ target, s.calls h ≠ .lent target := by
    intro target
    rw [hcall]
    simp
  have hcleared := (hi.calls h).cleared x i hx (by rw [hcall]; rfl)
  unfold State.wait_next at hstep
  cases hg : x.requests[i]? with
  | none =>
    rw [hg] at hstep
    have hx' : (s.finalize_staged_recv h x).handles h = some (finalized x) := by
      simp [finalize_handles hx]
    have hfinal : Inv (s.finalize_staged_recv h x) := by
      refine ⟨hi.ledger.finalize hx (hcleared.all hg), ?_⟩
      apply calls_of_one hi.calls hnot
      · intro h' hh
        simp [finalize_handles hx, hh]
      · refine ⟨?_, ?_, ?_⟩
        · simp [hx']
        · intro y j hy hpos
          obtain rfl : finalized x = y := Option.some.inj (hx'.symm.trans hy)
          rw [finalize_calls] at hpos
          exact (hi.calls h).cleared x j hx hpos
        · intro other hsource
          rw [finalize_calls] at hsource ⊢
          exact (hi.calls h).lent other hsource
    dsimp only at hstep
    rw [← finish_wait_finalized] at hstep
    refine hfinal.finish_wait hx' (done_finalized x) (by simpa using hnot) ?_ hstep
    rintro other rfl
    rw [finalize_calls]
    exact (hi.calls h).lent other (by rw [hcall]; rfl)
  | some g =>
    rw [hg] at hstep
    obtain ⟨htest, hstep⟩ := Option.ite_none_right_eq_some.mp hstep
    obtain rfl := Option.some.inj hstep
    refine ⟨(hi.ledger.clear hx hg htest).set_call h _, ?_⟩
    apply calls_of_one hi.calls hnot
    · intro h' hh
      simp [State.set_call, State.put, hh]
    · refine ⟨?_, ?_, ?_⟩
      · simp [State.set_call, State.put]
      · intro x' i' hx' hpos
        obtain rfl : x.clear i = x' := by simpa [State.set_call, State.put] using hx'
        obtain rfl : i + 1 = i' := by simpa [State.set_call, Call.position] using hpos
        exact hcleared.next (List.getElem?_eq_some_iff.mp hg).1
      · intro other hsource
        have hsource : (s.calls h).source = some other := by
          rw [← hsource, hcall]
          cases after <;> simp [State.set_call, Call.source]
        have hlent := (hi.calls h).lent other hsource
        have hne : other ≠ h := by
          rintro rfl
          exact hnot other hlent
        simpa [State.set_call, State.put, hne] using hlent

theorem Ownership.done_of_empty (ho : Ownership s) (hx : s.handles h = some x)
    (hempty : x.empty = true) : Done x := by
  intro staged hstaged
  obtain ⟨ex, hholds⟩ := ho.holds hx hstaged
  rw [hholds.not_empty] at hempty
  cases hempty

theorem Inv.begin_wait {s' : State} {after : After} (hi : Inv s) (hidle : s.calls h = .idle)
    (hx : s.handles h = some x) (hassign : ∀ other, after = .assign other → s.calls other = .lent h)
    (hstep : s.begin_wait h x after = some s') : Inv s' := by
  have hnot : ∀ target, s.calls h ≠ .lent target := by
    intro target
    rw [hidle]
    simp
  unfold State.begin_wait at hstep
  split at hstep
  · next hempty =>
    exact hi.finish_wait hx (hi.ledger.ownership.done_of_empty hx hempty) hnot hassign hstep
  · obtain rfl := Option.some.inj hstep
    refine ⟨hi.ledger.set_call h _, ?_⟩
    apply calls_of_one hi.calls hnot
    · intro h' hh
      simp [State.set_call, hh]
    · refine ⟨?_, ?_, ?_⟩
      · simp [State.set_call, hx]
      · intro x' i hx' hpos
        obtain rfl : 0 = i := by simpa [State.set_call, Call.position] using hpos
        exact Cleared.zero x'
      · intro other hsource
        have hother : after = .assign other := by
          cases after <;> simp_all [State.set_call, Call.source]
        have hlent := hassign other hother
        have hne : other ≠ h := by
          rintro rfl
          exact hnot other hlent
        simpa [State.set_call, hne] using hlent

theorem Inv.put_vacant {s' : State} (hi : Inv s) (hvacant : s.vacant h) (hl : Ledger s')
    (hframe : ∀ h', h' ≠ h → s'.handles h' = s.handles h') (hcalls : s'.calls = s.calls) :
    Inv s' := by
  have hidle := hi.idle_of_vacant hvacant
  refine ⟨hl, ?_⟩
  apply calls_of_one hi.calls (h := h)
  · intro target
    rw [hidle]
    simp
  · exact fun h' hh => ⟨hframe h' hh, congrFun hcalls h'⟩
  · exact CallOk.of_idle (by rw [hcalls, hidle])

theorem Inv.construct (hi : Inv s) (hvacant : s.vacant h) : Inv (s.put h (some {})) := by
  have hnone : s.handles h = none := hvacant
  apply hi.put_vacant hvacant
  · apply hi.ledger.put
    · simp [hnone]
    · rintro x ⟨⟩
      rfl
  · intro h' hh
    simp [State.put, hh]
  · rfl

theorem Inv.start (hi : Inv s) (hvacant : s.vacant h) {num_requests : Nat}
    (hpos : 0 < num_requests) (staging : Bool) : Inv (s.start h num_requests staging) := by
  apply hi.put_vacant hvacant
  · exact hi.ledger.start hvacant hpos staging
  · intro h' hh
    simp [hh]
  · exact start_calls ..

theorem Inv.move_construct (hi : Inv s) (hvacant : s.vacant h) (hidle : s.calls other = .idle)
    (hy : s.handles other = some y) : Inv (s.take h other y) := by
  have hnone : s.handles h = none := hvacant
  have hne : h ≠ other := by
    rintro rfl
    rw [hnone] at hy
    cases hy
  refine ⟨hi.ledger.take (by simp [hnone]) hy hne, ?_⟩
  apply calls_of_local (T := fun t => t = h ∨ t = other) hi.calls
  · intro h' hh
    obtain ⟨hh, hother⟩ := not_or.mp hh
    simp [State.take, State.put, hh, hother]
  · rintro t target (rfl | rfl) htarget
    · rw [hi.idle_of_vacant hvacant] at htarget
      cases htarget
    · rw [hidle] at htarget
      cases htarget
  · rintro t (rfl | rfl)
    · exact CallOk.of_idle (by rw [take_calls]; exact hi.idle_of_vacant hvacant)
    · exact CallOk.of_idle (by rw [take_calls]; exact hidle)

theorem Inv.lend (hi : Inv s) (hidle : s.calls other = .idle) (hy : s.handles other = some y) :
    Inv (s.set_call other (.lent h)) := by
  refine ⟨hi.ledger.set_call other _, ?_⟩
  apply calls_of_one hi.calls (h := other)
  · intro target
    rw [hidle]
    simp
  · intro h' hh
    simp [State.set_call, hh]
  · refine ⟨?_, ?_, ?_⟩
    · simp [State.set_call, hy]
    · simp [State.set_call, Call.position]
    · simp [State.set_call, Call.source]

/-- **Step lemma.** -/
theorem step_inv {s' : State} {l : Label} (hi : Inv s) (hstep : next s l = some s') : Inv s' := by
  cases l with
  | exchange_async h num_recv num_send staging =>
    obtain ⟨hvacant, hstep⟩ := Option.ite_none_right_eq_some.mp hstep
    obtain rfl := Option.some.inj hstep
    unfold State.exchange_async
    split
    · exact hi.construct hvacant
    · exact hi.start hvacant (by omega) staging
  | exchange_structured_async h active_neighbors =>
    obtain ⟨hvacant, hstep⟩ := Option.ite_none_right_eq_some.mp hstep
    obtain rfl := Option.some.inj hstep
    unfold State.exchange_structured_async
    split
    · exact hi.construct hvacant
    · exact hi.start hvacant (by omega) true
  | construct h =>
    obtain ⟨hvacant, hstep⟩ := Option.ite_none_right_eq_some.mp hstep
    obtain rfl := Option.some.inj hstep
    exact hi.construct hvacant
  | move_construct h other =>
    obtain ⟨hvacant, hstep⟩ := Option.ite_none_right_eq_some.mp hstep
    obtain ⟨y, hy, rfl⟩ := Option.map_eq_some_iff.mp hstep
    obtain ⟨hidle, hy⟩ := usable_eq_some.mp hy
    exact hi.move_construct hvacant hidle hy
  | move_assign h other =>
    obtain ⟨x, hx, hstep⟩ := Option.bind_eq_some_iff.mp hstep
    split at hstep
    · obtain rfl := Option.some.inj hstep
      exact hi
    · next hne =>
      obtain ⟨y, hy, hstep⟩ := Option.bind_eq_some_iff.mp hstep
      obtain ⟨hidle, hx⟩ := usable_eq_some.mp hx
      obtain ⟨hidle', hy⟩ := usable_eq_some.mp hy
      have hlent := hi.lend (h := h) hidle' hy
      refine hlent.begin_wait ?_ hx ?_ hstep
      · simpa [State.set_call, hne] using hidle
      · rintro other' ⟨⟩
        simp [State.set_call]
  | destroy h =>
    obtain ⟨x, hx, hstep⟩ := Option.bind_eq_some_iff.mp hstep
    obtain ⟨hidle, hx⟩ := usable_eq_some.mp hx
    exact hi.begin_wait hidle hx (by simp) hstep
  | test h =>
    obtain ⟨x, hx, rfl⟩ := Option.map_eq_some_iff.mp hstep
    obtain ⟨hidle, hx⟩ := usable_eq_some.mp hx
    split
    · next hempty =>
      have hdone := hi.ledger.ownership.done_of_empty hx hempty
      refine ⟨hi.ledger.reported hx hdone, ?_⟩
      apply calls_of_one hi.calls (h := h)
      · intro target
        rw [hidle]
        simp
      · intro h' _
        simp
      · exact CallOk.of_idle (by simpa using hidle)
    · refine ⟨hi.ledger.set_call h _, ?_⟩
      apply calls_of_one hi.calls (h := h)
      · intro target
        rw [hidle]
        simp
      · intro h' hh
        simp [State.set_call, hh]
      · refine ⟨?_, ?_, ?_⟩
        · simp [State.set_call, hx]
        · intro x' i hx' hpos
          obtain rfl : 0 = i := by simpa [State.set_call, Call.position] using hpos
          exact Cleared.zero x'
        · simp [State.set_call, Call.source]
  | wait h =>
    obtain ⟨x, hx, hstep⟩ := Option.bind_eq_some_iff.mp hstep
    obtain ⟨hidle, hx⟩ := usable_eq_some.mp hx
    exact hi.begin_wait hidle hx (by simp) hstep
  | resume h =>
    obtain ⟨x, hx, hstep⟩ := Option.bind_eq_some_iff.mp hstep
    cases hcall : s.calls h with
    | testing i =>
      rw [hcall] at hstep
      obtain rfl := Option.some.inj hstep
      exact hi.test_next hx hcall
    | waiting i after =>
      rw [hcall] at hstep
      exact hi.wait_next hx hcall hstep
    | idle =>
      rw [hcall] at hstep
      cases hstep
    | lent target =>
      rw [hcall] at hstep
      cases hstep
  | complete r =>
    obtain ⟨-, hstep⟩ := Option.ite_none_right_eq_some.mp hstep
    obtain rfl := Option.some.inj hstep
    exact ⟨hi.ledger.complete r, fun h =>
      ⟨(hi.calls h).alive, (hi.calls h).cleared, (hi.calls h).lent⟩⟩

theorem init_inv : Inv State.start_of_process where
  ledger :=
    { journal :=
        { mentioned := by
            intro ev hev
            cases hev
          observed := by
            intro r hr
            cases hr
          sound := Sound.nil }
      ownership :=
        { holds := by
            intro h x staged hx
            cases hx
          account := by
            intro e ex hex
            cases hex } }
  calls := fun _ => CallOk.of_idle rfl

/-- **Run lemma.** -/
theorem reachable_inv (hr : system.Reachable s) : Inv s := by
  apply hr.invariant
  · rintro s rfl
    exact init_inv
  · intro s l s' _ hi hstep
    exact step_inv hi hstep

/-! ## Section 8: Every call returns -/

theorem copies_le_one {exchanges : List Exchange} {log : List Event}
    (hsound : Sound (Justified exchanges) log) : copies e log ≤ 1 := by
  induction log using List.reverseRecOn with
  | nil => exact Nat.zero_le _
  | append_singleton log ev ih =>
    obtain ⟨hlog, hev⟩ := hsound.of_snoc
    rw [copies_snoc]
    split
    · next hcopy =>
      cases ev with
      | copied h e' =>
        obtain rfl : e' = e := of_decide_eq_true hcopy
        rw [hev.2.1]
      | _ => cases hcopy
    · exact ih hlog

theorem copies_mono {log log' : List Event} (h : log <+: log') : copies e log ≤ copies e log' :=
  h.sublist.countP_le

theorem prefix_note (s : State) (x : HaloHandle) (ev : Nat → Event) :
    s.log <+: (s.note x ev).log := by
  unfold State.note
  split
  · exact List.prefix_append _ _
  · exact List.prefix_refl _

theorem prefix_take (s : State) (h : Nat) (other : Nat) (y : HaloHandle) :
    s.log <+: (s.take h other y).log := prefix_note s y _

theorem finish_wait_returns (s : State) (h : Nat) (x : HaloHandle) {after : After}
    (halive : ∀ other, after = .assign other → s.handles other ≠ none) :
    ∃ s', s.finish_wait h x after = some s' ∧ s.log <+: s'.log ∧ s'.calls h = .idle := by
  cases after with
  | return_ => exact ⟨_, rfl, prefix_note s x _, Function.update_self ..⟩
  | destroy => exact ⟨_, rfl, prefix_note s x _, Function.update_self ..⟩
  | assign other =>
    obtain ⟨y, hy⟩ := Option.ne_none_iff_exists'.mp (halive other rfl)
    refine ⟨s.move_members h x other y, by simp [State.finish_wait, hy], ?_, ?_⟩
    · exact (prefix_note s x _).trans (prefix_take _ h other y)
    · simp [State.move_members, State.set_call, Function.update_apply]

theorem copies_finalize (hi : Inv s) (hx : s.handles h = some x)
    (hnull : ∀ g ∈ x.requests, g.req = none) (hstaged : x.staged_recv = some staged) :
    copies staged.post_recv_copy (s.finalize_staged_recv h x).log = 1 := by
  have hfinal := hi.ledger.finalize hx hnull
  have hx' : (s.finalize_staged_recv h x).handles h = some (finalized x) := by
    simp [finalize_handles hx]
  have hstaged' : (finalized x).staged_recv = some { staged with completed := true } := by
    simp [finalized, hstaged]
  obtain ⟨ex, hholds⟩ := hfinal.ownership.holds hx' hstaged'
  simpa using hholds.copies

/-- A loop that finds all requests completed comes to its end, and the copy
    has been made then. -/
theorem call_returns (hi : Inv s) (hx : s.handles h = some x) {i : Nat}
    (hpos : (s.calls h).position = some i)
    (hall : ∀ g ∈ x.requests, g.test s.completed = true) :
    ∃ n s', System.exec next s (List.replicate n (.resume h)) = some s' ∧ s'.calls h = .idle ∧
      ∀ staged, x.staged_recv = some staged → copies staged.post_recv_copy s'.log = 1 := by
  -- on the number of requests that the loop has not come to
  induction hk : x.requests.length - i generalizing s x i with
  | zero =>
    have hcleared := (hi.calls h).cleared x i hx hpos
    have hend : x.requests[i]? = none := List.getElem?_eq_none (by have := hcleared.1; omega)
    have hnull := hcleared.all hend
    obtain ⟨s', hnext, hlog, hidle⟩ : ∃ s', next s (.resume h) = some s' ∧
        (s.finalize_staged_recv h x).log <+: s'.log ∧ s'.calls h = .idle := by
      cases hcall : s.calls h with
      | testing j =>
        obtain rfl : j = i := by simpa [hcall, Call.position] using hpos
        refine ⟨((s.finalize_staged_recv h x).note x (.reported h)).set_call h .idle, ?_, ?_, ?_⟩
        · simp [next, hx, hcall, State.test_next, hend]
        · exact prefix_note _ x _
        · exact Function.update_self ..
      | waiting j after =>
        obtain rfl : j = i := by simpa [hcall, Call.position] using hpos
        have halive : ∀ other, after = .assign other →
            (s.finalize_staged_recv h x).handles other ≠ none := by
          rintro other rfl
          have hlent := (hi.calls h).lent other (by rw [hcall]; rfl)
          rw [finalize_handles hx]
          by_cases hh : other = h
          · simp [hh]
          · rw [Function.update_of_ne hh]
            exact (hi.calls other).alive (by rw [hlent]; simp)
        obtain ⟨s', hfinish, hlog, hidle⟩ := finish_wait_returns _ h x halive
        refine ⟨s', ?_, hlog, hidle⟩
        simp [next, hx, hcall, State.wait_next, hend, hfinish]
      | idle => simp [hcall, Call.position] at hpos
      | lent target => simp [hcall, Call.position] at hpos
    refine ⟨1, s', by simp [System.exec, hnext], hidle, ?_⟩
    intro staged hstaged
    apply le_antisymm
    · exact copies_le_one (step_inv hi hnext).ledger.journal.sound
    · exact (copies_finalize hi hx hnull hstaged).symm.le.trans (copies_mono hlog)
  | succ k ih =>
    have hlt : i < x.requests.length := by omega
    have hg : x.requests[i]? = some x.requests[i] := List.getElem?_eq_getElem hlt
    have htest := hall _ (List.getElem_mem hlt)
    -- the step leaves the handle with one more null request
    obtain ⟨s', hnext, hhandle, hcompleted, hpos'⟩ : ∃ s', next s (.resume h) = some s' ∧
        s'.handles h = some (x.clear i) ∧ s'.completed = s.completed ∧
        (s'.calls h).position = some (i + 1) := by
      cases hcall : s.calls h with
      | testing j =>
        obtain rfl : j = i := by simpa [hcall, Call.position] using hpos
        refine ⟨(s.put h (some (x.clear j))).set_call h (.testing (j + 1)), ?_, ?_, rfl, ?_⟩
        · simp [next, hx, hcall, State.test_next, hg, htest]
        · simp [State.set_call, State.put]
        · simp [State.set_call, Call.position]
      | waiting j after =>
        obtain rfl : j = i := by simpa [hcall, Call.position] using hpos
        refine ⟨(s.put h (some (x.clear j))).set_call h (.waiting (j + 1) after), ?_, ?_, rfl, ?_⟩
        · simp [next, hx, hcall, State.wait_next, hg, htest]
        · simp [State.set_call, State.put]
        · simp [State.set_call, Call.position]
      | idle => simp [hcall, Call.position] at hpos
      | lent target => simp [hcall, Call.position] at hpos
    have hall' : ∀ g ∈ (x.clear i).requests, g.test s'.completed = true := by
      intro g hg
      rw [hcompleted]
      rcases List.mem_or_eq_of_mem_set hg with hold | rfl
      · exact hall g hold
      · rfl
    have hmeasure : (x.clear i).requests.length - (i + 1) = k := by
      simp only [HaloHandle.clear, List.length_set]
      omega
    obtain ⟨n, s'', hexec, hrest⟩ := ih (step_inv hi hnext) hhandle hpos' hall' hmeasure
    refine ⟨n + 1, s'', ?_, hrest⟩
    simp [List.replicate_succ, System.exec, hnext, hexec]

end Steps

/-! ## Section 9: The copy is made once -/

/-- The calls that end the exchange of a handle. -/
def completing_calls (h : Nat) : List Label := [.test h, .wait h, .destroy h]

section Main

variable {s : State} {h : Nat} {x : HaloHandle} {staged : StagedRecv} {ex : Exchange} {e : Nat}

theorem Inv.guards_test (hi : Inv s) (hx : s.handles h = some x)
    (hstaged : x.staged_recv = some staged) (hex : s.exchanges[staged.post_recv_copy]? = some ex)
    (hall : ∀ r ∈ ex.requests, r ∈ s.completed) : ∀ g ∈ x.requests, g.test s.completed = true := by
  obtain ⟨ex', hholds⟩ := hi.ledger.ownership.holds hx hstaged
  obtain rfl := Option.some.inj (hholds.exchange.symm.trans hex)
  intro g hg
  obtain ⟨i, hlt, rfl⟩ := List.getElem_of_mem hg
  have hlt' : i < ex'.requests.length := hholds.requests.length_eq ▸ hlt
  rcases hholds.requests.guard i hlt hlt' with hsome | ⟨hnone, -⟩
  · simpa [RequestGuard.test, hsome] using hall _ (List.getElem_mem hlt')
  · simp [RequestGuard.test, hnone]

theorem completing_call_copies (hi : Inv s) (hidle : s.calls h = .idle) (hx : s.handles h = some x)
    (hstaged : x.staged_recv = some staged) (hex : s.exchanges[staged.post_recv_copy]? = some ex)
    (hall : ∀ r ∈ ex.requests, r ∈ s.completed) {l : Label} (hl : l ∈ completing_calls h) :
    ∃ n s', System.exec next s (l :: List.replicate n (.resume h)) = some s' ∧
      s'.calls h = .idle ∧ copies staged.post_recv_copy s'.log = 1 := by
  have hguards := hi.guards_test hx hstaged hex hall
  obtain ⟨ex', hholds⟩ := hi.ledger.ownership.holds hx hstaged
  have husable : s.usable h = some x := usable_eq_some.mpr ⟨hidle, hx⟩
  obtain ⟨s₁, hbegin, hhandles, hcompleted, hpos⟩ : ∃ s₁, next s l = some s₁ ∧
      s₁.handles h = some x ∧ s₁.completed = s.completed ∧ (s₁.calls h).position = some 0 := by
    have hempty := hholds.not_empty
    simp only [completing_calls, List.mem_cons, List.not_mem_nil, or_false] at hl
    rcases hl with rfl | rfl | rfl
    · refine ⟨s.set_call h (.testing 0), ?_, hx, rfl, ?_⟩
      · simp [next, husable, hempty]
      · simp [State.set_call, Call.position]
    · refine ⟨s.set_call h (.waiting 0 .return_), ?_, hx, rfl, ?_⟩
      · simp [next, husable, State.begin_wait, hempty]
      · simp [State.set_call, Call.position]
    · refine ⟨s.set_call h (.waiting 0 .destroy), ?_, hx, rfl, ?_⟩
      · simp [next, husable, State.begin_wait, hempty]
      · simp [State.set_call, Call.position]
  have hi₁ := step_inv hi hbegin
  obtain ⟨n, s', hexec, hidle', hcopy⟩ := call_returns hi₁ hhandles hpos (hcompleted ▸ hguards)
  refine ⟨n, s', ?_, hidle', hcopy staged hstaged⟩
  simp [System.exec, hbegin, hexec]

theorem moved_back {exchanges : List Exchange} {pre mid post : List Event} {h' : Nat}
    (hsound : Sound (Justified exchanges) (pre ++ .moved h e h' :: (mid ++ .copied h e :: post))) :
    ∃ o, .moved o e h ∈ mid := by
  have hmoved : owner e pre = some h ∧ h ≠ h' := hsound pre _ _ rfl
  have hcopied : owner e (pre ++ .moved h e h' :: mid) = some h :=
    (hsound (pre ++ .moved h e h' :: mid) (.copied h e) post (by simp)).1
  have hsplit : pre ++ .moved h e h' :: mid = (pre ++ [.moved h e h']) ++ mid := by simp
  have hbefore : owner e (pre ++ [.moved h e h']) = some h' := by simp [owner_change]
  have hchanged : owner e ((pre ++ [.moved h e h']) ++ mid) ≠ owner e (pre ++ [.moved h e h']) := by
    rw [← hsplit, hcopied, hbefore]
    exact fun heq => hmoved.2 (Option.some.inj heq)
  obtain ⟨ev, hev, hchange⟩ := exists_change hchanged
  rw [show last (owner_change e) none ((pre ++ [.moved h e h']) ++ mid) = some h from
    hsplit ▸ hcopied] at hchange
  cases ev with
  | moved o e' target =>
    simp only [owner_change, Option.ite_none_right_eq_some, Option.some.injEq] at hchange
    obtain ⟨rfl, rfl⟩ := hchange
    exact ⟨o, hev⟩
  | started k e' =>
    -- an exchange starts before it can move
    simp only [owner_change, Option.ite_none_right_eq_some, Option.some.injEq] at hchange
    obtain ⟨rfl, rfl⟩ := hchange
    obtain ⟨mid₁, mid₂, rfl⟩ := List.append_of_mem hev
    have hstarted := hsound (pre ++ .moved k e' h' :: mid₁) (.started k e')
      (mid₂ ++ .copied k e' :: post) (by simp)
    exact absurd rfl (hstarted (.moved k e' h') (by simp))
  | released k e' =>
    simp only [owner_change, Option.ite_none_right_eq_some, Option.some.injEq] at hchange
    cases hchange.2
  | completed r => cases hchange
  | copied k e' => cases hchange
  | reported k e' => cases hchange

theorem copy_exactly_once (hr : system.Reachable s) (hex : s.exchanges[e]? = some ex)
    (hstaging : ex.staging = true) :
    copies e s.log ≤ 1 ∧
    (∀ pre h post, s.log = pre ++ .copied h e :: post →
      owner e pre = some h ∧ ∀ r ∈ ex.requests, .completed r ∈ pre) ∧
    (∀ pre h h' mid post, s.log = pre ++ .moved h e h' :: (mid ++ .copied h e :: post) →
      ∃ o, .moved o e h ∈ mid) ∧
    (∀ pre h post, s.log = pre ++ .reported h e :: post ∨ s.log = pre ++ .released h e :: post →
      copies e pre = 1) ∧
    (owner e s.log = none → copies e s.log = 1) ∧
    (∀ h, owner e s.log = some h → s.calls h = .idle → (∀ r ∈ ex.requests, r ∈ s.completed) →
      ∀ l ∈ completing_calls h, ∃ n s',
        System.exec next s (l :: List.replicate n (.resume h)) = some s' ∧
        s'.calls h = .idle ∧ copies e s'.log = 1) := by
  have hi := reachable_inv hr
  have hsound := hi.ledger.journal.sound
  refine ⟨copies_le_one hsound, ?_, ?_, ?_, ?_, ?_⟩
  · intro pre h post hlog
    obtain ⟨howner, -, ex', hex', hdone⟩ := hsound pre _ post hlog
    obtain rfl := Option.some.inj (hex.symm.trans hex')
    exact ⟨howner, hdone⟩
  · intro pre h h' mid post hlog
    exact moved_back (hlog ▸ hsound)
  · rintro pre h post (hlog | hlog)
    · exact (hsound pre _ post hlog).2
    · exact (hsound pre _ post hlog).2
  · intro hnone
    rcases hi.ledger.ownership.account hex hstaging with ⟨h, x, staged, hx, hstaged, rfl⟩ | hsettled
    · obtain ⟨ex', hholds⟩ := hi.ledger.ownership.holds hx hstaged
      rw [hholds.owner] at hnone
      cases hnone
    · exact hsettled.2
  · intro h howner hidle hall l hl
    rcases hi.ledger.ownership.account hex hstaging with ⟨h', x, staged, hx, hstaged, rfl⟩ | hsettled
    · obtain ⟨ex', hholds⟩ := hi.ledger.ownership.holds hx hstaged
      obtain rfl : h' = h := Option.some.inj (hholds.owner.symm.trans howner)
      exact completing_call_copies hi hidle hx hstaged hex hall hl
    · rw [hsettled.1] at howner
      cases howner

/-- A handle is tested while its second request is pending, and moves to
    another handle, which waits. -/
def test_move_wait : List Label :=
  [.exchange_async 0 1 1 true, .complete 0, .test 0, .resume 0, .resume 0, .move_construct 1 0,
    .wait 1, .resume 1, .complete 1, .resume 1, .resume 1, .destroy 0]

theorem test_move_wait_once :
    ∃ s, System.exec next State.start_of_process test_move_wait = some s ∧
      s.log = [.started 0 0, .completed 0, .moved 0 0 1, .completed 1, .copied 1 0, .reported 1 0] ∧
      copies 0 s.log ≤ 1 := by
  obtain ⟨s, hs⟩ : ∃ s, System.exec next State.start_of_process test_move_wait = some s := ⟨_, rfl⟩
  obtain ⟨hexchanges, hlog⟩ : s.exchanges = [⟨[0, 1], true⟩] ∧ s.log =
      [.started 0 0, .completed 0, .moved 0 0 1, .completed 1, .copied 1 0, .reported 1 0] := by
    obtain rfl := Option.some.inj hs
    exact ⟨rfl, rfl⟩
  have hreach : system.Reachable s := System.reachable_of_exec rfl hs
  have hex : s.exchanges[0]? = some ⟨[0, 1], true⟩ := by rw [hexchanges]; rfl
  exact ⟨s, hs, hlog, (copy_exactly_once hreach hex rfl).1⟩

end Main

end HaloHandle

end Halo
