import Helm.Framework.System
import Helm.Framework.Signed
import Helm.Framework.Word

/-! # SPAN: the coherency state of a field view

  A `FieldView` wraps a host pointer and a device pointer to two copies of one
  field. It does not see the writes to the copies: whoever writes marks the
  copy as dirty, and a sync copies toward the side that is asked for if the
  other one is dirty.

  Host and device are two memories. A write changes some elements of one copy.
  `latest` is the field with all writes in their order; `owes_host` says that the device has been written since the last
  `sync_for_host`, and `owes_device` the other way round. A side may be
  written only when it owes nothing.

  Main result: `latest_write_is_held`.
-/

namespace Span

open Signed LTS

inductive CoherencyState where
  | HOST_CLEAN
  | HOST_DIRTY
  | DEVICE_DIRTY
  deriving DecidableEq

/-! ## Section 1: Views -/

structure FieldView where
  host_ptr : Option Nat
  device_ptr : Option Nat
  extents : List Nat
  total_size : Nat
  state : CoherencyState
  deriving DecidableEq

/-- The elements of the two memories, by their addresses. -/
structure Memory (T : Type) where
  host : Nat → T
  device : Nat → T

namespace FieldView

/-- A product of type `size_t`. -/
def compute_total_size (exts : List Nat) : Nat := exts.foldl (Word.mul 64) 1

def validate_extents (exts : List Nat) : Outcome String Unit :=
  match exts.findIdx? (· = 0) with
  | some i => .thrown ("FieldView: extent[" ++ toString i ++ "] must be > 0")
  | none => .returned ()

/-- The constructor from two pointers. -/
def dual (host_ptr device_ptr : Option Nat) (exts : List Nat) : Outcome String FieldView := do
  let view : FieldView := ⟨host_ptr, device_ptr, exts, compute_total_size exts, .HOST_CLEAN⟩
  if host_ptr = none ∧ device_ptr = none then
    return { view with extents := exts.map fun _ => 0, total_size := 0 }
  else
    validate_extents exts
    return view

variable (view : FieldView)

def mark_host_dirty : FieldView := { view with state := .HOST_DIRTY }

def mark_device_dirty : FieldView := { view with state := .DEVICE_DIRTY }

variable {T : Type}

/-- `n` elements of one memory after the address `src` are copied into another
    one after the address `dst`. -/
def deep_copy (n dst src : Nat) (target source : Nat → T) : Nat → T := fun a =>
  if dst ≤ a ∧ a < dst + n then source (src + (a - dst)) else target a

def sync_for_device (m : Memory T) : FieldView × Memory T :=
  match view.state, view.host_ptr, view.device_ptr with
  | .HOST_DIRTY, some h, some d =>
    ({ view with state := .HOST_CLEAN },
      { m with device := deep_copy view.total_size d h m.device m.host })
  | _, _, _ => (view, m)

def sync_for_host (m : Memory T) : FieldView × Memory T :=
  match view.state, view.host_ptr, view.device_ptr with
  | .DEVICE_DIRTY, some h, some d =>
    ({ view with state := .HOST_CLEAN },
      { m with host := deep_copy view.total_size h d m.host m.device })
  | _, _, _ => (view, m)

end FieldView

/-! ## Section 2: Runs -/

structure State (T : Type) where
  view : FieldView
  memory : Memory T
  /-- The elements as they have been written, on whichever side. -/
  latest : Nat → T
  owes_host : Bool
  owes_device : Bool

/-- Writes of some elements come with the mark that follows them. A repeated
    mark is a write of none. -/
inductive Label (T : Type) where
  | write_host (update : Nat → Option T)
  | write_device (update : Nat → Option T)
  | sync_for_device
  | sync_for_host

section
variable {T : Type}

/-- Some of the `n` elements from the address `p` on are written. -/
def write (n p : Nat) (update : Nat → Option T) (target : Nat → T) : Nat → T := fun a =>
  if p ≤ a ∧ a < p + n then (update (a - p)).getD (target a) else target a

/-- A write that the discipline does not allow cannot fire. -/
def next (h d : Nat) (s : State T) : Label T → Option (State T)
  | .write_host update =>
    if s.owes_host then none
    else some
      { s with
        view := s.view.mark_host_dirty
        memory := { s.memory with host := write s.view.total_size h update s.memory.host }
        latest := fun k => (update k).getD (s.latest k)
        owes_device := true }
  | .write_device update =>
    if s.owes_device then none
    else some
      { s with
        view := s.view.mark_device_dirty
        memory := { s.memory with device := write s.view.total_size d update s.memory.device }
        latest := fun k => (update k).getD (s.latest k)
        owes_host := true }
  | .sync_for_device =>
    let (view, memory) := s.view.sync_for_device s.memory
    some { s with view, memory, owes_device := false }
  | .sync_for_host =>
    let (view, memory) := s.view.sync_for_host s.memory
    some { s with view, memory, owes_host := false }

/-- The host copy is what was written last. -/
def State.host_holds (h : Nat) (s : State T) : Prop :=
  ∀ k < s.view.total_size, s.memory.host (h + k) = s.latest k

def State.device_holds (d : Nat) (s : State T) : Prop :=
  ∀ k < s.view.total_size, s.memory.device (d + k) = s.latest k

/-- A new view over two pointers, with copies that are equal. -/
def Initial (h d : Nat) (s : State T) : Prop :=
  (∃ exts, FieldView.dual (some h) (some d) exts = .returned s.view) ∧ s.host_holds h ∧
    s.device_holds d ∧ s.owes_host = false ∧ s.owes_device = false

/-- **All runs** of a view over the pointers `h` and `d` that keep the
    discipline. -/
def field_view (h d : Nat) : System (State T) (Label T) := System.ofNext (Initial h d) (next h d)

/-! ## Section 3: The state is truthful -/

/-- **What the state says** of the two copies, and of what the sides owe. -/
structure Inv (h d : Nat) (s : State T) : Prop where
  host_ptr : s.view.host_ptr = some h
  device_ptr : s.view.device_ptr = some d
  clean : s.view.state = .HOST_CLEAN → s.host_holds h ∧ s.device_holds d
  host_dirty : s.view.state = .HOST_DIRTY → s.host_holds h ∧ s.owes_device = true
  device_dirty : s.view.state = .DEVICE_DIRTY → s.device_holds d ∧ s.owes_host = true

variable {h d : Nat} {s s' : State T} {update : Nat → Option T}

theorem write_at {n p k : Nat} {target : Nat → T} (hk : k < n) :
    write n p update target (p + k) = (update k).getD (target (p + k)) := by
  unfold write
  rw [if_pos (by omega), Nat.add_sub_cancel_left]

theorem deep_copy_at {n dst src k : Nat} {target source : Nat → T} (hk : k < n) :
    FieldView.deep_copy n dst src target source (dst + k) = source (src + k) := by
  unfold FieldView.deep_copy
  rw [if_pos (by omega), Nat.add_sub_cancel_left]

theorem dual_parts {host_ptr device_ptr : Option Nat} {exts : List Nat} {view : FieldView}
    (hview : FieldView.dual host_ptr device_ptr exts = .returned view) :
    view.host_ptr = host_ptr ∧ view.device_ptr = device_ptr ∧ view.state = .HOST_CLEAN := by
  unfold FieldView.dual at hview
  dsimp only at hview
  split at hview
  · cases hview
    exact ⟨rfl, rfl, rfl⟩
  · obtain ⟨_, _, hview⟩ := Outcome.bind_eq_returned.mp hview
    cases hview
    exact ⟨rfl, rfl, rfl⟩

theorem inv_init (hinit : Initial h d s) : Inv h d s := by
  obtain ⟨⟨exts, hview⟩, hhost, hdevice, -, -⟩ := hinit
  obtain ⟨hhost_ptr, hdevice_ptr, hstate⟩ := dual_parts hview
  constructor
  · exact hhost_ptr
  · exact hdevice_ptr
  · intro _
    exact ⟨hhost, hdevice⟩
  · intro hdirty
    rw [hstate] at hdirty
    cases hdirty
  · intro hdirty
    rw [hstate] at hdirty
    cases hdirty

theorem sync_for_device_of_dirty (hinv : Inv h d s) (hstate : s.view.state = .HOST_DIRTY) :
    s.view.sync_for_device s.memory =
      ({ s.view with state := .HOST_CLEAN },
        { s.memory with
          device := FieldView.deep_copy s.view.total_size d h s.memory.device s.memory.host }) := by
  simp only [FieldView.sync_for_device, hstate, hinv.host_ptr, hinv.device_ptr]

theorem sync_for_device_of_other (hstate : s.view.state ≠ .HOST_DIRTY) :
    s.view.sync_for_device s.memory = (s.view, s.memory) := by
  unfold FieldView.sync_for_device
  split
  · next hdirty _ _ => exact absurd hdirty hstate
  · rfl

theorem sync_for_host_of_dirty (hinv : Inv h d s) (hstate : s.view.state = .DEVICE_DIRTY) :
    s.view.sync_for_host s.memory =
      ({ s.view with state := .HOST_CLEAN },
        { s.memory with
          host := FieldView.deep_copy s.view.total_size h d s.memory.host s.memory.device }) := by
  simp only [FieldView.sync_for_host, hstate, hinv.host_ptr, hinv.device_ptr]

theorem sync_for_host_of_other (hstate : s.view.state ≠ .DEVICE_DIRTY) :
    s.view.sync_for_host s.memory = (s.view, s.memory) := by
  unfold FieldView.sync_for_host
  split
  · next hdirty _ _ => exact absurd hdirty hstate
  · rfl

theorem sync_for_device_step (hinv : Inv h d s) (hstep : next h d s .sync_for_device = some s') :
    Inv h d s' ∧ s'.device_holds d ∧ (s.host_holds h → s'.host_holds h) := by
  by_cases hdirty : s.view.state = .HOST_DIRTY
  · unfold next at hstep
    dsimp only at hstep
    rw [sync_for_device_of_dirty hinv hdirty] at hstep
    cases hstep
    have hhost := (hinv.host_dirty hdirty).1
    -- every element of the device copy comes from the host
    have hcopied : ∀ k < s.view.total_size,
        FieldView.deep_copy s.view.total_size d h s.memory.device s.memory.host (d + k) =
          s.latest k := by
      intro k hk
      rw [deep_copy_at hk]
      exact hhost k hk
    refine ⟨⟨hinv.host_ptr, hinv.device_ptr, fun _ => ⟨hhost, hcopied⟩, ?_, ?_⟩, hcopied, id⟩
    · intro hstate
      cases hstate
    · intro hstate
      cases hstate
  · unfold next at hstep
    dsimp only at hstep
    rw [sync_for_device_of_other hdirty] at hstep
    cases hstep
    have hdevice : s.device_holds d := by
      cases hstate : s.view.state with
      | HOST_CLEAN => exact (hinv.clean hstate).2
      | HOST_DIRTY => exact absurd hstate hdirty
      | DEVICE_DIRTY => exact (hinv.device_dirty hstate).1
    exact ⟨⟨hinv.host_ptr, hinv.device_ptr, hinv.clean, fun hstate => absurd hstate hdirty,
      hinv.device_dirty⟩, hdevice, id⟩

theorem sync_for_host_step (hinv : Inv h d s) (hstep : next h d s .sync_for_host = some s') :
    Inv h d s' ∧ s'.host_holds h ∧ (s.device_holds d → s'.device_holds d) := by
  by_cases hdirty : s.view.state = .DEVICE_DIRTY
  · unfold next at hstep
    dsimp only at hstep
    rw [sync_for_host_of_dirty hinv hdirty] at hstep
    cases hstep
    have hdevice := (hinv.device_dirty hdirty).1
    have hcopied : ∀ k < s.view.total_size,
        FieldView.deep_copy s.view.total_size h d s.memory.host s.memory.device (h + k) =
          s.latest k := by
      intro k hk
      rw [deep_copy_at hk]
      exact hdevice k hk
    refine ⟨⟨hinv.host_ptr, hinv.device_ptr, fun _ => ⟨hcopied, hdevice⟩, ?_, ?_⟩, hcopied, id⟩
    · intro hstate
      cases hstate
    · intro hstate
      cases hstate
  · unfold next at hstep
    dsimp only at hstep
    rw [sync_for_host_of_other hdirty] at hstep
    cases hstep
    have hhost : s.host_holds h := by
      cases hstate : s.view.state with
      | HOST_CLEAN => exact (hinv.clean hstate).1
      | HOST_DIRTY => exact (hinv.host_dirty hstate).1
      | DEVICE_DIRTY => exact absurd hstate hdirty
    exact ⟨⟨hinv.host_ptr, hinv.device_ptr, hinv.clean, hinv.host_dirty,
      fun hstate => absurd hstate hdirty⟩, hhost, id⟩

theorem host_holds_of_not_owes (hinv : Inv h d s) (howes : s.owes_host = false) :
    s.host_holds h := by
  cases hstate : s.view.state with
  | HOST_CLEAN => exact (hinv.clean hstate).1
  | HOST_DIRTY => exact (hinv.host_dirty hstate).1
  | DEVICE_DIRTY =>
    have htrue := (hinv.device_dirty hstate).2
    rw [howes] at htrue
    cases htrue

theorem device_holds_of_not_owes (hinv : Inv h d s) (howes : s.owes_device = false) :
    s.device_holds d := by
  cases hstate : s.view.state with
  | HOST_CLEAN => exact (hinv.clean hstate).2
  | HOST_DIRTY =>
    have htrue := (hinv.host_dirty hstate).2
    rw [howes] at htrue
    cases htrue
  | DEVICE_DIRTY => exact (hinv.device_dirty hstate).1

theorem write_host_step (hinv : Inv h d s) (hstep : next h d s (.write_host update) = some s') :
    Inv h d s' := by
  unfold next at hstep
  dsimp only at hstep
  split at hstep
  · cases hstep
  · next howes =>
    cases hstep
    have hholds := host_holds_of_not_owes hinv (Bool.not_eq_true _ ▸ howes)
    refine ⟨hinv.host_ptr, hinv.device_ptr, ?_, ?_, ?_⟩
    · intro hstate
      cases hstate
    · intro _
      refine ⟨?_, rfl⟩
      intro k hk
      have hk' : k < s.view.total_size := hk
      show write s.view.total_size h update s.memory.host (h + k) = _
      rw [write_at hk', hholds k hk']
    · intro hstate
      cases hstate

theorem write_device_step (hinv : Inv h d s)
    (hstep : next h d s (.write_device update) = some s') : Inv h d s' := by
  unfold next at hstep
  dsimp only at hstep
  split at hstep
  · cases hstep
  · next howes =>
    cases hstep
    have hholds := device_holds_of_not_owes hinv (Bool.not_eq_true _ ▸ howes)
    refine ⟨hinv.host_ptr, hinv.device_ptr, ?_, ?_, ?_⟩
    · intro hstate
      cases hstate
    · intro hstate
      cases hstate
    · intro _
      refine ⟨?_, rfl⟩
      intro k hk
      have hk' : k < s.view.total_size := hk
      show write s.view.total_size d update s.memory.device (d + k) = _
      rw [write_at hk', hholds k hk']

theorem inv_step {l : Label T} (hinv : Inv h d s) (hstep : next h d s l = some s') :
    Inv h d s' := by
  cases l with
  | write_host update => exact write_host_step hinv hstep
  | write_device update => exact write_device_step hinv hstep
  | sync_for_device => exact (sync_for_device_step hinv hstep).1
  | sync_for_host => exact (sync_for_host_step hinv hstep).1

theorem inv_reachable (hr : (field_view h d).Reachable s) : Inv h d s :=
  hr.invariant (fun _ => inv_init) fun _ _ _ _ => inv_step

/-! ## Section 4: The latest write -/

/-- **The latest write is held** where the state says, in every state of every
    run. A sync takes it from no copy that holds it, and brings it to the side
    that is asked for. -/
theorem latest_write_is_held (hr : (field_view h d).Reachable s) :
    (s.view.state = .HOST_CLEAN →
      s.host_holds h ∧ s.device_holds d ∧
        ∀ k < s.view.total_size, s.memory.host (h + k) = s.memory.device (d + k)) ∧
    (s.view.state = .HOST_DIRTY → s.host_holds h) ∧
    (s.view.state = .DEVICE_DIRTY → s.device_holds d) ∧
    ∀ s', ((field_view h d).step s .sync_for_device s' →
        s'.device_holds d ∧ (s.host_holds h → s'.host_holds h)) ∧
      ((field_view h d).step s .sync_for_host s' →
        s'.host_holds h ∧ (s.device_holds d → s'.device_holds d)) := by
  have hinv := inv_reachable hr
  refine ⟨?_, fun hstate => (hinv.host_dirty hstate).1, fun hstate => (hinv.device_dirty hstate).1, ?_⟩
  · intro hstate
    obtain ⟨hhost, hdevice⟩ := hinv.clean hstate
    refine ⟨hhost, hdevice, ?_⟩
    intro k hk
    rw [hhost k hk, hdevice k hk]
  · intro s'
    constructor
    · intro hstep
      exact (sync_for_device_step hinv hstep).2
    · intro hstep
      exact (sync_for_host_step hinv hstep).2

end

/-! ### A run -/

/-- A new view of two elements, all of which are 0. -/
def zeros : State Nat where
  view := ⟨some 0, some 0, [2], 2, .HOST_CLEAN⟩
  memory := ⟨fun _ => 0, fun _ => 0⟩
  latest := fun _ => 0
  owes_host := false
  owes_device := false

theorem zeros_initial : Initial 0 0 zeros :=
  ⟨⟨[2], by decide⟩, fun _ _ => rfl, fun _ _ => rfl, rfl, rfl⟩

theorem latest_write_is_held_synced : ∃ s : State Nat, (field_view 0 0).Reachable s ∧
    s.view.state = .HOST_CLEAN ∧ s.memory.host 1 = 8 ∧ s.memory.device 1 = 8 := by
  obtain ⟨s, hs⟩ : ∃ s, System.exec (next 0 0) zeros
    [.write_host fun k => if k = 1 then some 8 else none, .sync_for_device] = some s := ⟨_, rfl⟩
  have hr : (field_view 0 0).Reachable s := System.reachable_of_exec zeros_initial hs
  cases hs
  have hheld := (latest_write_is_held hr).1 rfl
  exact ⟨_, hr, rfl, hheld.1 1 (by decide), hheld.2.1 1 (by decide)⟩

end Span
