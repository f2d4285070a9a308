import Helm.Framework.System
import Helm.Framework.Signed

/-! # SPAN: the triple buffer

  Three pointers to arrays of one field change roles. The model writes through
  the Write pointer, the Read buffer holds what was completed last, and the IO
  buffer is locked while a background thread streams it to storage. A swap
  turns the roles by one place, unless the IO buffer is locked.

  `Streaming` puts the threads and the arrays around it. The model thread
  fetches `write_ptr()` and stores through what it has fetched, now or later;
  `age` counts the swaps since then. `published` and `streamed` are what the
  Write buffer and the new IO buffer hold at each swap.

  Main results: `snapshots_streamed`, `stale_pointer_track`.
-/

namespace Span

open Signed LTS

/-! ## Section 1: Model -/

/-- The pointers of the three tracks. A swap only permutes them. -/
structure TripleBuffer (P : Type) where
  write_ptr : P
  read_ptr : P
  io_ptr : P
  n_elements : Nat
  io_locked : Bool
  write_ne_read : write_ptr ≠ read_ptr
  write_ne_io : write_ptr ≠ io_ptr
  read_ne_io : read_ptr ≠ io_ptr
  n_elements_pos : 0 < n_elements

namespace TripleBuffer

variable {P α : Type} [DecidableEq P]

/-- The constructor. A null pointer is `none`. -/
def make (buf_write buf_read buf_io : Option P) (n_elements : Nat) :
    Outcome String (TripleBuffer P) :=
  match buf_write, buf_read, buf_io with
  | none, _, _ => .thrown "TripleBuffer: buf_write must not be null"
  | some _, none, _ => .thrown "TripleBuffer: buf_read must not be null"
  | some _, some _, none => .thrown "TripleBuffer: buf_io must not be null"
  | some w, some r, some i =>
    if hn : n_elements = 0 then .thrown "TripleBuffer: n_elements must be > 0"
    else if h : w = r ∨ w = i ∨ r = i then
      .thrown "TripleBuffer: all three buffer pointers must be distinct"
    else .returned
      { write_ptr := w, read_ptr := r, io_ptr := i, n_elements, io_locked := false
        write_ne_read := fun heq => h (.inl heq)
        write_ne_io := fun heq => h (.inr (.inl heq))
        read_ne_io := fun heq => h (.inr (.inr heq))
        n_elements_pos := Nat.pos_of_ne_zero hn }

def swap_buffers_for_amio (b : TripleBuffer P) : TripleBuffer P × Bool :=
  if b.io_locked then (b, false)
  else
    ({ b with
        read_ptr := b.write_ptr, io_ptr := b.read_ptr, write_ptr := b.io_ptr, io_locked := true
        write_ne_read := b.write_ne_io.symm
        write_ne_io := b.read_ne_io.symm
        read_ne_io := b.write_ne_read }, true)

def release_io (b : TripleBuffer P) : TripleBuffer P := { b with io_locked := false }

/-- The pointer of the track that is `k` swaps behind Write. -/
def track (b : TripleBuffer P) (k : Nat) : P :=
  if k % 3 = 0 then b.write_ptr else if k % 3 = 1 then b.read_ptr else b.io_ptr

end TripleBuffer

/-- A buffer with the arrays that the pointers point to. -/
structure Streaming (P α : Type) where
  buffer : TripleBuffer P
  memory : P → α
  /-- The pointer that the model thread uses, and the swaps since it was fetched. -/
  held : P
  age : Nat
  published : List α
  streamed : List α

/-- The calls of the threads, and a store of the model thread. -/
inductive StreamLabel (α : Type)
  | write_ptr
  | store (f : α → α)
  | swap_buffers_for_amio
  | release_io

namespace Streaming

variable {P α : Type} [DecidableEq P]

def start (b : TripleBuffer P) (memory : P → α) : Streaming P α :=
  ⟨b, memory, b.write_ptr, 0, [], []⟩

/-- A swap that is refused changes nothing. -/
def swap (s : Streaming P α) : Streaming P α :=
  let (b, swapped) := s.buffer.swap_buffers_for_amio
  if swapped then
    { s with
      buffer := b, age := s.age + 1
      published := s.published ++ [s.memory s.buffer.write_ptr]
      streamed := s.streamed ++ [s.memory b.io_ptr] }
  else s

def next (s : Streaming P α) : StreamLabel α → Option (Streaming P α)
  | .write_ptr => some { s with held := s.buffer.write_ptr, age := 0 }
  | .store f => some { s with memory := Function.update s.memory s.held (f (s.memory s.held)) }
  | .swap_buffers_for_amio => some s.swap
  | .release_io => some { s with buffer := s.buffer.release_io }

def system (b : TripleBuffer P) (memory : P → α) : System (Streaming P α) (StreamLabel α) :=
  System.ofNext (· = start b memory) next

/-- No store through a pointer from before the last swap. -/
def Fresh (s : Streaming P α) : StreamLabel α → Prop
  | .store _ => s.age = 0
  | _ => True

instance (s : Streaming P α) : ∀ l, Decidable (s.Fresh l)
  | .store _ => inferInstanceAs (Decidable (s.age = 0))
  | .write_ptr => .isTrue trivial
  | .swap_buffers_for_amio => .isTrue trivial
  | .release_io => .isTrue trivial

/-! ## Section 2: The pointer that is held -/

variable {s s' : Streaming P α} {b : TripleBuffer P} {m : P → α}

omit [DecidableEq P] in
/-- What a swap does, in the two cases. -/
theorem swap_cases (s : Streaming P α) :
    (s.buffer.io_locked = true ∧ s.swap = s) ∨
    ∃ b, s.buffer.io_locked = false ∧ b.io_locked = true ∧ b.write_ptr = s.buffer.io_ptr ∧
      b.read_ptr = s.buffer.write_ptr ∧ b.io_ptr = s.buffer.read_ptr ∧
      s.swap = { s with
        buffer := b, age := s.age + 1
        published := s.published ++ [s.memory s.buffer.write_ptr]
        streamed := s.streamed ++ [s.memory s.buffer.read_ptr] } := by
  cases hlocked : s.buffer.io_locked with
  | true =>
    left
    refine ⟨rfl, ?_⟩
    simp [swap, TripleBuffer.swap_buffers_for_amio, hlocked]
  | false =>
    right
    refine ⟨s.buffer.swap_buffers_for_amio.1, rfl, ?_⟩
    simp [swap, TripleBuffer.swap_buffers_for_amio, hlocked]

omit [DecidableEq P] in
/-- A swap moves every track one place behind. -/
theorem track_succ {c : TripleBuffer P} (hwrite : c.write_ptr = b.io_ptr)
    (hread : c.read_ptr = b.write_ptr) (hio : c.io_ptr = b.read_ptr) (k : Nat) :
    c.track (k + 1) = b.track k := by
  unfold TripleBuffer.track
  rw [hwrite, hread, hio]
  have hk : k % 3 = 0 ∧ (k + 1) % 3 = 1 ∨ k % 3 = 1 ∧ (k + 1) % 3 = 2 ∨
      k % 3 = 2 ∧ (k + 1) % 3 = 0 := by omega
  rcases hk with ⟨h, h'⟩ | ⟨h, h'⟩ | ⟨h, h'⟩ <;> simp [h, h']

theorem held_step {l : StreamLabel α} (h : s.held = s.buffer.track s.age)
    (hstep : s.next l = some s') : s'.held = s'.buffer.track s'.age := by
  cases l with
  | write_ptr => cases hstep; rfl
  | store f => cases hstep; exact h
  | release_io => cases hstep; exact h
  | swap_buffers_for_amio =>
    obtain rfl : s.swap = s' := Option.some.inj hstep
    rcases s.swap_cases with ⟨-, heq⟩ | ⟨c, -, -, hwrite, hread, hio, heq⟩
    · rw [heq]
      exact h
    · rw [heq]
      exact h.trans (track_succ hwrite hread hio s.age).symm

theorem held_eq_track (hr : (system b m).Reachable s) : s.held = s.buffer.track s.age := by
  apply hr.invariant (P := fun s => s.held = s.buffer.track s.age)
  · rintro s rfl
    rfl
  · exact fun s l s' _ h hstep => held_step h hstep

/-! ## Section 3: Main results -/

/-- What holds after every step when stores are fresh. -/
structure Sound (first : α) (s : Streaming P α) : Prop where
  snapshots : s.streamed ++ [s.memory s.buffer.read_ptr] = first :: s.published
  locked : s.buffer.io_locked = true → s.streamed.getLast? = some (s.memory s.buffer.io_ptr)

theorem Sound.step {first : α} {l : StreamLabel α} (h : s.Sound first)
    (hheld : s.held = s.buffer.track s.age) (hfresh : s.Fresh l) (hstep : s.next l = some s') :
    s'.Sound first := by
  cases l with
  | write_ptr => cases hstep; exact ⟨h.snapshots, h.locked⟩
  | release_io => cases hstep; exact ⟨h.snapshots, nofun⟩
  | store f =>
    -- the store goes to Write, which is neither of the other two
    have hwrite : s.held = s.buffer.write_ptr := by
      rw [hheld, show s.age = 0 from hfresh]
      rfl
    cases hstep
    constructor
    · show s.streamed ++ [Function.update s.memory s.held _ s.buffer.read_ptr] = _
      rw [Function.update_of_ne (by rw [hwrite]; exact s.buffer.write_ne_read.symm)]
      exact h.snapshots
    · intro hlocked
      show _ = some (Function.update s.memory s.held _ s.buffer.io_ptr)
      rw [Function.update_of_ne (by rw [hwrite]; exact s.buffer.write_ne_io.symm)]
      exact h.locked hlocked
  | swap_buffers_for_amio =>
    obtain rfl : s.swap = s' := Option.some.inj hstep
    rcases s.swap_cases with ⟨-, heq⟩ | ⟨c, -, -, hwrite, hread, hio, heq⟩
    · rw [heq]
      exact h
    · rw [heq]
      constructor
      · show s.streamed ++ [_] ++ [s.memory c.read_ptr] = first :: (s.published ++ [_])
        rw [hread, h.snapshots, List.cons_append]
      · intro _
        show (s.streamed ++ [_]).getLast? = some (s.memory c.io_ptr)
        rw [hio, List.getLast?_concat]

end Streaming

open Streaming

variable {P α : Type} [DecidableEq P]

/-- **Streaming**: as long as the model stores through a pointer fetched after
    the last swap, what has been streamed, followed by the Read buffer, is what
    the Read buffer held first, followed by all that was published. So every
    published snapshot is streamed one swap later, once and in order, and a
    locked IO buffer keeps the snapshot handed over with it. -/
theorem snapshots_streamed {buf_write buf_read buf_io : Option P} {n_elements : Nat}
    {b : TripleBuffer P} {m : P → α} {s : Streaming P α}
    (hmake : TripleBuffer.make buf_write buf_read buf_io n_elements = .returned b)
    (hr : ((system b m).restrict Fresh).Reachable s) :
    s.streamed ++ [s.memory s.buffer.read_ptr] = m b.read_ptr :: s.published ∧
      (s.buffer.io_locked = true → s.streamed.getLast? = some (s.memory s.buffer.io_ptr)) := by
  have hunlocked : b.io_locked = false := by
    unfold TripleBuffer.make at hmake
    split at hmake
    · cases hmake
    · cases hmake
    · cases hmake
    · split at hmake
      · cases hmake
      · split at hmake
        · cases hmake
        · cases hmake
          rfl
  have hsound : s.Sound (m b.read_ptr) := by
    apply hr.invariant (P := Sound (m b.read_ptr))
    · rintro s rfl
      refine ⟨rfl, fun hlocked => ?_⟩
      rw [show (start b m).buffer = b from rfl, hunlocked] at hlocked
      cases hlocked
    · intro s l s' hreach h hstep
      exact h.step (held_eq_track hreach.of_restrict) hstep.1 hstep.2
  exact ⟨hsound.snapshots, hsound.locked⟩

theorem snapshots_streamed_twice : ∃ s : Streaming (Fin 3) Nat, s.published = [7, 8] ∧
    s.streamed ++ [s.memory s.buffer.read_ptr] = 0 :: s.published := by
  have hrun : ∃ b s, TripleBuffer.make (some (0 : Fin 3)) (some 1) (some 2) 4 = .returned b ∧
      System.exec (System.guarded Streaming.next Fresh) (start b fun _ => 0)
        [.store fun _ => 7, .swap_buffers_for_amio, .release_io, .write_ptr, .store fun _ => 8,
          .swap_buffers_for_amio] = some s ∧ s.published = [7, 8] := ⟨_, _, rfl, rfl, rfl⟩
  obtain ⟨b, s, hmake, hexec, hpublished⟩ := hrun
  exact ⟨s, hpublished, (snapshots_streamed hmake (System.restrict_reachable_of_exec rfl hexec)).1⟩

/-- **A pointer kept across swaps** is the pointer of the track as many places
    behind Write, so that it reaches the IO buffer with the second swap after it
    was fetched and not before. -/
theorem stale_pointer_track {b : TripleBuffer P} {m : P → α} {s : Streaming P α}
    (hr : (system b m).Reachable s) :
    (s.held = s.buffer.io_ptr ↔ s.age % 3 = 2) ∧ (s.held = s.buffer.read_ptr ↔ s.age % 3 = 1) ∧
      ∀ f s', s.next (.store f) = some s' →
        s'.memory s.buffer.io_ptr ≠ s.memory s.buffer.io_ptr → 2 ≤ s.age := by
  have hheld := held_eq_track hr
  have hio : s.held = s.buffer.io_ptr ↔ s.age % 3 = 2 := by
    rw [hheld, TripleBuffer.track]
    split
    · next h0 => exact iff_of_false s.buffer.write_ne_io (by omega)
    · split
      · next h1 => exact iff_of_false s.buffer.read_ne_io (by omega)
      · next h0 h1 => exact iff_of_true rfl (by omega)
  refine ⟨hio, ?_, ?_⟩
  · rw [hheld, TripleBuffer.track]
    split
    · next h0 => exact iff_of_false s.buffer.write_ne_read (by omega)
    · split
      · next h1 => exact iff_of_true rfl h1
      · next h1 => exact iff_of_false s.buffer.read_ne_io.symm h1
  · intro f s' hstep hchanged
    cases hstep
    by_contra hage
    apply hchanged
    exact Function.update_of_ne (fun heq => by have := hio.mp heq.symm; omega) _ _

theorem stale_pointer_streaming : ∃ s : Streaming (Fin 3) Nat, s.buffer.io_locked = true ∧
    s.held = s.buffer.io_ptr := by
  have hrun : ∃ b s, TripleBuffer.make (some (0 : Fin 3)) (some 1) (some 2) 4 = .returned b ∧
      System.exec Streaming.next (start b fun _ => 0)
        [.swap_buffers_for_amio, .release_io, .swap_buffers_for_amio] = some s ∧
      s.buffer.io_locked = true ∧ s.age % 3 = 2 := ⟨_, _, rfl, rfl, rfl, rfl⟩
  obtain ⟨b, s, -, hexec, hlocked, hage⟩ := hrun
  exact ⟨s, hlocked, (stale_pointer_track (System.reachable_of_exec rfl hexec)).1.mpr hage⟩

end Span
