import Mathlib

/-! # Ordered channels

  Processes that exchange messages on envelopes (who sends, who receives, and
  a tag).

  * **Memory**: `read` and `write` move bytes between a memory and a message.
  * **Matching**: on each envelope the `k`-th receive that is posted belongs
    to the `k`-th message that is posted. Messages may arrive in any order,
    but none overtakes another in the matching.
  * **Contents**: a message can be posted before its bytes have been read
    from the memory of the sender; `fill` is the moment when they are.
-/

namespace Channels

/-! ### Memory -/

section Memory

variable {β : Type*}

/-- The `len` bytes from `addr` on. -/
def read (mem : Nat → β) (addr len : Nat) : List β := (List.range len).map fun i => mem (addr + i)

/-- The memory after the bytes have been put at `addr`. -/
def write (mem : Nat → β) (addr : Nat) (bytes : List β) : Nat → β :=
  fun a => if addr ≤ a then bytes.getD (a - addr) (mem a) else mem a

@[simp] theorem length_read (mem : Nat → β) (addr len : Nat) : (read mem addr len).length = len := by
  simp [read]

theorem read_congr {mem mem' : Nat → β} {addr addr' len : Nat}
    (h : ∀ i < len, mem (addr + i) = mem' (addr' + i)) :
    read mem addr len = read mem' addr' len := by
  apply List.map_congr_left
  intro i hi
  exact h i (List.mem_range.mp hi)

theorem eq_of_read_eq {mem mem' : Nat → β} {addr len i : Nat}
    (h : read mem addr len = read mem' addr len) (hi : i < len) :
    mem (addr + i) = mem' (addr + i) := by
  have hget := congrArg (·[i]?) h
  simpa [read, hi] using hget

theorem write_apply {mem : Nat → β} {addr i : Nat} {bytes : List β} (h : i < bytes.length) :
    write mem addr bytes (addr + i) = bytes[i] := by
  rw [write, if_pos (Nat.le_add_right _ _), Nat.add_sub_cancel_left,
    List.getD_eq_getElem _ _ h]

/-- **Frame**: everything else is as before. -/
theorem write_of_outside {mem : Nat → β} {addr a : Nat} {bytes : List β}
    (h : a < addr ∨ addr + bytes.length ≤ a) : write mem addr bytes a = mem a := by
  unfold write
  split
  · next hle =>
    apply List.getD_eq_default
    omega
  · rfl

variable {mem : Nat → β} {addr addr' len : Nat} {bytes : List β}

theorem read_write (h : bytes.length = len) : read (write mem addr bytes) addr len = bytes := by
  apply List.ext_getElem
  · rw [length_read, h]
  · intro i hi hi'
    simp [read, write_apply hi']

/-- **Frame**: what is read elsewhere is as before. -/
theorem read_write_of_disjoint
    (h : addr' + len ≤ addr ∨ addr + bytes.length ≤ addr') :
    read (write mem addr bytes) addr' len = read mem addr' len := by
  apply read_congr
  intro i hi
  apply write_of_outside
  omega

end Memory

/-! ### Matching -/

/-- The messages that have been posted on each envelope, in order, and how many
    receives have been. A message is `none` until its bytes have been read. -/
structure Net (ε β : Type*) where
  messages : ε → List (Option β)
  receives : ε → Nat

namespace Net

variable {ε β : Type*} [DecidableEq ε]

/-- Nothing has been posted. -/
def empty : Net ε β := ⟨fun _ => [], fun _ => 0⟩

/-- Post a message. -/
def post (net : Net ε β) (e : ε) (m : Option β) : Net ε β :=
  { net with messages := Function.update net.messages e (net.messages e ++ [m]) }

/-- The bytes of the `k`-th message are read. -/
def fill (net : Net ε β) (e : ε) (k : Nat) (m : β) : Net ε β :=
  { net with messages := Function.update net.messages e ((net.messages e).set k (some m)) }

/-- Post a receive. Its number is the number of receives before it. -/
def receive (net : Net ε β) (e : ε) : Net ε β :=
  { net with receives := Function.update net.receives e (net.receives e + 1) }

/-- The contents of the `k`-th message, if it has been posted and read. -/
def message (net : Net ε β) (e : ε) (k : Nat) : Option β := ((net.messages e)[k]?).join

@[simp] theorem messages_receive (net : Net ε β) (e : ε) :
    (net.receive e).messages = net.messages := rfl

@[simp] theorem receives_post (net : Net ε β) (e : ε) (m : Option β) :
    (net.post e m).receives = net.receives := rfl

@[simp] theorem receives_fill (net : Net ε β) (e : ε) (k : Nat) (m : β) :
    (net.fill e k m).receives = net.receives := rfl

theorem messages_post (net : Net ε β) (e e' : ε) (m : Option β) :
    (net.post e m).messages e' = if e' = e then net.messages e ++ [m] else net.messages e' := by
  simp only [post, Function.update_apply]

theorem messages_fill (net : Net ε β) (e e' : ε) (k : Nat) (m : β) :
    (net.fill e k m).messages e' =
      if e' = e then (net.messages e).set k (some m) else net.messages e' := by
  simp only [fill, Function.update_apply]

theorem receives_receive (net : Net ε β) (e e' : ε) :
    (net.receive e).receives e' = if e' = e then net.receives e + 1 else net.receives e' := by
  simp only [receive, Function.update_apply]

end Net

end Channels
