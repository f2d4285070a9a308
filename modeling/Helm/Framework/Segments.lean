import Helm.Framework.Signed

/-! # Segments of a buffer

  Data of several parties side by side in one buffer, and the bytes of an
  integer in memory.

  * **Segments**: `offsets` are the exclusive prefix sums of the lengths.
    Writing every party's data at its offset gives the concatenation.
  * **Integers**: `int_bytes` are the four bytes of an `int`, lowest first,
    and `int_of_bytes` reads them back.
-/

namespace Segments

open Signed

/-! ### Writing side by side -/

section
variable {α : Type}

/-- Overwrite a part of the buffer. -/
def write (buffer : List α) (offset : Nat) (data : List α) : List α :=
  buffer.take offset ++ data ++ buffer.drop (offset + data.length)

/-- Where each segment begins when the first begins at `base`. -/
def offsets (base : Nat) : List Nat → List Nat
  | [] => []
  | n :: ns => base :: offsets (base + n) ns

/-- Write each segment at its offset. -/
def write_all (buffer : List α) (segments : List (Nat × List α)) : List α :=
  segments.foldl (fun b s => write b s.1 s.2) buffer

theorem write_append {front rest data : List α} :
    write (front ++ rest) front.length data = front ++ data ++ rest.drop data.length := by
  unfold write
  rw [List.take_left, ← List.drop_drop, List.drop_left]

theorem write_all_offsets {datas : List (List α)} {front rest : List α}
    (h : rest.length = (datas.map List.length).sum) :
    write_all (front ++ rest) ((offsets front.length (datas.map List.length)).zip datas) =
      front ++ datas.flatten := by
  induction datas generalizing front rest with
  | nil =>
    have hrest : rest = [] := List.length_eq_zero_iff.mp h
    simp [write_all, hrest]
  | cons data datas ih =>
    rw [List.map_cons, List.sum_cons] at h
    have hstep : write (front ++ rest) front.length data = _ := write_append
    show write_all (write (front ++ rest) front.length data)
      ((offsets (front.length + data.length) (datas.map List.length)).zip datas) = _
    rw [hstep, ← List.length_append, ih]
    · simp
    · rw [List.length_drop]
      omega

end

/-! ### Integers in memory -/

/-- The lowest `width` bytes of a number, lowest first. -/
def low_bytes : Nat → Nat → List UInt8
  | 0, _ => []
  | width + 1, n => .ofNat n :: low_bytes width (n / 256)

def of_low_bytes : List UInt8 → Nat
  | [] => 0
  | b :: bs => b.toNat + 256 * of_low_bytes bs

@[simp] theorem length_low_bytes (width n : Nat) : (low_bytes width n).length = width := by
  induction width generalizing n with
  | zero => rfl
  | succ width ih => simp [low_bytes, ih]

theorem of_low_bytes_low_bytes (width n : Nat) :
    of_low_bytes (low_bytes width n) = n % 256 ^ width := by
  induction width generalizing n with
  | zero => simp [low_bytes, of_low_bytes, Nat.mod_one]
  | succ width ih =>
    have hlow : (UInt8.ofNat n).toNat = n % 256 := by simp
    rw [low_bytes, of_low_bytes, ih, hlow, pow_succ', Nat.mod_mul]

/-- The representation of an `int`. -/
def int_bytes (x : Int) : List UInt8 := low_bytes 4 (x % 2 ^ 32).toNat

/-- The `int` with this representation. -/
def int_of_bytes (bs : List UInt8) : Int :=
  let n := of_low_bytes bs
  if n < 2 ^ 31 then n else n - 2 ^ 32

@[simp] theorem length_int_bytes (x : Int) : (int_bytes x).length = 4 := length_low_bytes _ _

theorem int_of_bytes_int_bytes {x : Int} (h : Fits 32 x) : int_of_bytes (int_bytes x) = x := by
  obtain ⟨hlo, hhi⟩ := fits_32.mp h
  have hvalue : of_low_bytes (int_bytes x) = (x % 2 ^ 32).toNat := by
    unfold int_bytes
    rw [of_low_bytes_low_bytes, Nat.mod_eq_of_lt]
    omega
  unfold int_of_bytes
  rw [hvalue]
  dsimp only
  split
  · omega
  · omega

/-- The conversion of any integer to `int`. -/
def to_int (x : Int) : Int :=
  let n := x % 2 ^ 32
  if n < 2 ^ 31 then n else n - 2 ^ 32

theorem to_int_of_fits {x : Int} (h : Fits 32 x) : to_int x = x := by
  obtain ⟨hlo, hhi⟩ := fits_32.mp h
  unfold to_int
  dsimp only
  split
  · omega
  · omega

theorem to_int_of_lt {n : Nat} (h : n < 2 ^ 31) : to_int n = n :=
  to_int_of_fits (fits_32.mpr (by omega))

theorem fits_to_int (x : Int) : Fits 32 (to_int x) := by
  rw [fits_32]
  unfold to_int
  dsimp only
  split
  · omega
  · omega

theorem to_int_le {x : Int} (h : 0 ≤ x) : to_int x ≤ x := by
  unfold to_int
  dsimp only
  split
  · omega
  · omega

theorem toNat_to_int_le (n : Nat) : (to_int n).toNat ≤ n :=
  Int.toNat_le.mpr (to_int_le (Int.natCast_nonneg n))

end Segments
