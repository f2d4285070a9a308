import Helm.Framework.Segments

/-! # Words in memory

  Numbers of a fixed width as the bytes that `memcpy` moves, on a machine
  of either byte order, and arrays of 64-bit words.

  * **Numbers**: `of_nat` gives the bytes and `to_nat` reads them back.
  * **Arrays**: the bytes of an array are those of its words one after the
    other; `words_of_bytes` reads as many words as it is told to.
  * **Copies**: `memcpy` out of an array and into a buffer, which is
    undefined when either is too short.
-/

namespace Bytes

open Signed Segments

/-! ### Numbers -/

inductive Endian where
  | little
  | big
  deriving DecidableEq

/-- The bytes of a number of the given width. -/
def of_nat (e : Endian) (width n : Nat) : List UInt8 :=
  match e with
  | .little => low_bytes width n
  | .big => (low_bytes width n).reverse

def to_nat (e : Endian) (bytes : List UInt8) : Nat :=
  match e with
  | .little => of_low_bytes bytes
  | .big => of_low_bytes bytes.reverse

@[simp] theorem length_of_nat (e : Endian) (width n : Nat) : (of_nat e width n).length = width := by
  cases e <;> simp [of_nat]

theorem to_nat_of_nat (e : Endian) (width n : Nat) :
    to_nat e (of_nat e width n) = n % 256 ^ width := by
  cases e with
  | little => exact of_low_bytes_low_bytes width n
  | big =>
    show of_low_bytes (low_bytes width n).reverse.reverse = _
    rw [List.reverse_reverse, of_low_bytes_low_bytes]

theorem to_nat_of_nat_of_lt {e : Endian} {width n : Nat} (h : n < 256 ^ width) :
    to_nat e (of_nat e width n) = n := by
  rw [to_nat_of_nat, Nat.mod_eq_of_lt h]

/-! ### Arrays -/

/-- The bits of a `double` or of a 64-bit integer. -/
abbrev Word := BitVec 64

def word_bytes (e : Endian) (w : Word) : List UInt8 := of_nat e 8 w.toNat

def bytes_of_words (e : Endian) (ws : List Word) : List UInt8 := ws.flatMap (word_bytes e)

def words_of_bytes (e : Endian) : Nat → List UInt8 → List Word
  | 0, _ => []
  | n + 1, bytes => .ofNat 64 (to_nat e (bytes.take 8)) :: words_of_bytes e n (bytes.drop 8)

@[simp] theorem length_word_bytes (e : Endian) (w : Word) : (word_bytes e w).length = 8 :=
  length_of_nat e 8 _

@[simp] theorem length_bytes_of_words (e : Endian) (ws : List Word) :
    (bytes_of_words e ws).length = 8 * ws.length := by
  induction ws with
  | nil => rfl
  | cons w ws ih =>
    show (word_bytes e w ++ bytes_of_words e ws).length = _
    rw [List.length_append, length_word_bytes, ih, List.length_cons]
    omega

theorem ofNat_word_bytes (e : Endian) (w : Word) :
    BitVec.ofNat 64 (to_nat e (word_bytes e w)) = w := by
  have hlt : w.toNat < 256 ^ 8 := w.isLt
  rw [word_bytes, to_nat_of_nat_of_lt hlt, BitVec.ofNat_toNat, BitVec.setWidth_eq]

theorem words_of_bytes_of_words (e : Endian) (ws : List Word) :
    words_of_bytes e ws.length (bytes_of_words e ws) = ws := by
  induction ws with
  | nil => rfl
  | cons w ws ih =>
    have hsplit : bytes_of_words e (w :: ws) = word_bytes e w ++ bytes_of_words e ws := rfl
    have hlen : (word_bytes e w).length = 8 := length_word_bytes e w
    rw [List.length_cons, words_of_bytes, hsplit, List.take_left' hlen, List.drop_left' hlen,
      ofNat_word_bytes, ih]

/-! ### Copies -/

section
variable {ε : Type}

/-- `memcpy` of the first `count` bytes of `data` to position `pos` of a
    buffer. -/
def memcpy_to (buffer : List UInt8) (pos : Nat) (data : List UInt8) (count : Nat) :
    Outcome ε (List UInt8) :=
  if count ≤ data.length ∧ pos + count ≤ buffer.length then
    .returned (write buffer pos (data.take count))
  else .undefined

/-- `memcpy` of `count` bytes from position `pos` of a buffer. -/
def memcpy_from (buffer : List UInt8) (pos count : Nat) : Outcome ε (List UInt8) :=
  if pos + count ≤ buffer.length then .returned ((buffer.drop pos).take count) else .undefined

theorem memcpy_to_append {front rest data : List UInt8} (h : data.length ≤ rest.length) :
    (memcpy_to (front ++ rest) front.length data data.length : Outcome ε (List UInt8)) =
      .returned (front ++ data ++ rest.drop data.length) := by
  unfold memcpy_to
  rw [if_pos ⟨le_refl _, by rw [List.length_append]; omega⟩, List.take_length, write_append]

theorem memcpy_from_append {front data rest : List UInt8} :
    (memcpy_from (front ++ data ++ rest) front.length data.length : Outcome ε (List UInt8)) =
      .returned data := by
  unfold memcpy_from
  rw [if_pos (by simp only [List.length_append]; omega), List.append_assoc, List.drop_left,
    List.take_left]

end

end Bytes
