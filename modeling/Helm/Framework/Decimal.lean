import Helm.Framework.Signed

/-! # Decimal numerals

  Fixed-width decimal text and how C++ reads and writes it.

  * **Numerals**: `value` is the number a list of digits stands for. A
    numeral is determined by its length and its value, and `padded w n`
    is the one of length `w` and value `n`.
  * **Writing**: `padded_int w x` is `printf` with `%0wd`.
  * **Reading**: `from_chars` is `std::from_chars` in base 10. It takes a
    minus sign but no plus sign and no blank, and it reads digits as long
    as there are any.
-/

namespace Decimal

open Signed

/-! ### Numerals -/

/-- Every character is a decimal digit. -/
def IsNumeral (cs : List Char) : Prop := ∀ c ∈ cs, c.isDigit = true

instance (cs : List Char) : Decidable (IsNumeral cs) :=
  decidable_of_iff (cs.all Char.isDigit = true) List.all_eq_true

/-- The number a numeral stands for. -/
def value (cs : List Char) : Nat := Nat.ofDigitChars 10 cs 0

@[simp] theorem value_nil : value [] = 0 := rfl

theorem value_cons (c : Char) (cs : List Char) :
    value (c :: cs) = 10 ^ cs.length * (c.toNat - 48) + value cs := by
  unfold value
  rw [Nat.ofDigitChars_cons, Nat.ofDigitChars_eq_ofDigitChars_zero]
  simp

theorem value_zeros (n : Nat) : value (List.replicate n '0') = 0 := by
  simp [value]

theorem isDigit_bounds {c : Char} (h : c.isDigit = true) : 48 ≤ c.toNat ∧ c.toNat ≤ 57 := by
  simp only [Char.isDigit, Bool.and_eq_true, decide_eq_true_eq, UInt32.le_iff_toNat_le] at h
  exact h

theorem value_lt {cs : List Char} (h : IsNumeral cs) : value cs < 10 ^ cs.length := by
  induction cs with
  | nil => simp
  | cons c cs ih =>
    have hc := isDigit_bounds (h c List.mem_cons_self)
    have hcs := ih fun d hd => h d (List.mem_cons_of_mem c hd)
    have hdigit : 10 ^ cs.length * (c.toNat - 48) ≤ 10 ^ cs.length * 9 := by gcongr; omega
    rw [value_cons, List.length_cons, pow_succ]
    omega

theorem value_inj {as bs : List Char} (ha : IsNumeral as) (hb : IsNumeral bs)
    (hlength : as.length = bs.length) (hvalue : value as = value bs) : as = bs := by
  induction as generalizing bs with
  | nil => exact (List.length_eq_zero_iff.mp hlength.symm).symm
  | cons a as ih =>
    match bs with
    | b :: bs =>
      have hlen : as.length = bs.length := by simpa using hlength
      have hat : IsNumeral as := fun d hd => ha d (List.mem_cons_of_mem a hd)
      have hbt : IsNumeral bs := fun d hd => hb d (List.mem_cons_of_mem b hd)
      have hda := isDigit_bounds (ha a List.mem_cons_self)
      have hdb := isDigit_bounds (hb b List.mem_cons_self)
      have hla := value_lt hat
      have hlb := value_lt hbt
      rw [value_cons, value_cons, ← hlen] at hvalue
      rw [← hlen] at hlb
      -- the leading digit is the quotient by the weight of the rest
      have hlead : a.toNat - 48 = b.toNat - 48 := by
        have hqa : (10 ^ as.length * (a.toNat - 48) + value as) / 10 ^ as.length =
            a.toNat - 48 := by
          rw [Nat.mul_add_div (by positivity), Nat.div_eq_of_lt hla, Nat.add_zero]
        have hqb : (10 ^ as.length * (b.toNat - 48) + value bs) / 10 ^ as.length =
            b.toNat - 48 := by
          rw [Nat.mul_add_div (by positivity), Nat.div_eq_of_lt hlb, Nat.add_zero]
        rw [← hqa, ← hqb, hvalue]
      have hab : a = b := Char.toNat_inj.mp (by omega)
      subst hab
      have hrest : value as = value bs := by omega
      rw [ih hat hbt hlen hrest]

/-! ### Writing -/

/-- The digits of `n`, with zeros in front up to `width`. -/
def padded (width n : Nat) : List Char := (Nat.toDigits 10 n).leftpad width '0'

theorem isNumeral_padded (width n : Nat) : IsNumeral (padded width n) := by
  intro c hc
  simp only [padded, List.leftpad] at hc
  rcases List.mem_append.mp hc with hzero | hdigit
  · rw [List.eq_of_mem_replicate hzero]
    decide
  · apply Nat.isDigit_of_mem_toDigits _ _ hdigit <;> decide

theorem value_padded (width n : Nat) : value (padded width n) = n := by
  unfold padded List.leftpad value
  rw [Nat.ofDigitChars_append]
  simp

theorem length_padded {width n : Nat} (hpos : 0 < width) (hn : n < 10 ^ width) :
    (padded width n).length = width := by
  have hdigits := (Nat.length_toDigits_le_iff (by decide) hpos).mpr hn
  simp only [padded, List.leftpad, List.length_append, List.length_replicate]
  omega

theorem padded_value {cs : List Char} (hne : cs ≠ []) (h : IsNumeral cs) :
    padded cs.length (value cs) = cs := by
  have hpos := List.length_pos_iff.mpr hne
  apply value_inj (isNumeral_padded _ _) h
  · exact length_padded hpos (value_lt h)
  · exact value_padded _ _

/-- What `printf` writes for `%0wd` with `w = width`: the sign counts in the
    width. -/
def padded_int (width : Nat) (x : Int) : List Char :=
  if x < 0 then '-' :: padded (width - 1) x.natAbs else padded width x.natAbs

theorem padded_int_natCast (width n : Nat) : padded_int width n = padded width n := by
  simp [padded_int]

/-! ### Reading -/

/-- The digits at the front of `text`, taken with the given sign. -/
def scan (bits : Nat) (sign : Int) (text : List Char) : Option (Int × List Char) :=
  let digits := text.takeWhile Char.isDigit
  let x := sign * value digits
  -- no digit is `invalid_argument`, a value that does not fit `result_out_of_range`
  if digits = [] ∨ ¬ Fits bits x then none else some (x, text.dropWhile Char.isDigit)

/-- `std::from_chars` for a signed integer of `bits` bits: the value and the
    characters not read, or `none` when it reports an error. -/
def from_chars (bits : Nat) (text : List Char) : Option (Int × List Char) :=
  match text with
  | '-' :: digits => scan bits (-1) digits
  | digits => scan bits 1 digits

theorem scan_whole_iff {bits : Nat} {sign x : Int} {text : List Char} :
    scan bits sign text = some (x, []) ↔
      text ≠ [] ∧ IsNumeral text ∧ x = sign * value text ∧ Fits bits x := by
  unfold scan
  constructor
  · intro h
    simp only [Option.ite_none_left_eq_some, Option.some.injEq, Prod.mk.injEq, not_or, not_not,
      List.dropWhile_eq_nil_iff] at h
    obtain ⟨⟨hne, hfits⟩, hx, hall⟩ := h
    have htake : text.takeWhile Char.isDigit = text := List.takeWhile_eq_self_iff.mpr hall
    rw [htake] at hne hfits hx
    exact ⟨hne, hall, hx.symm, hx ▸ hfits⟩
  · rintro ⟨hne, hall, rfl, hfits⟩
    have htake : text.takeWhile Char.isDigit = text := List.takeWhile_eq_self_iff.mpr hall
    have hdrop : text.dropWhile Char.isDigit = [] := List.dropWhile_eq_nil_iff.mpr hall
    simp [htake, hdrop, hne, hfits]

theorem from_chars_whole_iff {bits : Nat} {x : Int} {text : List Char} :
    from_chars bits text = some (x, []) ↔
      ∃ ds, ds ≠ [] ∧ IsNumeral ds ∧ Fits bits x ∧
        (text = ds ∧ x = value ds ∨ text = '-' :: ds ∧ x = -value ds) := by
  constructor
  · intro h
    unfold from_chars at h
    split at h
    · obtain ⟨hne, hall, hx, hfits⟩ := scan_whole_iff.mp h
      exact ⟨_, hne, hall, hfits, .inr ⟨rfl, by simpa using hx⟩⟩
    · obtain ⟨hne, hall, hx, hfits⟩ := scan_whole_iff.mp h
      exact ⟨_, hne, hall, hfits, .inl ⟨rfl, by simpa using hx⟩⟩
  · rintro ⟨ds, hne, hall, hfits, ⟨rfl, hx⟩ | ⟨rfl, hx⟩⟩
    · unfold from_chars
      split
      · -- a minus sign is not a digit
        have := hall '-' List.mem_cons_self
        exact absurd this (by decide)
      · exact scan_whole_iff.mpr ⟨hne, hall, by simpa using hx, hfits⟩
    · exact scan_whole_iff.mpr ⟨hne, hall, by simpa using hx, hfits⟩

end Decimal
