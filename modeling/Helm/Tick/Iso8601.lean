import Helm.Framework.Decimal
import Helm.Tick.Time

/-! # ISO 8601 text

  `parse_iso8601` and `format_iso8601`, between a `Date_Time` and its text
  `YYYY-MM-DDThh:mm:ss`. A text is a list of characters, one for each byte.

  The parser checks the length, then the five separators, then reads each
  field with `std::from_chars` over exactly its characters, then checks the
  ranges. `from_chars` takes a minus sign, so the parser also takes some
  texts with a sign in the year or in front of a zero; `SignSlip` names
  them.

  Main results:
  - `parse_iso8601_eq_returned`: what the parser accepts, field by field
  - `iso8601_correct`: on every other text the parser accepts exactly the
    format, and parsing and formatting undo each other
-/

namespace Tick

open Signed Decimal

/-! ### The functions of the source -/

def iso_length_text (size : Nat) : String :=
  "ISO 8601 parse error: expected 19 characters \"YYYY-MM-DDThh:mm:ss\", got " ++ toString size ++
    if size < 19 then " characters (unexpected end at byte " ++ toString size ++ ")"
    else " characters (trailing data at byte 19)"

def check_sep (sv : List Char) (pos : Nat) (expected : Char) : Cpp Unit :=
  let got := sv.getD pos ' '
  require (got = expected) (.invalid_argument
    ("ISO 8601 parse error: expected '" ++ expected.toString ++ "' at byte " ++ toString pos ++
      ", got '" ++ got.toString ++ "'"))

/-- The `len` characters of a field. -/
def field (sv : List Char) (start len : Nat) : List Char := (sv.drop start).take len

def parse_int (sv : List Char) (start len : Nat) : Cpp Int32 :=
  match from_chars 32 (field sv start len) with
  | some (value, []) => .returned (.ofInt value)
  -- an error, or characters left over
  | _ => .thrown (.invalid_argument
      ("ISO 8601 parse error: invalid numeric field at byte " ++ toString start))

def check_component (name : String) (x : Int32) (lo hi : Int) : Cpp Unit :=
  require (lo ≤ x.toInt ∧ x.toInt ≤ hi) (.invalid_argument
    ("ISO 8601 parse error: " ++ name ++ " " ++ toString x ++ " not in range [" ++ toString lo ++
      ", " ++ toString hi ++ "]"))

def parse_iso8601 (sv : List Char) : Cpp DateTime := do
  require (sv.length = 19) (.invalid_argument (iso_length_text sv.length))
  check_sep sv 4 '-'
  check_sep sv 7 '-'
  check_sep sv 10 'T'
  check_sep sv 13 ':'
  check_sep sv 16 ':'
  let year ← parse_int sv 0 4
  let month ← parse_int sv 5 2
  let day ← parse_int sv 8 2
  let hour ← parse_int sv 11 2
  let minute ← parse_int sv 14 2
  let second ← parse_int sv 17 2
  check_component "month" month 1 12
  check_component "day" day 1 31
  check_component "hour" hour 0 23
  check_component "minute" minute 0 59
  check_component "second" second 0 59
  return { year, month, day, hour, minute, second, nanosecond := 0 }

/-- The six fields with their separators. -/
def iso_text (year month day hour minute second : List Char) : List Char :=
  year ++ '-' :: (month ++ '-' :: (day ++ 'T' :: (hour ++ ':' :: (minute ++ ':' :: second))))

/-- `snprintf` fills a buffer of 20 bytes, the last one the terminator, and
    the text is its first 19. The fields never make fewer. -/
def format_iso8601 (dt : DateTime) : List Char :=
  (iso_text (padded_int 4 dt.year.toInt) (padded_int 2 dt.month.toInt) (padded_int 2 dt.day.toInt)
    (padded_int 2 dt.hour.toInt) (padded_int 2 dt.minute.toInt)
    (padded_int 2 dt.second.toInt)).take 19

/-! ### The format -/

/-- `D` stands for a decimal digit, every other character for itself. -/
def iso_pattern : List Char := "DDDD-DD-DDTDD:DD:DD".toList

def Matches (sv : List Char) : Prop :=
  List.Forall₂ (fun p c => if p = 'D' then c.isDigit = true else c = p) iso_pattern sv

instance (sv : List Char) : Decidable (Matches sv) :=
  inferInstanceAs (Decidable (List.Forall₂ _ iso_pattern sv))

/-- The ranges that do not depend on a calendar. -/
def FieldRanges (sv : List Char) : Prop :=
  (1 ≤ value (field sv 5 2) ∧ value (field sv 5 2) ≤ 12) ∧
  (1 ≤ value (field sv 8 2) ∧ value (field sv 8 2) ≤ 31) ∧
  value (field sv 11 2) ≤ 23 ∧ value (field sv 14 2) ≤ 59 ∧ value (field sv 17 2) ≤ 59

instance (sv : List Char) : Decidable (FieldRanges sv) :=
  inferInstanceAs (Decidable (_ ∧ _))

/-- A text of the format `YYYY-MM-DDThh:mm:ss` with its fields in range. -/
def IsIso (sv : List Char) : Prop := Matches sv ∧ FieldRanges sv

instance (sv : List Char) : Decidable (IsIso sv) :=
  inferInstanceAs (Decidable (_ ∧ _))

/-- Write a zero for the minus sign at `pos`. -/
def drop_sign (sv : List Char) (pos : Nat) : List Char :=
  if sv[pos]? = some '-' then sv.set pos '0' else sv

/-- Write a zero for the minus sign of a `-0` at `pos`. -/
def drop_zero_sign (sv : List Char) (pos : Nat) : List Char :=
  if sv[pos + 1]? = some '0' then drop_sign sv pos else sv

/-- The text without the sign of a negative year and without that of a zero
    hour, minute or second. -/
def unsigned (sv : List Char) : List Char :=
  drop_zero_sign (drop_zero_sign (drop_zero_sign (drop_sign sv 0) 11) 14) 17

/-- The text has such a sign, and is of the format without it. -/
def SignSlip (sv : List Char) : Prop := unsigned sv ≠ sv ∧ IsIso (unsigned sv)

instance (sv : List Char) : Decidable (SignSlip sv) :=
  inferInstanceAs (Decidable (_ ∧ _))

/-! ### The parser field by field -/

/-- The separators are in their places. -/
def Separated (sv : List Char) : Prop :=
  sv.getD 4 ' ' = '-' ∧ sv.getD 7 ' ' = '-' ∧ sv.getD 10 ' ' = 'T' ∧ sv.getD 13 ' ' = ':' ∧
    sv.getD 16 ' ' = ':'

/-- The ranges the parser checks on the fields it has read. -/
def DateTime.InRange (dt : DateTime) : Prop :=
  (1 ≤ dt.month.toInt ∧ dt.month.toInt ≤ 12) ∧ (1 ≤ dt.day.toInt ∧ dt.day.toInt ≤ 31) ∧
  (0 ≤ dt.hour.toInt ∧ dt.hour.toInt ≤ 23) ∧ (0 ≤ dt.minute.toInt ∧ dt.minute.toInt ≤ 59) ∧
  (0 ≤ dt.second.toInt ∧ dt.second.toInt ≤ 59)

instance (dt : DateTime) : Decidable dt.InRange :=
  inferInstanceAs (Decidable (_ ∧ _))

theorem require_eq_returned {p : Prop} [Decidable p] {e : Exn} {u : Unit} :
    require p e = .returned u ↔ p := by
  by_cases h : p <;> simp [require, h]

theorem parse_iso8601_eq_returned {sv : List Char} {dt : DateTime} :
    parse_iso8601 sv = .returned dt ↔
      (sv.length = 19 ∧ Separated sv) ∧
      (parse_int sv 0 4 = .returned dt.year ∧ parse_int sv 5 2 = .returned dt.month ∧
        parse_int sv 8 2 = .returned dt.day ∧ parse_int sv 11 2 = .returned dt.hour ∧
        parse_int sv 14 2 = .returned dt.minute ∧ parse_int sv 17 2 = .returned dt.second) ∧
      dt.InRange ∧ dt.nanosecond = 0 := by
  unfold parse_iso8601 check_sep check_component Separated DateTime.InRange
  simp only [Outcome.bind_eq_returned, require_eq_returned, Outcome.pure_eq, Outcome.returned.injEq]
  constructor
  · rintro ⟨_, hlen, _, h4, _, h7, _, h10, _, h13, _, h16, year, hy, month, hm, day, hd, hour, hh,
      minute, hmi, second, hs, _, hmr, _, hdr, _, hhr, _, hmir, _, hsr, rfl⟩
    exact ⟨⟨hlen, h4, h7, h10, h13, h16⟩, ⟨hy, hm, hd, hh, hmi, hs⟩, ⟨hmr, hdr, hhr, hmir, hsr⟩, rfl⟩
  · rintro ⟨⟨hlen, h4, h7, h10, h13, h16⟩, ⟨hy, hm, hd, hh, hmi, hs⟩, ⟨hmr, hdr, hhr, hmir, hsr⟩, hn⟩
    refine ⟨(), hlen, (), h4, (), h7, (), h10, (), h13, (), h16, _, hy, _, hm, _, hd, _, hh, _, hmi,
      _, hs, (), hmr, (), hdr, (), hhr, (), hmir, (), hsr, ?_⟩
    cases dt
    subst hn
    rfl

/-- The call returns or throws `invalid_argument`. -/
def Settles {α : Type} (x : Cpp α) : Prop :=
  (∃ a, x = .returned a) ∨ ∃ what, x = .thrown (.invalid_argument what)

theorem Settles.require {p : Prop} [Decidable p] {what : String} :
    Settles (require p (.invalid_argument what)) := by
  by_cases h : p
  · exact .inl ⟨(), require_of h⟩
  · exact .inr ⟨what, require_of_not h⟩

theorem Settles.bind {α β : Type} {x : Cpp α} {f : α → Cpp β} (hx : Settles x)
    (hf : ∀ a, Settles (f a)) : Settles (x >>= f) := by
  obtain ⟨a, rfl⟩ | ⟨what, rfl⟩ := hx
  · exact hf a
  · exact .inr ⟨what, rfl⟩

theorem parse_int_settles (sv : List Char) (start len : Nat) : Settles (parse_int sv start len) := by
  unfold parse_int
  split
  · exact .inl ⟨_, rfl⟩
  · exact .inr ⟨_, rfl⟩

theorem parse_iso8601_settles (sv : List Char) : Settles (parse_iso8601 sv) := by
  unfold parse_iso8601
  repeat
    first
    | exact .inl ⟨_, rfl⟩
    | apply Settles.bind Settles.require; intro _
    | apply Settles.bind (parse_int_settles ..); intro _

/-! ### Texts made of six fields -/

/-- The fields have the widths of the format. -/
structure Widths (year month day hour minute second : List Char) : Prop where
  year : year.length = 4
  month : month.length = 2
  day : day.length = 2
  hour : hour.length = 2
  minute : minute.length = 2
  second : second.length = 2

theorem field_length {sv : List Char} {start len : Nat} (h : start + len ≤ sv.length) :
    (field sv start len).length = len := by
  simp only [field, List.length_take, List.length_drop]
  omega

theorem field_widths {sv : List Char} (h : sv.length = 19) :
    Widths (field sv 0 4) (field sv 5 2) (field sv 8 2) (field sv 11 2) (field sv 14 2)
      (field sv 17 2) := by
  constructor <;> apply field_length <;> omega

theorem split_at {l : List Char} {n : Nat} {c : Char} (h : n < l.length)
    (hc : l.getD n ' ' = c) : l = l.take n ++ c :: l.drop (n + 1) := by
  have hget : l[n] = c := by rw [← hc, List.getD_eq_getElem _ _ h]
  rw [← hget, ← List.drop_eq_getElem_cons h, List.take_append_drop]

theorem iso_text_fields {sv : List Char} (hlen : sv.length = 19) (hsep : Separated sv) :
    iso_text (field sv 0 4) (field sv 5 2) (field sv 8 2) (field sv 11 2) (field sv 14 2)
      (field sv 17 2) = sv := by
  obtain ⟨h4, h7, h10, h13, h16⟩ := hsep
  -- a separator, and the rest of the text behind it
  have hstep : ∀ start c, start + 2 < 19 → sv.getD (start + 2) ' ' = c →
      sv.drop start = field sv start 2 ++ c :: sv.drop (start + 3) := by
    intro start c hstart hc
    have hsplit := @split_at (sv.drop start) 2 c (by simp only [List.length_drop]; omega)
      (by rw [← hc]; simp [List.getD_eq_getElem?_getD, List.getElem?_drop])
    rw [List.drop_drop] at hsplit
    exact hsplit
  have hlast : sv.drop 17 = field sv 17 2 := by
    unfold field
    rw [List.take_of_length_le]
    simp only [List.length_drop]
    omega
  have hfirst : sv = field sv 0 4 ++ '-' :: sv.drop 5 := split_at (by omega) h4
  conv_rhs => rw [hfirst, hstep 5 _ (by omega) h7, hstep 8 _ (by omega) h10,
    hstep 11 _ (by omega) h13, hstep 14 _ (by omega) h16, hlast]
  rfl

section Text
variable {y m d h mi s : List Char}

theorem iso_text_length (w : Widths y m d h mi s) : (iso_text y m d h mi s).length = 19 := by
  simp [iso_text, w.year, w.month, w.day, w.hour, w.minute, w.second]

theorem iso_text_field (w : Widths y m d h mi s) :
    Separated (iso_text y m d h mi s) ∧
    field (iso_text y m d h mi s) 0 4 = y ∧ field (iso_text y m d h mi s) 5 2 = m ∧
    field (iso_text y m d h mi s) 8 2 = d ∧ field (iso_text y m d h mi s) 11 2 = h ∧
    field (iso_text y m d h mi s) 14 2 = mi ∧ field (iso_text y m d h mi s) 17 2 = s := by
  obtain ⟨_, _, _, _, rfl⟩ := List.length_eq_four.mp w.year
  obtain ⟨_, _, rfl⟩ := List.length_eq_two.mp w.month
  obtain ⟨_, _, rfl⟩ := List.length_eq_two.mp w.day
  obtain ⟨_, _, rfl⟩ := List.length_eq_two.mp w.hour
  obtain ⟨_, _, rfl⟩ := List.length_eq_two.mp w.minute
  obtain ⟨_, _, rfl⟩ := List.length_eq_two.mp w.second
  exact ⟨⟨rfl, rfl, rfl, rfl, rfl⟩, rfl, rfl, rfl, rfl, rfl, rfl⟩

theorem matches_iso_text (w : Widths y m d h mi s) :
    Matches (iso_text y m d h mi s) ↔ IsNumeral y ∧ IsNumeral m ∧ IsNumeral d ∧ IsNumeral h ∧
      IsNumeral mi ∧ IsNumeral s := by
  have hpattern : iso_pattern = iso_text ['D', 'D', 'D', 'D'] ['D', 'D'] ['D', 'D'] ['D', 'D']
      ['D', 'D'] ['D', 'D'] := rfl
  obtain ⟨_, _, _, _, rfl⟩ := List.length_eq_four.mp w.year
  obtain ⟨_, _, rfl⟩ := List.length_eq_two.mp w.month
  obtain ⟨_, _, rfl⟩ := List.length_eq_two.mp w.day
  obtain ⟨_, _, rfl⟩ := List.length_eq_two.mp w.hour
  obtain ⟨_, _, rfl⟩ := List.length_eq_two.mp w.minute
  obtain ⟨_, _, rfl⟩ := List.length_eq_two.mp w.second
  simp only [Matches, hpattern, iso_text, List.cons_append, List.nil_append, List.forall₂_cons,
    List.forall₂_nil_left_iff, IsNumeral, List.forall_mem_cons, List.not_mem_nil, reduceIte,
    Char.reduceEq, and_assoc, and_true, true_and, false_imp_iff, implies_true]

theorem isIso_iso_text (w : Widths y m d h mi s) :
    IsIso (iso_text y m d h mi s) ↔
      (IsNumeral y ∧ IsNumeral m ∧ IsNumeral d ∧ IsNumeral h ∧ IsNumeral mi ∧ IsNumeral s) ∧
      (1 ≤ value m ∧ value m ≤ 12) ∧ (1 ≤ value d ∧ value d ≤ 31) ∧ value h ≤ 23 ∧
      value mi ≤ 59 ∧ value s ≤ 59 := by
  obtain ⟨_, -, hfm, hfd, hfh, hfmi, hfs⟩ := iso_text_field w
  unfold IsIso FieldRanges
  rw [matches_iso_text w, hfm, hfd, hfh, hfmi, hfs]

end Text

theorem Matches.separated {sv : List Char} (h : Matches sv) : sv.length = 19 ∧ Separated sv := by
  have hlen : sv.length = 19 := by
    rw [← h.length_eq]
    rfl
  refine ⟨hlen, ?_⟩
  -- the pattern has the separators in their places
  have hat : ∀ i, ∀ hi : i < 19, (if iso_pattern.get ⟨i, hi⟩ = 'D' then
      (sv.get ⟨i, hlen ▸ hi⟩).isDigit = true else sv.get ⟨i, hlen ▸ hi⟩ = iso_pattern.get ⟨i, hi⟩) :=
    fun i hi => h.get hi (hlen ▸ hi)
  have hsep : ∀ i, ∀ hi : i < 19, iso_pattern.get ⟨i, hi⟩ ≠ 'D' →
      sv.getD i ' ' = iso_pattern.get ⟨i, hi⟩ := by
    intro i hi hne
    have := hat i hi
    rw [if_neg hne] at this
    rw [← this, List.getD_eq_getElem _ _ (hlen ▸ hi)]
    rfl
  exact ⟨hsep 4 (by decide) (by decide), hsep 7 (by decide) (by decide),
    hsep 10 (by decide) (by decide), hsep 13 (by decide) (by decide),
    hsep 16 (by decide) (by decide)⟩

/-! ### Reading one field -/

/-- `parse_int` reads its characters as a number. -/
def Reads (cs : List Char) (x : Int32) : Prop := from_chars 32 cs = some (x.toInt, [])

theorem parse_int_eq_returned {sv : List Char} {start len : Nat} {x : Int32} :
    parse_int sv start len = .returned x ↔ Reads (field sv start len) x := by
  unfold parse_int Reads
  split
  · next value hvalue =>
    obtain ⟨_, _, _, hfits, _⟩ := from_chars_whole_iff.mp hvalue
    rw [hvalue]
    constructor
    · intro h
      cases h
      rw [toInt_ofInt32_of_fits hfits]
    · intro h
      have hx : value = x.toInt := by simpa using h
      rw [hx, Int32.ofInt_toInt]
  · next hnot =>
    simp only [reduceCtorEq, false_iff]
    exact hnot _

theorem reads_numeral {cs : List Char} {x : Int32} (hne : cs ≠ []) (h : IsNumeral cs)
    (hx : x.toInt = value cs) : Reads cs x :=
  from_chars_whole_iff.mpr ⟨cs, hne, h, fits_toInt32 x, .inl ⟨rfl, hx⟩⟩

theorem Reads.cases {cs : List Char} {x : Int32} (h : Reads cs x) :
    (IsNumeral cs ∧ x.toInt = value cs) ∨
      ∃ ds, cs = '-' :: ds ∧ ds ≠ [] ∧ IsNumeral ds ∧ x.toInt = -value ds := by
  obtain ⟨ds, hne, hds, -, ⟨rfl, hx⟩ | ⟨hcs, hx⟩⟩ := from_chars_whole_iff.mp h
  · exact .inl ⟨hds, hx⟩
  · exact .inr ⟨ds, hcs, hne, hds, hx⟩

theorem Reads.positive {cs : List Char} {x : Int32} (h : Reads cs x) (hx : 1 ≤ x.toInt) :
    IsNumeral cs ∧ x.toInt = value cs := by
  obtain hnum | ⟨ds, -, -, -, hneg⟩ := h.cases
  · exact hnum
  · omega

theorem drop_sign_of_numeral {cs : List Char} (h : IsNumeral cs) : drop_sign cs 0 = cs := by
  unfold drop_sign
  rw [if_neg]
  intro hminus
  have := h '-' (List.mem_of_getElem? hminus)
  exact absurd this (by decide)

theorem drop_zero_sign_of_numeral {cs : List Char} (h : IsNumeral cs) :
    drop_zero_sign cs 0 = cs := by
  unfold drop_zero_sign
  rw [drop_sign_of_numeral h, ite_self]

theorem Reads.unsigned_year {cs : List Char} {x : Int32} (h : Reads cs x) :
    IsNumeral (drop_sign cs 0) := by
  obtain ⟨hnum, -⟩ | ⟨ds, rfl, -, hds, -⟩ := h.cases
  · rw [drop_sign_of_numeral hnum]
    exact hnum
  · show IsNumeral ('0' :: ds)
    intro c hc
    rcases List.mem_cons.mp hc with rfl | hmem
    · decide
    · exact hds c hmem

theorem Reads.unsigned_component {cs : List Char} {x : Int32} (hlen : cs.length = 2)
    (h : Reads cs x) (hx : 0 ≤ x.toInt) :
    IsNumeral (drop_zero_sign cs 0) ∧ x.toInt = value (drop_zero_sign cs 0) := by
  obtain ⟨hnum, hvalue⟩ | ⟨ds, rfl, -, hds, hneg⟩ := h.cases
  · rw [drop_zero_sign_of_numeral hnum]
    exact ⟨hnum, hvalue⟩
  · -- the digit behind the sign is a zero
    have hzero : value ds = 0 := by omega
    have hone : ds.length = 1 := by simpa using hlen
    have hdigit : ds = ['0'] := value_inj hds (by decide) hone (hzero.trans (value_zeros 1).symm)
    subst hdigit
    have hunsigned : value (drop_zero_sign ['-', '0'] 0) = 0 := value_zeros 2
    refine ⟨by decide, ?_⟩
    rw [hunsigned]
    omega

/-! ### Dropping signs field by field -/

theorem drop_sign_append_left {cs : List Char} (ts : List Char) {pos : Nat} (h : pos < cs.length) :
    drop_sign (cs ++ ts) pos = drop_sign cs pos ++ ts := by
  unfold drop_sign
  rw [List.getElem?_append_left h, List.set_append_left _ _ h, apply_ite (· ++ ts)]

theorem drop_sign_append_right (cs ts : List Char) (pos : Nat) :
    drop_sign (cs ++ ts) (cs.length + pos) = cs ++ drop_sign ts pos := by
  unfold drop_sign
  rw [List.getElem?_append_right (by omega), List.set_append_right _ _ (by omega),
    Nat.add_sub_cancel_left, apply_ite (cs ++ ·)]

theorem drop_sign_length (cs : List Char) (pos : Nat) : (drop_sign cs pos).length = cs.length := by
  unfold drop_sign
  split <;> simp

theorem drop_zero_sign_length (cs : List Char) (pos : Nat) :
    (drop_zero_sign cs pos).length = cs.length := by
  unfold drop_zero_sign
  split
  · exact drop_sign_length ..
  · rfl

theorem drop_zero_sign_field {cs : List Char} (before behind : List Char) (h : cs.length = 2) :
    drop_zero_sign (before ++ (cs ++ behind)) before.length =
      before ++ (drop_zero_sign cs 0 ++ behind) := by
  unfold drop_zero_sign
  have hnext : (before ++ (cs ++ behind))[before.length + 1]? = cs[0 + 1]? := by
    rw [List.getElem?_append_right (by omega), List.getElem?_append_left (by omega)]
    congr 1
    omega
  have hdrop : drop_sign (before ++ (cs ++ behind)) before.length =
      before ++ (drop_sign cs 0 ++ behind) := by
    have hfront : drop_sign (cs ++ behind) 0 = drop_sign cs 0 ++ behind :=
      drop_sign_append_left behind (by omega)
    rw [← hfront]
    exact drop_sign_append_right before (cs ++ behind) 0
  rw [hnext, hdrop]
  split <;> rfl

theorem unsigned_iso_text {y m d h mi s : List Char} (w : Widths y m d h mi s) :
    unsigned (iso_text y m d h mi s) =
      iso_text (drop_sign y 0) m d (drop_zero_sign h 0) (drop_zero_sign mi 0)
        (drop_zero_sign s 0) := by
  have hyear : drop_sign (iso_text y m d h mi s) 0 = iso_text (drop_sign y 0) m d h mi s :=
    drop_sign_append_left _ (by rw [w.year]; decide)
  have hlen : (drop_sign y 0).length = 4 := by rw [drop_sign_length, w.year]
  have hhour := drop_zero_sign_field (drop_sign y 0 ++ '-' :: (m ++ '-' :: (d ++ ['T'])))
    (':' :: (mi ++ ':' :: s)) w.hour
  have hminute := drop_zero_sign_field
    (drop_sign y 0 ++ '-' :: (m ++ '-' :: (d ++ 'T' :: (drop_zero_sign h 0 ++ [':']))))
    (':' :: s) w.minute
  have hsecond := drop_zero_sign_field
    (drop_sign y 0 ++ '-' :: (m ++ '-' :: (d ++ 'T' :: (drop_zero_sign h 0 ++
      ':' :: (drop_zero_sign mi 0 ++ [':'])))))
    [] w.second
  simp only [List.length_append, List.length_cons, List.length_nil, hlen, w.month, w.day,
    drop_zero_sign_length, w.hour, w.minute, List.append_assoc, List.cons_append, List.nil_append,
    List.append_nil] at hhour hminute hsecond
  unfold unsigned
  rw [hyear]
  unfold iso_text
  rw [hhour, hminute, hsecond]

/-! ### Parsing and formatting -/

theorem isIso_unsigned {sv : List Char} {dt : DateTime}
    (h : parse_iso8601 sv = .returned dt) : IsIso (unsigned sv) := by
  obtain ⟨⟨hlen, hsep⟩, ⟨hy, hm, hd, hh, hmi, hs⟩, ⟨hmr, hdr, hhr, hmir, hsr⟩, -⟩ :=
    parse_iso8601_eq_returned.mp h
  rw [parse_int_eq_returned] at hy hm hd hh hmi hs
  have w := field_widths hlen
  obtain ⟨hmn, hmv⟩ := hm.positive hmr.1
  obtain ⟨hdn, hdv⟩ := hd.positive hdr.1
  obtain ⟨hhn, hhv⟩ := hh.unsigned_component w.hour hhr.1
  obtain ⟨hmin, hmiv⟩ := hmi.unsigned_component w.minute hmir.1
  obtain ⟨hsn, hsv⟩ := hs.unsigned_component w.second hsr.1
  have hw : Widths (drop_sign (field sv 0 4) 0) (field sv 5 2) (field sv 8 2)
      (drop_zero_sign (field sv 11 2) 0) (drop_zero_sign (field sv 14 2) 0)
      (drop_zero_sign (field sv 17 2) 0) :=
    ⟨by rw [drop_sign_length, w.year], w.month, w.day, by rw [drop_zero_sign_length, w.hour],
      by rw [drop_zero_sign_length, w.minute], by rw [drop_zero_sign_length, w.second]⟩
  rw [← iso_text_fields hlen hsep, unsigned_iso_text w, isIso_iso_text hw]
  exact ⟨⟨hy.unsigned_year, hmn, hdn, hhn, hmin, hsn⟩, by omega, by omega, by omega, by omega,
    by omega⟩

/-- The date a text of the format stands for. -/
def iso_date (sv : List Char) : DateTime where
  year := .ofInt (value (field sv 0 4))
  month := .ofInt (value (field sv 5 2))
  day := .ofInt (value (field sv 8 2))
  hour := .ofInt (value (field sv 11 2))
  minute := .ofInt (value (field sv 14 2))
  second := .ofInt (value (field sv 17 2))
  nanosecond := 0

theorem toInt_ofInt_of_lt {n : Nat} (h : n < 10000) : (Int32.ofInt n).toInt = n :=
  toInt_ofInt32_of_fits (fits_32.mpr ⟨by omega, by omega⟩)

section Format
variable {sv : List Char}

theorem IsIso.fields (h : IsIso sv) :
    (sv.length = 19 ∧ Separated sv) ∧
    (IsNumeral (field sv 0 4) ∧ IsNumeral (field sv 5 2) ∧ IsNumeral (field sv 8 2) ∧
      IsNumeral (field sv 11 2) ∧ IsNumeral (field sv 14 2) ∧ IsNumeral (field sv 17 2)) := by
  obtain ⟨hlen, hsep⟩ := h.1.separated
  refine ⟨⟨hlen, hsep⟩, ?_⟩
  rw [← iso_text_fields hlen hsep] at h
  exact ((isIso_iso_text (field_widths hlen)).mp h).1

theorem IsIso.toInt_date (h : IsIso sv) :
    (iso_date sv).year.toInt = value (field sv 0 4) ∧
    (iso_date sv).month.toInt = value (field sv 5 2) ∧
    (iso_date sv).day.toInt = value (field sv 8 2) ∧
    (iso_date sv).hour.toInt = value (field sv 11 2) ∧
    (iso_date sv).minute.toInt = value (field sv 14 2) ∧
    (iso_date sv).second.toInt = value (field sv 17 2) := by
  obtain ⟨⟨hlen, -⟩, hy, -, -, -, -, -⟩ := h.fields
  obtain ⟨-, hm, hd, hh, hmi, hs⟩ := h
  have hyear := value_lt hy
  rw [(field_widths hlen).year] at hyear
  exact ⟨toInt_ofInt_of_lt hyear, toInt_ofInt_of_lt (by omega), toInt_ofInt_of_lt (by omega),
    toInt_ofInt_of_lt (by omega), toInt_ofInt_of_lt (by omega), toInt_ofInt_of_lt (by omega)⟩

theorem parse_iso8601_of_isIso (h : IsIso sv) : parse_iso8601 sv = .returned (iso_date sv) := by
  obtain ⟨⟨hlen, hsep⟩, hy, hm, hd, hh, hmi, hs⟩ := h.fields
  obtain ⟨hyv, hmv, hdv, hhv, hmiv, hsv⟩ := h.toInt_date
  have w := field_widths hlen
  have hne : ∀ {cs : List Char} {n : Nat}, cs.length = n + 1 → cs ≠ [] :=
    fun hcs => List.ne_nil_of_length_eq_add_one hcs
  have hrange : (iso_date sv).InRange := by
    obtain ⟨-, hm, hd, hh, hmi, hs⟩ := h
    unfold DateTime.InRange
    omega
  simp only [parse_iso8601_eq_returned, parse_int_eq_returned]
  exact ⟨⟨hlen, hsep⟩, ⟨reads_numeral (hne w.year) hy hyv, reads_numeral (hne w.month) hm hmv,
    reads_numeral (hne w.day) hd hdv, reads_numeral (hne w.hour) hh hhv,
    reads_numeral (hne w.minute) hmi hmiv, reads_numeral (hne w.second) hs hsv⟩, hrange, rfl⟩

theorem format_iso_date (h : IsIso sv) : format_iso8601 (iso_date sv) = sv := by
  obtain ⟨⟨hlen, hsep⟩, hy, hm, hd, hh, hmi, hs⟩ := h.fields
  obtain ⟨hyv, hmv, hdv, hhv, hmiv, hsv⟩ := h.toInt_date
  have w := field_widths hlen
  have hpadded : ∀ {cs : List Char} {n : Nat}, IsNumeral cs → cs.length = n + 1 →
      padded_int (n + 1) (value cs) = cs := by
    intro cs n hcs hn
    rw [padded_int_natCast, ← hn, padded_value (List.ne_nil_of_length_eq_add_one hn) hcs]
  unfold format_iso8601
  rw [hyv, hmv, hdv, hhv, hmiv, hsv, hpadded hy w.year, hpadded hm w.month, hpadded hd w.day,
    hpadded hh w.hour, hpadded hmi w.minute, hpadded hs w.second, iso_text_fields hlen hsep,
    List.take_of_length_le hlen.le]

end Format

theorem format_iso8601_spec {dt : DateTime} (hyear : 0 ≤ dt.year.toInt ∧ dt.year.toInt ≤ 9999)
    (hrange : dt.InRange) :
    IsIso (format_iso8601 dt) ∧ iso_date (format_iso8601 dt) = { dt with nanosecond := 0 } := by
  obtain ⟨hm, hd, hh, hmi, hs⟩ := hrange
  -- each field is the padded form of a natural number
  have hnat : ∀ {x : Int32} {lo hi : Int}, 0 ≤ lo → lo ≤ x.toInt ∧ x.toInt ≤ hi →
      ∃ n : Nat, x.toInt = n ∧ lo ≤ n ∧ n ≤ hi ∧ Int32.ofInt n = x := by
    intro x lo hi hlo hx
    have hcast : x.toInt = (x.toInt.toNat : Int) := by omega
    refine ⟨x.toInt.toNat, hcast, by omega, by omega, ?_⟩
    rw [← hcast, Int32.ofInt_toInt]
  obtain ⟨y, hyx, -, hyle, hye⟩ := hnat le_rfl hyear
  obtain ⟨m, hmx, hmge, hmle, hme⟩ := hnat (by decide) hm
  obtain ⟨d, hdx, hdge, hdle, hde⟩ := hnat (by decide) hd
  obtain ⟨h, hhx, -, hhle, hhe⟩ := hnat le_rfl hh
  obtain ⟨mi, hmix, -, hmile, hmie⟩ := hnat le_rfl hmi
  obtain ⟨s, hsx, -, hsle, hse⟩ := hnat le_rfl hs
  have w : Widths (padded 4 y) (padded 2 m) (padded 2 d) (padded 2 h) (padded 2 mi)
      (padded 2 s) := by
    constructor <;> apply length_padded <;> omega
  have hformat : format_iso8601 dt = iso_text (padded 4 y) (padded 2 m) (padded 2 d) (padded 2 h)
      (padded 2 mi) (padded 2 s) := by
    unfold format_iso8601
    rw [hyx, hmx, hdx, hhx, hmix, hsx]
    simp only [padded_int_natCast]
    rw [List.take_of_length_le (iso_text_length w).le]
  obtain ⟨-, hfy, hfm, hfd, hfh, hfmi, hfs⟩ := iso_text_field w
  rw [hformat]
  constructor
  · rw [isIso_iso_text w]
    simp only [value_padded]
    exact ⟨⟨isNumeral_padded _ _, isNumeral_padded _ _, isNumeral_padded _ _,
      isNumeral_padded _ _, isNumeral_padded _ _, isNumeral_padded _ _⟩, by omega, by omega,
      by omega, by omega, by omega⟩
  · unfold iso_date
    rw [hfy, hfm, hfd, hfh, hfmi, hfs]
    simp only [value_padded, hye, hme, hde, hhe, hmie, hse]

theorem iso8601_correct :
    (∀ sv, ¬ SignSlip sv →
      (IsIso sv → ∃ dt, parse_iso8601 sv = .returned dt ∧ format_iso8601 dt = sv) ∧
      (¬ IsIso sv → ∃ what, parse_iso8601 sv = .thrown (.invalid_argument what))) ∧
    (∀ dt : DateTime, 0 ≤ dt.year.toInt → dt.year.toInt ≤ 9999 → dt.InRange →
      parse_iso8601 (format_iso8601 dt) = .returned { dt with nanosecond := 0 }) := by
  constructor
  · intro sv hsv
    constructor
    · intro h
      exact ⟨_, parse_iso8601_of_isIso h, format_iso_date h⟩
    · intro hnot
      obtain ⟨dt, hdt⟩ | hthrown := parse_iso8601_settles sv
      · -- an accepted text is of the format up to signs, and it has none to drop
        have hiso := isIso_unsigned hdt
        by_cases hsame : unsigned sv = sv
        · rw [hsame] at hiso
          exact absurd hiso hnot
        · exact absurd ⟨hsame, hiso⟩ hsv
      · exact hthrown
  · intro dt hyear hyear' hrange
    obtain ⟨hiso, hdate⟩ := format_iso8601_spec ⟨hyear, hyear'⟩ hrange
    rw [parse_iso8601_of_isIso hiso, hdate]

theorem iso8601_correct_march :
    (∃ dt, parse_iso8601 "2028-03-01T07:08:59".toList = .returned dt ∧
      format_iso8601 dt = "2028-03-01T07:08:59".toList) ∧
    (∃ what, parse_iso8601 "2028-13-01T07:08:59".toList = .thrown (.invalid_argument what)) ∧
    parse_iso8601 (format_iso8601 ⟨2028, 3, 1, 7, 8, 59, 250⟩) =
      .returned ⟨2028, 3, 1, 7, 8, 59, 0⟩ :=
  ⟨(iso8601_correct.1 _ (by decide)).1 (by decide), (iso8601_correct.1 _ (by decide)).2 (by decide),
    iso8601_correct.2 _ (by decide) (by decide) (by decide)⟩

theorem iso8601_drops_nanoseconds :
    ¬ ∀ dt : DateTime, 0 ≤ dt.year.toInt → dt.year.toInt ≤ 9999 → dt.InRange →
      0 ≤ dt.nanosecond.toInt → dt.nanosecond.toInt ≤ 999999999 →
      parse_iso8601 (format_iso8601 dt) = .returned dt := by
  intro h
  have hgot := h ⟨2026, 1, 1, 0, 0, 0, 1⟩ (by decide) (by decide) (by decide) (by decide)
    (by decide)
  obtain ⟨hiso, hdate⟩ := @format_iso8601_spec ⟨2026, 1, 1, 0, 0, 0, 1⟩ (by decide) (by decide)
  rw [parse_iso8601_of_isIso hiso, hdate] at hgot
  exact absurd hgot (by decide)

end Tick
