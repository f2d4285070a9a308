import Helm.Framework.Decimal

/-! # YAML in block style

  Mappings of one or two levels, as a program writes them line by line, and
  what a YAML parser makes of them.

  * **Scalars**: `plain` is the production of a plain scalar on one line.
    An empty value and the words for null are not scalars.
  * **Documents**: `Document.lines` are the lines of a document and
    `Document.node` is what it stands for.
  * **Parsers**: `Parser` has the laws of a parser on such documents.
    `line_yaml` is one that reads nothing else.
-/

namespace Yaml

open Signed

inductive Node where
  | null
  | scalar (text : String)
  | sequence (items : List Node)
  | map (entries : List (String × Node))

/-- The value of a key of a mapping. -/
def Node.find? : Node → String → Option Node
  | .map entries, key => entries.lookup key
  | _, _ => none

/-! ### Scalars -/

def is_white (c : Char) : Bool := c = ' ' || c = '\t'

/-- `ns-char`: printable, no blank, no line break and no byte order mark. -/
def is_ns_char (c : Char) : Bool :=
  let n := c.toNat
  (0x21 ≤ n && n ≤ 0x7E) || n == 0x85 || (0xA0 ≤ n && n ≤ 0xD7FF) ||
    (0xE000 ≤ n && n ≤ 0xFFFD && n != 0xFEFF) || 0x10000 ≤ n

/-- `c-indicator` -/
def is_indicator (c : Char) : Bool :=
  c ∈ ['-', '?', ':', ',', '[', ']', '\x7b', '\x7d', '#', '&', '*', '!', '|', '>', '\x27', '\x22',
    '%', '@', '\x60']

/-- `ns-plain-first` -/
def plain_first : List Char → Bool
  | [] => false
  | c :: rest =>
    (is_ns_char c && !is_indicator c) ||
      ((c = '?' || c = ':' || c = '-') && (rest.head?.map is_ns_char).getD false)

/-- `nb-ns-plain-in-line` after the character `prev`. -/
def plain_in_line (prev : Char) : List Char → Bool
  | [] => !is_white prev
  | c :: rest =>
    (is_white c ||
      if c = '#' then !is_white prev
      else if c = ':' then (rest.head?.map is_ns_char).getD false
      else is_ns_char c) && plain_in_line c rest

/-- A plain scalar on one line, outside of flow collections. -/
def plain_chars : List Char → Bool
  | [] => false
  | c :: rest => plain_first (c :: rest) && plain_in_line c rest

def plain (text : String) : Bool := plain_chars text.toList

def null_texts : List String := ["", "~", "null", "Null", "NULL"]

/-- What a plain scalar or an empty value stands for. -/
def text_node (text : String) : Node := if text ∈ null_texts then .null else .scalar text

/-- A value that has one reading, whatever is around it. -/
def readable (text : String) : Bool := text = "" || plain text

/-- A key of letters, digits and underscores. -/
def is_word (key : String) : Bool :=
  key.toList ≠ [] && key.toList.all (fun c => c.isAlphanum || c = '_') && key ∉ null_texts

/-! ### Documents -/

/-- A value on the second level. -/
inductive Leaf where
  | text (t : String)
  | items (ts : List String)

inductive Entry where
  | leaf (l : Leaf)
  | fields (fs : List (String × Leaf))

abbrev Document := List (String × Entry)

inductive Line where
  | item (indent : Nat) (text : String)
  | pair (indent : Nat) (key text : String)
  | header (indent : Nat) (key : String)

def spaces (n : Nat) : String := .ofList (List.replicate n ' ')

def Line.content : Line → String
  | .item indent text => spaces indent ++ "- " ++ text
  | .pair indent key text => spaces indent ++ key ++ ": " ++ text
  | .header indent key => spaces indent ++ key ++ ":"

/-- The text of lines, each with its end. -/
def text_of_lines : List Line → String
  | [] => ""
  | line :: lines => line.content ++ "\n" ++ text_of_lines lines

def Leaf.lines (indent : Nat) (key : String) : Leaf → List Line
  | .text t => [.pair indent key t]
  | .items ts => .header indent key :: ts.map (.item (indent + 2))

def Entry.lines (key : String) : Entry → List Line
  | .leaf l => l.lines 0 key
  | .fields fs => .header 0 key :: fs.flatMap fun f => f.2.lines 2 f.1

def Leaf.node : Leaf → Node
  | .text t => text_node t
  | .items ts => .sequence (ts.map text_node)

def Entry.node : Entry → Node
  | .leaf l => l.node
  | .fields fs => .map (fs.map fun f => (f.1, f.2.node))

def Leaf.WellFormed : Leaf → Prop
  | .text t => readable t = true
  | .items ts => ts ≠ [] ∧ ∀ t ∈ ts, readable t = true

def Entry.WellFormed : Entry → Prop
  | .leaf l => l.WellFormed
  | .fields fs => fs ≠ [] ∧ (fs.map (·.1)).Nodup ∧ ∀ f ∈ fs, is_word f.1 = true ∧ f.2.WellFormed

namespace Document

def lines (doc : Document) : List Line := doc.flatMap fun e => e.2.lines e.1

def text (doc : Document) : String := text_of_lines (lines doc)

def node (doc : Document) : Node := .map (doc.map fun e => (e.1, e.2.node))

def WellFormed (doc : Document) : Prop :=
  doc ≠ [] ∧ (doc.map (·.1)).Nodup ∧ ∀ e ∈ doc, is_word e.1 = true ∧ e.2.WellFormed

end Document

/-! ### Parsers -/

/-- The laws of a YAML parser and its conversion of scalars to `int`, as far
    as documents in block style go. -/
structure Parser where
  /-- The text of the parser exception, or the root. -/
  load : String → Except String Node
  as_int : String → Option Int
  load_document : ∀ doc : Document, doc.WellFormed → load doc.text = .ok doc.node
  /-- A scalar is the text between its key and the end of the line only when
      it is a plain scalar on one line. In every other style, quotes, escapes
      or line breaks make the presentation longer than the content. -/
  load_verbatim : ∀ (front back : Document) (key text : String) (root : Node),
    Document.WellFormed (front ++ (key, .leaf (.text "")) :: back) →
    load (Document.text (front ++ (key, .leaf (.text text)) :: back)) = .ok root →
    root.find? key = some (.scalar text) → plain text = true
  as_int_decimal : ∀ n : Int, as_int (toString n) = if Fits 32 n then some n else none

/-! ### Numbers as scalars -/

theorem is_ns_char_of_isDigit {c : Char} (h : c.isDigit = true) :
    is_ns_char c = true ∧ is_indicator c = false ∧ is_white c = false ∧ c ≠ '#' ∧ c ≠ ':' := by
  have hbounds := Decimal.isDigit_bounds h
  have hne : ∀ d : Char, d.toNat < 48 ∨ 57 < d.toNat → c ≠ d := by
    intro d hd heq
    subst heq
    omega
  refine ⟨?_, ?_, ?_, hne '#' (by decide), hne ':' (by decide)⟩
  · unfold is_ns_char
    simp only [Bool.or_eq_true, Bool.and_eq_true, decide_eq_true_eq]
    omega
  · unfold is_indicator
    rw [decide_eq_false_iff_not]
    simp only [List.mem_cons, List.not_mem_nil, or_false, not_or]
    refine ⟨hne _ ?_, hne _ ?_, hne _ ?_, hne _ ?_, hne _ ?_, hne _ ?_, hne _ ?_, hne _ ?_,
      hne _ ?_, hne _ ?_, hne _ ?_, hne _ ?_, hne _ ?_, hne _ ?_, hne _ ?_, hne _ ?_, hne _ ?_,
      hne _ ?_, hne _ ?_⟩ <;> decide
  · unfold is_white
    simp [hne ' ' (by decide), hne '\t' (by decide)]

theorem plain_in_line_digits {cs : List Char} (h : Decimal.IsNumeral cs) {prev : Char}
    (hprev : is_white prev = false) : plain_in_line prev cs = true := by
  induction cs generalizing prev with
  | nil => rw [plain_in_line, hprev, Bool.not_false]
  | cons c cs ih =>
    obtain ⟨hns, _, hwhite, hhash, hcolon⟩ := is_ns_char_of_isDigit (h c List.mem_cons_self)
    have hrest := ih (fun d hd => h d (List.mem_cons_of_mem c hd)) hwhite
    rw [plain_in_line, hrest, if_neg hhash, if_neg hcolon, hns, Bool.or_true, Bool.and_true]

theorem isNumeral_toDigits (n : Nat) : Decimal.IsNumeral (Nat.toDigits 10 n) := by
  intro c hc
  exact Nat.isDigit_of_mem_toDigits (by decide) (by decide) hc

theorem toList_toString (n : Int) :
    (toString n).toList =
      if n < 0 then '-' :: Nat.toDigits 10 n.natAbs else Nat.toDigits 10 n.natAbs := by
  rw [Int.toString_eq_repr, Int.repr_eq_if]
  by_cases hneg : n < 0
  · have habs : (-n).toNat = n.natAbs := by omega
    rw [if_neg (not_le.mpr hneg), if_pos hneg, String.toList_append, Nat.toList_repr, habs]
    rfl
  · have habs : n.toNat = n.natAbs := by omega
    rw [if_pos (not_lt.mp hneg), if_neg hneg, Nat.toList_repr, habs]

theorem plain_toString (n : Int) : plain (toString n) = true := by
  have hdigits := isNumeral_toDigits n.natAbs
  obtain ⟨c, cs, hcs⟩ := List.exists_cons_of_ne_nil
    (Nat.toDigits_ne_nil (n := n.natAbs) (b := 10))
  rw [hcs] at hdigits
  obtain ⟨hns, hind, hwhite, hhash, hcolon⟩ :=
    is_ns_char_of_isDigit (hdigits c List.mem_cons_self)
  have hrest := plain_in_line_digits (fun d hd => hdigits d (List.mem_cons_of_mem c hd)) hwhite
  rw [plain, toList_toString, hcs]
  split
  · -- the sign is followed by a digit
    simp [plain_chars, plain_first, plain_in_line, hns, hrest, hhash, hcolon]
  · simp [plain_chars, plain_first, hns, hind, hrest]

theorem toString_not_null (n : Int) : toString n ∉ null_texts := by
  intro hmem
  have hchars : (toString n).toList ∈ null_texts.map String.toList := List.mem_map_of_mem hmem
  have hdigits := isNumeral_toDigits n.natAbs
  have hne := Nat.toDigits_ne_nil (n := n.natAbs) (b := 10)
  rw [toList_toString] at hchars
  obtain ⟨c, cs, hcs⟩ := List.exists_cons_of_ne_nil hne
  rw [hcs] at hchars hdigits
  have hc := hdigits c List.mem_cons_self
  simp only [null_texts, List.map_cons, List.map_nil, List.mem_cons, List.not_mem_nil,
    or_false] at hchars
  split at hchars
  · simp at hchars
  · obtain h | h | h | h | h := hchars
    all_goals
      simp at h
      try (rw [h.1] at hc; exact absurd hc (by decide))

theorem text_node_toString (n : Int) : text_node (toString n) = .scalar (toString n) :=
  if_neg (toString_not_null n)

/-! ### A parser of lines -/

/-- The lines of a text that ends with a line break. -/
def split_lines : List Char → List (List Char)
  | [] => []
  | c :: cs =>
    if c = '\n' then [] :: split_lines cs
    else
      match split_lines cs with
      | [] => [[c]]
      | line :: lines => (c :: line) :: lines

def parse_line (cs : List Char) : Option Line :=
  let indent := (cs.takeWhile (· = ' ')).length
  match cs.dropWhile (· = ' ') with
  | '-' :: ' ' :: text => some (.item indent (.ofList text))
  | content =>
    let key := String.ofList (content.takeWhile (· ≠ ':'))
    match content.dropWhile (· ≠ ':') with
    | [':'] => some (.header indent key)
    | ':' :: ' ' :: text => some (.pair indent key (.ofList text))
    | _ => none

/-- What the lines that were read from the end stand for. -/
structure Pending where
  items : List Node := []
  top_items : List Node := []
  fields : List (String × Node) := []
  entries : List (String × Node) := []

def read_text (text : String) : Option Node :=
  if readable text then some (text_node text) else none

/-- A header closes what is below it. -/
def add_line (p : Pending) : Line → Option Pending
  | .item 4 text => (read_text text).map fun v => { p with items := v :: p.items }
  | .item 2 text => (read_text text).map fun v => { p with top_items := v :: p.top_items }
  | .pair 2 key text => (read_text text).map fun v => { p with fields := (key, v) :: p.fields }
  | .header 2 key => some { p with items := [], fields := (key, .sequence p.items) :: p.fields }
  | .pair 0 key text => (read_text text).map fun v => { p with entries := (key, v) :: p.entries }
  | .header 0 key =>
    some
      { entries :=
          (key, if p.top_items.isEmpty then .map p.fields else .sequence p.top_items) ::
            p.entries }
  | _ => none

def add_lines : List Line → Option Pending
  | [] => some {}
  | line :: lines => do add_line (← add_lines lines) line

def load_lines (text : String) : Except String Node :=
  match (split_lines text.toList).mapM parse_line with
  | none => .error "illegal line"
  | some lines =>
    match add_lines lines with
    | none => .error "illegal value"
    | some p => .ok (.map p.entries)

def line_as_int (text : String) : Option Int :=
  match Decimal.from_chars 32 text.toList with
  | some (n, []) => some n
  | _ => none

/-! ### The lines are read back -/

theorem split_lines_append {line rest : List Char} (h : '\n' ∉ line) :
    split_lines (line ++ '\n' :: rest) = line :: split_lines rest := by
  induction line with
  | nil => simp [split_lines]
  | cons c line ih =>
    rw [List.mem_cons, not_or] at h
    rw [List.cons_append, split_lines, if_neg (Ne.symm h.1), ih h.2]

theorem not_mem_of_plain_in_line {cs : List Char} {prev : Char}
    (h : plain_in_line prev cs = true) : '\n' ∉ cs := by
  induction cs generalizing prev with
  | nil => exact List.not_mem_nil
  | cons c cs ih =>
    rw [plain_in_line, Bool.and_eq_true] at h
    intro hmem
    obtain heq | hmem := List.mem_cons.mp hmem
    · have hfirst := h.1
      have hns : is_ns_char '\n' = false := by decide
      rw [← heq] at hfirst
      simp [is_white, hns] at hfirst
    · exact ih h.2 hmem

theorem not_mem_of_readable {text : String} (h : readable text = true) : '\n' ∉ text.toList := by
  unfold readable at h
  rw [Bool.or_eq_true, decide_eq_true_eq] at h
  obtain hempty | hplain := h
  · rw [hempty]
    decide
  · unfold plain at hplain
    cases hchars : text.toList with
    | nil => exact List.not_mem_nil
    | cons c cs =>
      rw [hchars, plain_chars, Bool.and_eq_true] at hplain
      intro hmem
      obtain heq | hmem := List.mem_cons.mp hmem
      · have hfirst := hplain.1
        rw [← heq, plain_first] at hfirst
        have hns : is_ns_char '\n' = false := by decide
        simp [hns] at hfirst
      · exact not_mem_of_plain_in_line hplain.2 hmem

theorem word_chars {key : String} (h : is_word key = true) :
    ∃ c cs, key.toList = c :: cs ∧
      ∀ d ∈ key.toList, d ≠ ' ' ∧ d ≠ ':' ∧ d ≠ '-' ∧ d ≠ '\n' := by
  unfold is_word at h
  rw [Bool.and_eq_true, Bool.and_eq_true, decide_eq_true_eq, List.all_eq_true] at h
  obtain ⟨c, cs, hcs⟩ := List.exists_cons_of_ne_nil h.1.1
  refine ⟨c, cs, hcs, ?_⟩
  intro d hd
  have hchar := h.1.2 d hd
  refine ⟨?_, ?_, ?_, ?_⟩
  all_goals
    intro heq
    rw [heq] at hchar
    revert hchar
    decide

/-- The parts of a line that can be told apart. -/
def Line.Distinct : Line → Prop
  | .item _ text => readable text = true
  | .pair _ key text => is_word key = true ∧ readable text = true
  | .header _ key => is_word key = true

theorem toList_spaces (n : Nat) : (spaces n).toList = List.replicate n ' ' :=
  String.toList_ofList

theorem not_mem_content {line : Line} (h : line.Distinct) : '\n' ∉ line.content.toList := by
  have hspaces : ∀ n, '\n' ∉ List.replicate n ' ' := by
    intro n hmem
    exact absurd (List.eq_of_mem_replicate hmem) (by decide)
  have hdash : '\n' ∉ ("- " : String).toList := by decide
  have hcolon : '\n' ∉ (": " : String).toList := by decide
  have hend : '\n' ∉ (":" : String).toList := by decide
  cases line with
  | item indent text =>
    have htext := not_mem_of_readable h
    simp only [Line.content, String.toList_append, toList_spaces, List.mem_append, not_or]
    exact ⟨⟨hspaces indent, hdash⟩, htext⟩
  | pair indent key text =>
    obtain ⟨hkey, htext⟩ := h
    obtain ⟨_, _, _, hchars⟩ := word_chars hkey
    simp only [Line.content, String.toList_append, toList_spaces, List.mem_append, not_or]
    exact ⟨⟨⟨hspaces indent, fun hmem => (hchars _ hmem).2.2.2 rfl⟩, hcolon⟩,
      not_mem_of_readable htext⟩
  | header indent key =>
    obtain ⟨_, _, _, hchars⟩ := word_chars h
    simp only [Line.content, String.toList_append, toList_spaces, List.mem_append, not_or]
    exact ⟨⟨hspaces indent, fun hmem => (hchars _ hmem).2.2.2 rfl⟩, hend⟩

theorem indent_parts (n : Nat) {c : Char} (cs : List Char) (hc : c ≠ ' ') :
    ((List.replicate n ' ' ++ c :: cs).takeWhile (· = ' ')).length = n ∧
      (List.replicate n ' ' ++ c :: cs).dropWhile (· = ' ') = c :: cs := by
  have hall : ∀ a ∈ List.replicate n ' ', decide (a = ' ') = true := by
    intro a ha
    exact decide_eq_true (List.eq_of_mem_replicate ha)
  rw [List.takeWhile_append_of_pos hall, List.dropWhile_append_of_pos hall]
  simp [hc]

theorem key_parts {key : List Char} (rest : List Char) (h : ∀ c ∈ key, c ≠ ':') :
    (key ++ ':' :: rest).takeWhile (· ≠ ':') = key ∧
      (key ++ ':' :: rest).dropWhile (· ≠ ':') = ':' :: rest := by
  have hall : ∀ c ∈ key, decide (c ≠ ':') = true := fun c hc => decide_eq_true (h c hc)
  rw [List.takeWhile_append_of_pos hall, List.dropWhile_append_of_pos hall]
  simp

theorem parse_line_content {line : Line} (h : line.Distinct) :
    parse_line line.content.toList = some line := by
  cases line with
  | item indent text =>
    have hchars : (Line.item indent text).content.toList =
        List.replicate indent ' ' ++ '-' :: ' ' :: text.toList := by
      simp only [Line.content, String.toList_append, toList_spaces, List.append_assoc]
      rfl
    obtain ⟨hindent, hrest⟩ := indent_parts indent (c := '-') (' ' :: text.toList) (by decide)
    unfold parse_line
    dsimp only
    rw [hchars, hindent, hrest]
    show some (Line.item indent (.ofList text.toList)) = _
    rw [String.ofList_toList]
  | pair indent key text =>
    obtain ⟨c, cs, hcs, hkey⟩ := word_chars h.1
    have hc := hkey c (hcs ▸ List.mem_cons_self)
    have hchars : (Line.pair indent key text).content.toList =
        List.replicate indent ' ' ++ c :: (cs ++ ':' :: ' ' :: text.toList) := by
      simp only [Line.content, String.toList_append, toList_spaces, List.append_assoc, hcs]
      rfl
    obtain ⟨hindent, hrest⟩ := indent_parts indent (cs ++ ':' :: ' ' :: text.toList) hc.1
    obtain ⟨hbefore, hafter⟩ := key_parts (' ' :: text.toList) fun d hd => (hkey d hd).2.1
    rw [hcs, List.cons_append] at hbefore hafter
    unfold parse_line
    dsimp only
    rw [hchars, hindent, hrest]
    split
    · next heq =>
      injection heq with hhead _
      exact absurd hhead hc.2.2.1
    · rw [hbefore, hafter, ← hcs]
      show some (Line.pair indent (.ofList key.toList) (.ofList text.toList)) = _
      rw [String.ofList_toList, String.ofList_toList]
  | header indent key =>
    obtain ⟨c, cs, hcs, hkey⟩ := word_chars h
    have hc := hkey c (hcs ▸ List.mem_cons_self)
    have hchars : (Line.header indent key).content.toList =
        List.replicate indent ' ' ++ c :: (cs ++ [':']) := by
      simp only [Line.content, String.toList_append, toList_spaces, List.append_assoc, hcs]
      rfl
    obtain ⟨hindent, hrest⟩ := indent_parts indent (cs ++ [':']) hc.1
    obtain ⟨hbefore, hafter⟩ := key_parts [] fun d hd => (hkey d hd).2.1
    rw [hcs, List.cons_append] at hbefore hafter
    unfold parse_line
    dsimp only
    rw [hchars, hindent, hrest]
    split
    · next heq =>
      injection heq with hhead _
      exact absurd hhead hc.2.2.1
    · rw [hbefore, hafter, ← hcs, String.ofList_toList]
      rfl

theorem parse_text_of_lines {lines : List Line} (h : ∀ line ∈ lines, line.Distinct) :
    (split_lines (text_of_lines lines).toList).mapM parse_line = some lines := by
  induction lines with
  | nil => rfl
  | cons line lines ih =>
    have hline := h line List.mem_cons_self
    have hrest := ih fun l hl => h l (List.mem_cons_of_mem line hl)
    have hchars : (text_of_lines (line :: lines)).toList =
        line.content.toList ++ '\n' :: (text_of_lines lines).toList := by
      rw [text_of_lines, String.toList_append, String.toList_append, List.append_assoc]
      rfl
    rw [hchars, split_lines_append (not_mem_content hline), List.mapM_cons,
      parse_line_content hline, hrest]
    rfl

/-! ### The parser has the laws -/

theorem read_text_of_readable {text : String} (h : readable text = true) :
    read_text text = some (text_node text) := if_pos h

theorem add_items {ts : List String} {lines : List Line} {p : Pending}
    (hp : add_lines lines = some p) (h : ∀ t ∈ ts, readable t = true) :
    add_lines (ts.map (.item 4) ++ lines) =
      some { p with items := ts.map text_node ++ p.items } := by
  induction ts with
  | nil => exact hp
  | cons t ts ih =>
    have hrest := ih fun t' ht' => h t' (List.mem_cons_of_mem t ht')
    have ht := read_text_of_readable (h t List.mem_cons_self)
    rw [List.map_cons, List.cons_append, add_lines, hrest]
    show (read_text t).map _ = _
    rw [ht]
    rfl

theorem add_top_items {ts : List String} {lines : List Line} {p : Pending}
    (hp : add_lines lines = some p) (h : ∀ t ∈ ts, readable t = true) :
    add_lines (ts.map (.item 2) ++ lines) =
      some { p with top_items := ts.map text_node ++ p.top_items } := by
  induction ts with
  | nil => exact hp
  | cons t ts ih =>
    have hrest := ih fun t' ht' => h t' (List.mem_cons_of_mem t ht')
    have ht := read_text_of_readable (h t List.mem_cons_self)
    rw [List.map_cons, List.cons_append, add_lines, hrest]
    show (read_text t).map _ = _
    rw [ht]
    rfl

theorem add_fields {fs : List (String × Leaf)} {lines : List Line} {p : Pending}
    (hp : add_lines lines = some p) (hitems : p.items = [])
    (h : ∀ f ∈ fs, f.2.WellFormed) :
    add_lines ((fs.flatMap fun f => f.2.lines 2 f.1) ++ lines) =
      some { p with fields := (fs.map fun f => (f.1, f.2.node)) ++ p.fields } := by
  induction fs with
  | nil => exact hp
  | cons f fs ih =>
    obtain ⟨key, leaf⟩ := f
    have hrest := ih fun f' hf' => h f' (List.mem_cons_of_mem _ hf')
    have hleaf := h (key, leaf) List.mem_cons_self
    rw [List.flatMap_cons, List.append_assoc]
    cases leaf with
    | text t =>
      show add_lines (.pair 2 key t :: ((fs.flatMap fun f => f.2.lines 2 f.1) ++ lines)) = _
      rw [add_lines, hrest]
      show (read_text t).map _ = _
      rw [read_text_of_readable hleaf]
      rfl
    | items ts =>
      have hts := add_items hrest hleaf.2
      show add_lines (.header 2 key :: (ts.map (.item 4) ++
        ((fs.flatMap fun f => f.2.lines 2 f.1) ++ lines))) = _
      rw [add_lines, hts]
      show some _ = some _
      rw [hitems, List.append_nil]
      rfl

/-- Nothing is left open. -/
def Pending.Closed (p : Pending) : Prop := p.items = [] ∧ p.top_items = [] ∧ p.fields = []

theorem add_entry (key : String) {e : Entry} {lines : List Line} {p : Pending}
    (hp : add_lines lines = some p) (hclosed : p.Closed) (h : e.WellFormed) :
    add_lines (e.lines key ++ lines) =
      some { p with entries := (key, e.node) :: p.entries } := by
  obtain ⟨hitems, htop, hfields⟩ := hclosed
  cases e with
  | leaf l =>
    cases l with
    | text t =>
      show add_lines (.pair 0 key t :: lines) = _
      rw [add_lines, hp]
      show (read_text t).map _ = _
      rw [read_text_of_readable h]
      rfl
    | items ts =>
      have hts := add_top_items hp h.2
      show add_lines (.header 0 key :: (ts.map (.item 2) ++ lines)) = _
      obtain ⟨t, ts', hcons⟩ := List.exists_cons_of_ne_nil h.1
      rw [add_lines, hts, hcons]
      show some _ = some _
      rw [htop, hitems, hfields, List.append_nil]
      rfl
  | fields fs =>
    have hfs := add_fields hp hitems fun f hf => (h.2.2 f hf).2
    show add_lines (.header 0 key :: ((fs.flatMap fun f => f.2.lines 2 f.1) ++ lines)) = _
    rw [add_lines, hfs]
    show some _ = some _
    rw [htop, hitems, hfields, List.append_nil]
    rfl

theorem add_document {doc : Document} (h : ∀ e ∈ doc, e.2.WellFormed) :
    add_lines doc.lines = some { entries := doc.map fun e => (e.1, e.2.node) } := by
  induction doc with
  | nil => rfl
  | cons e doc ih =>
    have hrest := ih fun e' he' => h e' (List.mem_cons_of_mem e he')
    have he := add_entry e.1 hrest ⟨rfl, rfl, rfl⟩ (h e List.mem_cons_self)
    rw [Document.lines, List.flatMap_cons]
    exact he

theorem leaf_lines_distinct {indent : Nat} {key : String} {l : Leaf} (hkey : is_word key = true)
    (h : l.WellFormed) : ∀ line ∈ l.lines indent key, line.Distinct := by
  cases l with
  | text t =>
    intro line hline
    rw [List.mem_singleton.mp hline]
    exact ⟨hkey, h⟩
  | items ts =>
    intro line hline
    obtain heq | hline := List.mem_cons.mp hline
    · rw [heq]
      exact hkey
    · obtain ⟨t, ht, heq⟩ := List.mem_map.mp hline
      rw [← heq]
      exact h.2 t ht

theorem document_lines_distinct {doc : Document} (h : doc.WellFormed) :
    ∀ line ∈ doc.lines, line.Distinct := by
  intro line hline
  obtain ⟨⟨key, e⟩, he, hline⟩ := List.mem_flatMap.mp hline
  obtain ⟨hkey, hentry⟩ := h.2.2 _ he
  cases e with
  | leaf l => exact leaf_lines_distinct hkey hentry line hline
  | fields fs =>
    obtain heq | hline := List.mem_cons.mp hline
    · rw [heq]
      exact hkey
    · obtain ⟨f, hf, hline⟩ := List.mem_flatMap.mp hline
      obtain ⟨hword, hleaf⟩ := hentry.2.2 f hf
      exact leaf_lines_distinct hword hleaf line hline

theorem load_lines_document {doc : Document} (h : doc.WellFormed) :
    load_lines doc.text = .ok doc.node := by
  unfold load_lines Document.text
  rw [parse_text_of_lines (document_lines_distinct h)]
  dsimp only
  rw [add_document fun e he => (h.2.2 e he).2]
  rfl

/-- The scalars on the first level are plain. -/
def ScalarsPlain (entries : List (String × Node)) : Prop :=
  ∀ key text, (key, Node.scalar text) ∈ entries → plain text = true

theorem plain_of_read_text {text content : String} (h : read_text text = some (.scalar content)) :
    plain content = true := by
  unfold read_text readable text_node at h
  split at h
  · next hreadable =>
    split at h
    · cases h
    · next hnull =>
      cases h
      rw [Bool.or_eq_true, decide_eq_true_eq] at hreadable
      apply hreadable.resolve_left
      intro hempty
      rw [hempty] at hnull
      exact hnull (by decide)
  · cases h

theorem add_line_plain {p p' : Pending} {line : Line} (hp : ScalarsPlain p.entries)
    (h : add_line p line = some p') : ScalarsPlain p'.entries := by
  unfold add_line at h
  split at h
  · obtain ⟨v, _, heq⟩ := Option.map_eq_some_iff.mp h
    subst heq
    exact hp
  · obtain ⟨v, _, heq⟩ := Option.map_eq_some_iff.mp h
    subst heq
    exact hp
  · obtain ⟨v, _, heq⟩ := Option.map_eq_some_iff.mp h
    subst heq
    exact hp
  · cases h
    exact hp
  · obtain ⟨v, hv, heq⟩ := Option.map_eq_some_iff.mp h
    subst heq
    intro key text hmem
    obtain heq | hmem := List.mem_cons.mp hmem
    · cases heq
      exact plain_of_read_text hv
    · exact hp key text hmem
  · cases h
    intro key text hmem
    obtain heq | hmem := List.mem_cons.mp hmem
    · -- a header has no scalar
      injection heq with _ hnode
      split at hnode <;> cases hnode
    · exact hp key text hmem
  · cases h

theorem add_lines_plain {lines : List Line} {p : Pending} (h : add_lines lines = some p) :
    ScalarsPlain p.entries := by
  induction lines generalizing p with
  | nil =>
    cases h
    intro key text hmem
    cases hmem
  | cons line lines ih =>
    rw [add_lines] at h
    cases hrest : add_lines lines with
    | none =>
      rw [hrest] at h
      cases h
    | some q =>
      rw [hrest] at h
      exact add_line_plain (ih hrest) h

theorem load_lines_plain {text content : String} {key : String} {root : Node}
    (hload : load_lines text = .ok root) (hfind : root.find? key = some (.scalar content)) :
    plain content = true := by
  unfold load_lines at hload
  split at hload
  · cases hload
  · next lines _ =>
    split at hload
    · cases hload
    · next p hp =>
      cases hload
      -- what is looked up is in the list
      obtain ⟨before, after, heq, _⟩ := List.lookup_eq_some_iff.mp hfind
      apply add_lines_plain hp key content
      rw [heq]
      exact List.mem_append_right _ List.mem_cons_self

theorem from_chars_toString {n x : Int} :
    Decimal.from_chars 32 (toString n).toList = some (x, []) ↔ x = n ∧ Fits 32 n := by
  have hdigits := isNumeral_toDigits n.natAbs
  have hvalue : Decimal.value (Nat.toDigits 10 n.natAbs) = n.natAbs := Nat.ofDigitChars_ten_toDigits
  have hne := Nat.toDigits_ne_nil (n := n.natAbs) (b := 10)
  rw [Decimal.from_chars_whole_iff, toList_toString]
  constructor
  · intro ⟨ds, _, hds, hfits, htext⟩
    have hsign : '-' ∉ ds := by
      intro hmem
      exact absurd (hds '-' hmem) (by decide)
    have hx : x = n := by
      split at htext
      · obtain ⟨heq, _⟩ | ⟨heq, hx⟩ := htext
        · rw [← heq] at hsign
          exact absurd List.mem_cons_self hsign
        · injection heq with _ heq
          rw [← heq, hvalue] at hx
          omega
      · obtain ⟨heq, hx⟩ | ⟨heq, _⟩ := htext
        · rw [← heq, hvalue] at hx
          omega
        · have hmem := hdigits '-' (heq ▸ List.mem_cons_self)
          exact absurd hmem (by decide)
    exact ⟨hx, hx ▸ hfits⟩
  · intro ⟨hx, hfits⟩
    refine ⟨_, hne, hdigits, hx ▸ hfits, ?_⟩
    rw [hvalue, hx]
    split
    · exact .inr ⟨rfl, by omega⟩
    · exact .inl ⟨rfl, by omega⟩

theorem line_as_int_toString (n : Int) :
    line_as_int (toString n) = if Fits 32 n then some n else none := by
  unfold line_as_int
  split
  · next x hx =>
    obtain ⟨heq, hfits⟩ := from_chars_toString.mp hx
    rw [heq, if_pos hfits]
  · next hnone =>
    rw [if_neg]
    intro hfits
    exact hnone n (from_chars_toString.mpr ⟨rfl, hfits⟩)

/-- The laws can be met. -/
def line_yaml : Parser where
  load := load_lines
  as_int := line_as_int
  load_document := fun _ h => load_lines_document h
  load_verbatim := fun _ _ _ _ _ _ hload hfind => load_lines_plain hload hfind
  as_int_decimal := line_as_int_toString

end Yaml
