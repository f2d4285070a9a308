import Helm.Framework.Yaml

/-! # CONF: typed access to a document

  `conf::Config` owns a parsed YAML document and gives values by their
  dotted path. The YAML library is a parameter. A dotted path is the list
  of its segments here.
-/

namespace Conf

open Yaml

inductive Error_Code where
  | Success
  | Invalid_Arg
  | File_Not_Found
  | Parse_Error
  | Key_Not_Found
  | Type_Mismatch
  | Bad_Handle
  | Buffer_Too_Small
  | Unknown
  deriving DecidableEq

structure Conf_Error where
  code : Error_Code
  what : String
  deriving DecidableEq

/-! ## Section 1: Paths -/

def dotted (path : List String) : String := ".".intercalate path

def key_not_found (path : List String) : Conf_Error :=
  { code := .Key_Not_Found, what := "key not found: " ++ dotted path }

/-- One segment of a path: a key of a mapping, or an index of a sequence. -/
def descend (path : List String) (current : Node) (seg : String) : Except Conf_Error Node :=
  match current with
  | .map entries =>
    match entries.lookup seg with
    | some child => .ok child
    | none => .error (key_not_found path)
  | .sequence items =>
    -- `from_chars` fails on an index beyond `size_t`
    if seg.toList.all Char.isDigit ∧ Decimal.value seg.toList < 2 ^ 64 then
      match items[Decimal.value seg.toList]? with
      | some child => .ok child
      | none => .error (key_not_found path)
    else .error (key_not_found path)
  | _ => .error (key_not_found path)

def resolve (root : Node) (path : List String) : Except Conf_Error Node :=
  if path = [] then .error { code := .Invalid_Arg, what := "empty path" }
  else if "" ∈ path then .error { code := .Invalid_Arg, what := "empty path segment" }
  else path.foldlM (descend path) root

def has (root : Node) (path : List String) : Bool :=
  match resolve root path with
  | .ok _ => true
  | .error _ => false

/-! ## Section 2: Values -/

def type_mismatch (what : String) : Conf_Error := { code := .Type_Mismatch, what }

variable (yaml : Parser)

/-- `convert<int>` -/
def convert_int : Node → Except Conf_Error Int32
  | .scalar text =>
    match yaml.as_int text with
    | some n => .ok (.ofInt n)
    | none => .error (type_mismatch "cannot convert scalar to int")
  | _ => .error (type_mismatch "node is not a scalar")

/-- `convert<std::string>` -/
def convert_string : Node → Except Conf_Error String
  | .scalar text => .ok text
  | _ => .error (type_mismatch "node is not a scalar")

/-- A list accessor, which converts every item. -/
def convert_list {α : Type} (convert : Node → Except Conf_Error α) :
    Node → Except Conf_Error (List α)
  | .sequence items => items.mapM convert
  | _ => .error (type_mismatch "node is not a sequence")

def get_int (root : Node) (path : List String) : Except Conf_Error Int32 :=
  resolve root path >>= convert_int yaml

def get_string (root : Node) (path : List String) : Except Conf_Error String :=
  resolve root path >>= convert_string

def get_int_list (root : Node) (path : List String) : Except Conf_Error (List Int32) :=
  resolve root path >>= convert_list (convert_int yaml)

def get_string_list (root : Node) (path : List String) : Except Conf_Error (List String) :=
  resolve root path >>= convert_list convert_string

/-- `Config::from_string` -/
def from_string (text : String) : Except Conf_Error Node :=
  match yaml.load text with
  | .ok root => .ok root
  | .error what => .error { code := .Parse_Error, what }

/-! ## Section 3: What a path leads to -/

variable {root child : Node} {a b : String}

theorem resolve_one (ha : a ≠ "") (entries : List (String × Node)) :
    resolve (.map entries) [a] =
      match entries.lookup a with
      | some child => .ok child
      | none => .error (key_not_found [a]) := by
  unfold resolve
  rw [if_neg (List.cons_ne_nil _ _), if_neg (by simp [ha.symm]), List.foldlM_cons]
  show (match entries.lookup a with
    | some child => Except.ok child
    | none => Except.error (key_not_found [a])) >>= (fun s => pure s) = _
  rw [bind_pure]

theorem find_of_resolve (ha : a ≠ "") (hdigits : a.toList.all Char.isDigit = false)
    (h : resolve root [a] = .ok child) : root.find? a = some child := by
  unfold resolve at h
  rw [if_neg (List.cons_ne_nil _ _), if_neg (by simp [ha.symm]), List.foldlM_cons] at h
  cases root with
  | map entries =>
    show entries.lookup a = some child
    unfold descend at h
    dsimp only at h
    cases hlookup : entries.lookup a with
    | none =>
      rw [hlookup] at h
      cases h
    | some v =>
      rw [hlookup] at h
      cases h
      rfl
  | sequence items =>
    unfold descend at h
    dsimp only at h
    rw [hdigits, if_neg (by simp)] at h
    cases h
  | null => cases h
  | scalar text => cases h

theorem resolve_two (ha : a ≠ "") (hb : b ≠ "") {entries fields : List (String × Node)}
    (h : entries.lookup a = some (.map fields)) :
    resolve (.map entries) [a, b] =
      match fields.lookup b with
      | some child => .ok child
      | none => .error (key_not_found [a, b]) := by
  unfold resolve
  have hfirst : descend [a, b] (.map entries) a = .ok (.map fields) := by
    unfold descend
    dsimp only
    rw [h]
  rw [if_neg (List.cons_ne_nil _ _), if_neg (by simp [ha.symm, hb.symm]), List.foldlM_cons, hfirst]
  show (match fields.lookup b with
    | some child => Except.ok child
    | none => Except.error (key_not_found [a, b])) >>= (fun s => pure s) = _
  rw [bind_pure]

end Conf
