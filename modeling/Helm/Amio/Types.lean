import Mathlib

/-! # AMIO types

  The tags and descriptors of `amio_types.h` that both the read path and the
  write path use, and the element sizes of `backend_driver.hpp`.
-/

namespace Amio

/-- `AMIO_MAX_RANK` -/
abbrev kMaxRank : Nat := 7

instance kMaxRank_ne_zero : NeZero kMaxRank := ⟨by decide⟩

instance dim_lawful : LawfulBEq (Fin kMaxRank) := inferInstance

/-- `amio_dtype_t`; the integer tag of an unknown type is kept. -/
inductive Dtype
  | F32 | F64 | I8 | I16 | I32 | I64 | U8 | U16 | U32 | U64
  | unknown (tag : Int)
  deriving DecidableEq

/-- `element_size` -/
def element_size : Dtype → Nat
  | .F32 => 4
  | .F64 => 8
  | .I8 => 1
  | .I16 => 2
  | .I32 => 4
  | .I64 => 8
  | .U8 => 1
  | .U16 => 2
  | .U32 => 4
  | .U64 => 8
  | .unknown _ => 0

/-- `amio_shape_t`. A stride of zero asks for the row-major default. -/
structure AmioShape where
  rank : Int
  extents : Fin kMaxRank → Int
  strides : Fin kMaxRank → Int
  deriving DecidableEq

end Amio
