import Mathlib

/-! # AMIO status codes

  The error enumeration of `amio_errors.h`. A call of the C API returns one
  of these; a fallible operation of the model returns
  `Except AmioStatus`, where `AMIO_OK` is the `ok` case.
-/

namespace Amio

/-- The `AMIO_ERR_*` codes of `amio_status_t`. -/
inductive AmioStatus
  | ERR_NULL_HANDLE
  | ERR_INVALID_HANDLE
  | ERR_MANIFEST_NOT_FOUND
  | ERR_MANIFEST_INVALID
  | ERR_ALREADY_INITIALIZED
  | ERR_FINALIZE_TIMEOUT
  | ERR_STAGING_BACKPRESSURE
  | ERR_INVALID_BINDING
  | ERR_COMM_SPLIT_FAILED
  | ERR_THREADING_UNSUPPORTED
  | ERR_UNKNOWN_BACKEND
  | ERR_LOSSY_CODEC_FORBIDDEN
  | ERR_VIEWS_OUTSTANDING
  | ERR_QUEUE_FULL
  | ERR_TIMEOUT
  | ERR_BACKEND_FAILURE
  | ERR_INVALID_INPUT
  deriving DecidableEq

end Amio
