import Mathlib.Data.Nat.Notation

/-!
# What the API client comes back with

The client throws for a failure of the network, and returns the error of a response that is not a
success. `toApiError` gives a thrown value the shape that the page shows.
-/

namespace OpenGps.Frontend

structure ApiError where
  status : ℕ
  message : String
  deriving DecidableEq

/-- `toApiError` of an `Error`. -/
def toApiError (message : String) : ApiError := ⟨0, message⟩

inductive Reply (α : Type) where
  | thrown
  | returned (data : Option α) (error : Option ApiError)
  deriving DecidableEq

/-- What `runLocationRequest` makes of a response: a body that is an envelope has a status of its
own, and data with status 200. A thrown value has its shape already. -/
inductive EnvelopeReply (α : Type) where
  | thrown (error : ApiError)
  | notEnvelope
  | status (code : ℕ) (message : String)
  | ok (data : α)
  deriving DecidableEq

end OpenGps.Frontend
