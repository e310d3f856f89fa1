/-
# Answers of others

What comes of asking someone else, and why a generator gives no answer. Only a request that was
refused is not worth repeating.
-/

import Rolewright.Duration

namespace Rolewright

/-- What comes of asking someone else. -/
inductive Answer (α ε : Type) where
  | given (answer : α)
  | failed (error : ε)
  /-- Whoever asked died of it. -/
  | fatal (message : String)
deriving DecidableEq, Repr

/-- The answer that a result stands for. -/
def Answer.ofExcept {α ε : Type} : Except ε α → Answer α ε
  | .ok answer => .given answer
  | .error error => .failed error

/-- Why a generator gave no answer. -/
inductive GenerationError where
  | transport (message : String)
  | timedOut (limit : Duration)
  /-- There were too many requests; the other side may say how long to wait. -/
  | rateLimited (wait : Option Duration)
  | rejected (status : Nat)
deriving DecidableEq, Repr

namespace GenerationError

/-- The wording of such a cause. -/
def message : GenerationError → String
  | .transport message => "transport error: " ++ message
  | .timedOut limit => "timed out after " ++ limit.text
  | .rateLimited _ => "rate limited"
  | .rejected status => "request rejected (HTTP " ++ toString status ++ ")"

/-- Whether the same request may succeed another time. -/
def isRetryable : GenerationError → Bool
  | .rejected _ => false
  | .transport _ | .timedOut _ | .rateLimited _ => true

/-- How long the other side asks to wait. -/
def wait? : GenerationError → Option Duration
  | .rateLimited wait => wait
  | .transport _ | .timedOut _ | .rejected _ => none

end GenerationError

end Rolewright
