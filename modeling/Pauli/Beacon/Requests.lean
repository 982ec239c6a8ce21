import Pauli.Backoff
import Pauli.Configuration

/-!
The Beacon API client's requests. `doRequest`, which every GET goes through, waits for the rate
limiter before each attempt, retries after a transport error, a `429` or a `503` once it has
waited on the one `Backoff` it creates for the call, and gives up after `maxRetries + 1` attempts;
`doRequestWithBody`, which every POST goes through, makes one attempt.

What a call meets is an input (`Env`): whether `http.NewRequestWithContext` builds the request,
the outcome of each attempt, whether each wait ends by the context, and the draw of each backoff
delay. A call returns what it did, in order, and its error.
-/

namespace Pauli.Beacon.Requests

open Pauli.Configuration

structure Client where
  maxRetries : Int
  burst : Int
  deriving DecidableEq, Repr

/-- `NewClient`: the retries are the store's `max_retries`. -/
def newClient (cfg : Config) : Client :=
  ⟨cfg.scyllaDB.maxRetries, cfg.rateLimit.burst⟩

/-- What one HTTP attempt returns: a transport error, or a status with the body's text and the
error, if any, of decoding the body into the result. -/
inductive Outcome
  | transportError (err : String)
  | response (status : Int) (body : String) (decodeErr : Option String)
  deriving DecidableEq, Repr

lemma newClient_of_load {c cfg : Config} (h : load c = .ok cfg) :
    1 ≤ (newClient cfg).maxRetries ∧ 1 ≤ (newClient cfg).burst :=
  ⟨(load_admitted h).maxRetries, (load_admitted h).burst⟩

/-! ### What a call is asked to do -/

def Outcome.retryable : Outcome → Bool
  | .transportError _ => true
  | .response status _ _ => decide (status = 429 ∨ status = 503)

section Loop

variable {c : Client} {env : Env}

end Loop

/-! ### Retries of a GET, and the one attempt of a POST -/

end Pauli.Beacon.Requests
