import MasqueServer.ConnectRequests

/-!
# Error responses of an HTTP/3 connection

A response header block is offered to HTTP/3, which accepts it, has no room for it, or fails. A
blocked error response is kept with its status and offered again when the connection is driven; at
most sixty-four of them are kept.
-/
namespace MasqueServer

/-- The answer of one `send_response` call. -/
inductive ResponseAnswer
  | accepted
  | blocked
  | failed
  deriving DecidableEq

/-- What happened to the requests of a connection: a header block was read; its credential was
found in the cache, or parked for verification; the outcome of a verification arrived; the request
was dispatched; an error status was chosen; a response was offered, as the whole response or as its
beginning. -/
inductive RequestRecord
  | block (streamId : ℕ) (headers : List Header)
  | hit (streamId : ℕ) (header : Option Bytes) (moment : ℕ)
  | parked (streamId : ℕ) (header : Option Bytes) (credential : ℕ)
      (password : Bytes) (moment : ℕ)
  | outcome (streamId : ℕ) (credential : ℕ) (password : Bytes) (authorized : Bool)
  | dispatched (streamId : ℕ)
  | chose (streamId : ℕ) (status : ℕ)
  | offered (streamId : ℕ) (status : ℕ) (whole : Bool) (answer : ResponseAnswer)
  deriving DecidableEq

def maxPendingErrorResponses : ℕ := 64

structure Http3Output where
  pendingErrors : Table ℕ ℕ
  clock : ℕ
  history : List RequestRecord
  /-- The most error responses that were kept at one time. -/
  peak : ℕ

namespace Http3Output

def opened : Http3Output := ⟨∅, 0, [], 0⟩

def tick (o : Http3Output) : Http3Output := { o with clock := o.clock + 1 }

def log (o : Http3Output) (r : RequestRecord) : Http3Output :=
  { o with clock := o.clock + 1, history := o.history ++ [r] }

def keep (o : Http3Output) (streamId status : ℕ) : Http3Output :=
  { o with
    pendingErrors := o.pendingErrors.put streamId status
    peak := max o.peak (o.pendingErrors.put streamId status).size }

variable (answer : ℕ → ResponseAnswer)

variable (o : Http3Output)

def offer (streamId status : ℕ) (whole : Bool) : Http3Output × ResponseAnswer :=
  (o.log (.offered streamId status whole (answer o.clock)), answer o.clock)

def trySend (streamId status : ℕ) : Http3Output × Bool :=
  let (o, answered) := o.offer answer streamId status true
  (o, answered = .blocked)

def retryOne (e : Sigma fun _ : ℕ => ℕ) : Http3Output :=
  match o.trySend answer e.1 e.2 with
  | (o, true) => o
  | (o, false) => { o with pendingErrors := o.pendingErrors.remove e.1 }

def retry : Http3Output := o.pendingErrors.entries.foldl (retryOne answer) o

/-- The first decision about a stream is kept. Kept responses are offered again before a new one
is turned away for lack of room. -/
def send (streamId status : ℕ) : Http3Output :=
  if o.pendingErrors.contains streamId then o
  else
    match (o.log (.chose streamId status)).trySend answer streamId status with
    | (o, false) => o
    | (o, true) =>
      let o := if maxPendingErrorResponses ≤ o.pendingErrors.size then o.retry answer else o
      if maxPendingErrorResponses ≤ o.pendingErrors.size then o
      else o.keep streamId status

def cancel (streamId : ℕ) : Http3Output :=
  { o with pendingErrors := o.pendingErrors.remove streamId }

def expire (expired : ℕ → Bool) : Http3Output :=
  { o with pendingErrors := o.pendingErrors.retain fun id _ => !expired id }

def clear : Http3Output := { o with pendingErrors := ∅ }

end Http3Output

end MasqueServer
