import MasqueServer.BasicCredentials
import MasqueServer.WatchChannel

/-!
# Coalesced password verification

Requests with the same password for the same credential share one Argon2 computation: the first
becomes the leader of a flight, the others follow it. A credential remembers the digest of the
password verified last.
-/
namespace MasqueServer

inductive FlightResult
  | pending
  | complete (authorized : Bool)
  | abandoned
  deriving DecidableEq

/-- What the lock of a credential guards: the last success with its expiry, and the registered
flights by digest. -/
structure VerificationState (Digest : Type) where
  success : Option (Digest × ℕ) := none
  inFlight : Table Digest ℕ := ∅

structure PasswordLeader (Digest : Type) where
  credential : ℕ
  digest : Digest
  flight : ℕ
  completed : Bool

inductive PasswordVerification (Digest : Type)
  | cached
  | leader (leader : PasswordLeader Digest)
  | follower (flight : ℕ)

inductive AuthPrecheck
  | authenticated
  | rejected
  | needsVerify (credential : ℕ) (password : Bytes)

/-- How far a leader is. It belongs to its request until it has a permit, then to a blocking
task, which ends with what the request gets to see. -/
inductive LeaderStage
  | waitingPermit
  | queued
  | hashing
  | storing (expires : ℕ)
  | answering (authorized : Bool)
  | closing (authorized : Bool)
  | ended (result : Option Bool)
  deriving DecidableEq

structure LeaderTask (Digest : Type) where
  leader : PasswordLeader Digest
  password : Bytes
  stage : LeaderStage

def LeaderStage.isLive : LeaderStage → Bool
  | .ended _ => false
  | _ => true

/-- Where a request is: at the head of its loop, waiting as a follower (with the version it
sleeps on), waiting for its own leader, answered, or dropped. -/
inductive AuthPhase
  | resuming (credential : ℕ) (password : Bytes)
  | following (credential : ℕ) (password : Bytes) (flight : ℕ) (asleep : Option ℕ)
  | leading
  | reported (result : Option Bool)
  | dropped

/-- A request with its header value and the credential set its precheck read. -/
structure AuthRequest where
  header : Option Bytes
  snapshot : BasicAuthenticator
  cancelled : Bool
  phase : AuthPhase

def AuthPrecheck.phase : AuthPrecheck → AuthPhase
  | .authenticated => .reported (some true)
  | .rejected => .reported (some false)
  | .needsVerify credential password => .resuming credential password

def AuthRequest.finish (r : AuthRequest) (phase : AuthPhase) : AuthRequest :=
  { r with cancelled := true, phase }

def successCacheTtl : ℕ := 300 * 10 ^ 9

def maxInFlightPasswords : ℕ := 256

def VerificationState.register {Digest : Type} [DecidableEq Digest]
    (state : VerificationState Digest) (digest : Digest) (flight : ℕ) : VerificationState Digest :=
  if state.inFlight.size < maxInFlightPasswords then
    { state with inFlight := state.inFlight.put digest flight }
  else state

structure Authentication (Key Digest : Type) where
  current : BasicAuthenticator
  credentials : List (BasicCredential Key)
  verification : Table ℕ (VerificationState Digest)
  flights : List (Watch FlightResult)
  requests : Table ℕ AuthRequest
  leaders : Table ℕ (LeaderTask Digest)
  now : ℕ

inductive AuthEvent (Key : Type)
  | tick (elapsed : ℕ)
  | replace (keys : ℕ → Option Key) (auth : AuthSection)
  | arrive (request : ℕ) (header : Option Bytes)
  | resume (request : ℕ)
  | poll (request : ℕ)
  | permit (request : ℕ)
  | refuse (request : ℕ)
  | work (request : ℕ)
  | crash (request : ℕ)
  | join (request : ℕ)
  | cancel (request : ℕ)
  | drop (request : ℕ)

namespace Authentication

variable {Key Digest : Type} [DecidableEq Digest] (p : BasicPrimitives Key Digest)

def new (keys : ℕ → Option Key) (auth : AuthSection) :
    Except BasicError (Authentication Key Digest) := do
  let (current, credentials) ← fromSection p keys [] auth
  return ⟨current, credentials, ∅, [], ∅, ∅, 0⟩

variable (s : Authentication Key Digest)

def verificationOf (credential : ℕ) : VerificationState Digest :=
  (s.verification.get credential).getD {}

def setVerification (credential : ℕ) (state : VerificationState Digest) :
    Authentication Key Digest :=
  { s with verification := s.verification.put credential state }

variable (id : ℕ)

def setRequest (r : AuthRequest) :
    Authentication Key Digest := { s with requests := s.requests.put id r }

variable (task : LeaderTask Digest)

def setLeader : Authentication Key Digest := { s with leaders := s.leaders.put id task }

def openFlight : Authentication Key Digest :=
  { s with flights := s.flights ++ [.new .pending] }

def send (flight : ℕ) (result : FlightResult) : Authentication Key Digest :=
  { s with flights := s.flights.modify flight (·.sendReplace result) }

def isHeld (flight : ℕ) : Bool :=
  (s.requests.entries.any fun e =>
    match e.2.phase with
    | .following _ _ f _ => f = flight
    | _ => false) ||
  s.leaders.entries.any fun e => e.2.stage.isLive && e.2.leader.flight = flight

def cached (credential : ℕ) (password : Bytes) : Bool :=
  match s.credentials[credential]?, (s.verificationOf credential).success with
  | some c, some (tag, expires) => s.now < expires && p.hmac c.cacheKey password = tag
  | _, _ => false

def precheck (header : Option Bytes) : AuthPrecheck :=
  match header.bind (parseBasic p.decodeBase64) with
  | none => .rejected
  | some (username, password) =>
    match s.current.get username with
    | none => .rejected
    | some credential =>
      if s.cached p credential password then .authenticated else .needsVerify credential password

def pruned (credential : ℕ) : VerificationState Digest :=
  let state := s.verificationOf credential
  { state with inFlight := state.inFlight.retain fun _ flight => s.isHeld flight }

def beginVerification (credential : ℕ) (c : BasicCredential Key) (password : Bytes) :
    Authentication Key Digest × PasswordVerification Digest :=
  let digest := p.hmac c.cacheKey password
  if s.cached p credential password then (s, .cached)
  else
    let state := s.pruned credential
    match (state.inFlight.get digest).filter s.isHeld with
    | some flight => (s.setVerification credential state, .follower flight)
    | none =>
      let flight := s.flights.length
      ((s.setVerification credential (state.register digest flight)).openFlight,
        .leader ⟨credential, digest, flight, false⟩)

/-- Dropping a leader takes back its own registration only, and wakes its followers if it has
no answer for them. -/
def dropLeader (leader : PasswordLeader Digest) : Authentication Key Digest :=
  let state := s.verificationOf leader.credential
  let s :=
    if state.inFlight.get leader.digest = some leader.flight then
      s.setVerification leader.credential
        { state with inFlight := state.inFlight.remove leader.digest }
    else s
  if leader.completed then s else s.send leader.flight .abandoned

def endTask (result : Option Bool) : Authentication Key Digest :=
  (s.dropLeader task.leader).setLeader id { task with stage := .ended result }

/-! ### The steps of a request -/

def resume (r : AuthRequest) : Option (Authentication Key Digest) :=
  match r.phase with
  | .resuming credential password =>
    if r.cancelled then some (s.setRequest id (r.finish (.reported none)))
    else (s.credentials[credential]?).map fun c =>
      match s.beginVerification p credential c password with
      | (s, .cached) => s.setRequest id (r.finish (.reported (some true)))
      | (s, .follower flight) =>
        s.setRequest id { r with phase := .following credential password flight none }
      | (s, .leader leader) =>
        (s.setLeader id ⟨leader, password, .waitingPermit⟩).setRequest id
          { r with phase := .leading }
  | _ => none

/-- A follower that is awake reads the result of its flight; one that sleeps wakes up once the
result has been replaced. The channel cannot close, since the follower keeps its flight. -/
def poll (r : AuthRequest) : Option (Authentication Key Digest) :=
  match r.phase with
  | .following credential password flight asleep =>
    (s.flights[flight]?).bind fun watch =>
      match asleep with
      | some seen =>
        if watch.changed seen then
          some (s.setRequest id { r with phase := .following credential password flight none })
        else none
      | none =>
        some (s.setRequest id (match watch.value with
          | .complete authorized => r.finish (.reported (some authorized))
          | .abandoned => { r with phase := .resuming credential password }
          | .pending =>
            { r with phase := .following credential password flight (some watch.version) }))
  | _ => none

def waitingTask (r : AuthRequest) : Option (LeaderTask Digest) :=
  match r.phase with
  | .leading => (s.leaders.get id).filter fun task => task.stage = .waitingPermit
  | _ => none

def permit (r : AuthRequest) : Option (Authentication Key Digest) :=
  (s.waitingTask id r).map fun task => s.setLeader id { task with stage := .queued }

def refuse (r : AuthRequest) : Option (Authentication Key Digest) :=
  (s.waitingTask id r).map fun task =>
    (s.endTask id task none).setRequest id (r.finish (.reported none))

def join (r : AuthRequest) : Option (Authentication Key Digest) :=
  match r.phase, s.leaders.get id with
  | .leading, some ⟨_, _, .ended result⟩ => some (s.setRequest id (r.finish (.reported result)))
  | _, _ => none

def dropRequest (r : AuthRequest) : Option (Authentication Key Digest) :=
  match r.phase with
  | .reported _ | .dropped => none
  | _ =>
    let s := (s.waitingTask id r).elim s fun task => s.endTask id task none
    some (s.setRequest id (r.finish .dropped))

/-! ### The steps of a blocking task -/

/-- The task hashes the password unless its request was cancelled, remembers a success, sends
the answer to the followers, and drops its leader. -/
def work : Option (Authentication Key Digest) :=
  match task.stage with
  | .queued =>
    if (s.requests.get id).any (·.cancelled) then some (s.endTask id task none)
    else some (s.setLeader id { task with stage := .hashing })
  | .hashing =>
    (s.credentials[task.leader.credential]?).map fun c =>
      s.setLeader id { task with
        stage := if p.verify c task.password then .storing (s.now + successCacheTtl)
          else .answering false }
  | .storing expires =>
    (s.credentials[task.leader.credential]?).map fun c =>
      (s.setVerification task.leader.credential { s.verificationOf task.leader.credential with
        success := some (p.hmac c.cacheKey task.password, expires) }).setLeader id
          { task with stage := .answering true }
  | .answering authorized =>
    some ((s.send task.leader.flight (.complete authorized)).setLeader id { task with
      leader := { task.leader with completed := true }
      stage := .closing authorized })
  | .closing authorized => some (s.endTask id task (some authorized))
  | .waitingPermit | .ended _ => none

def crash : Option (Authentication Key Digest) :=
  match task.stage with
  | .waitingPermit | .ended _ => none
  | _ => some (s.endTask id task (some false))

def step : AuthEvent Key → Option (Authentication Key Digest)
  | .tick elapsed => some { s with now := s.now + elapsed }
  | .replace keys auth =>
    match fromSection p keys s.credentials auth with
    | .ok (current, credentials) => some { s with current, credentials }
    | .error _ => none
  | .arrive id header =>
    if s.requests.contains id then none
    else some (s.setRequest id ⟨header, s.current, false, (s.precheck p header).phase⟩)
  | .resume id => (s.requests.get id).bind (s.resume p id)
  | .poll id => (s.requests.get id).bind (s.poll id)
  | .permit id => (s.requests.get id).bind (s.permit id)
  | .refuse id => (s.requests.get id).bind (s.refuse id)
  | .work id => (s.leaders.get id).bind (s.work p id)
  | .crash id => (s.leaders.get id).bind (s.crash id)
  | .join id => (s.requests.get id).bind (s.join id)
  | .cancel id => (s.requests.get id).map fun r => s.setRequest id { r with cancelled := true }
  | .drop id => (s.requests.get id).bind (s.dropRequest id)

end Authentication

end MasqueServer
