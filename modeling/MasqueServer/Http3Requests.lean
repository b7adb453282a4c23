import MasqueServer.ErrorResponses
import MasqueServer.PasswordVerification
import MasqueServer.Runs

/-!
# The requests of an HTTP/3 connection

One poll reads all HTTP/3 events that are ready. A request's first header block is answered with an
error, parked until its credential is verified, or dispatched: its stream then has a pending tunnel,
and the setups of the whole poll are applied behind the events against the tunnel limit.
-/
namespace MasqueServer

open Bool Option

def maxQuicStreamsBidi : ℕ := 4096

def maxPendingAuthPerConnection : ℕ := 16

/-- A prechecked request whose password still has to be verified. -/
structure PendingAuth where
  streamId : ℕ
  credential : ℕ
  password : Bytes
  request : ConnectRequest

/-- Tunnel work created while the headers are processed, by stream. -/
structure PendingConnectSetups where
  tcp : List ℕ
  udp : List ℕ
  ip : List ℕ

def PendingConnectSetups.none : PendingConnectSetups := ⟨[], [], []⟩

/-- `connected` is set while the target's socket waits for its response to be accepted. -/
structure PendingTcpTunnel where
  connected : Bool
  clientFinished : Bool

def PendingTcpTunnel.staging : PendingTcpTunnel := ⟨false, false⟩

/-- What a connection meets: the state of the credential machinery, what HTTP/3 answers to a
response, which streams QUIC has closed, whether the first authentication is overdue, whether a
verification slot is free, whether addresses can be leased and whether the first capsules fit. -/
structure Http3Environment (Key Digest : Type) where
  primitives : BasicPrimitives Key Digest
  auth : ℕ → Authentication Key Digest
  answer : ℕ → ResponseAnswer
  streamClosed : ℕ → ℕ → Bool
  deadlinePassed : ℕ → Bool
  slotFree : ℕ → Bool
  leased : ℕ → Bool
  queued : ℕ → Bool

structure Http3Connection where
  out : Http3Output
  requestHeadersSeen : Table ℕ Unit
  awaitingAuth : Table ℕ Bool
  pendingTcpTunnels : Table ℕ PendingTcpTunnel
  tcpTunnels : Table ℕ Unit
  pendingUdpTunnels : Table ℕ Bool
  udpTunnels : Table ℕ Unit
  ipTunnels : Table ℕ Unit
  pendingIpResponses : Table ℕ Unit
  firstAuthDeadline : Bool
  localError : Bool
  /-- Verifications that have not reported yet. -/
  tasks : Table ℕ PendingAuth
  /-- Streams on which QUIC reports no further header block. -/
  silent : List ℕ

/-- What one poll has collected so far. -/
structure PollWork where
  client : Http3Connection
  setups : PendingConnectSetups
  failedTcp : List ℕ
  closedIp : List ℕ
  auth : List PendingAuth

inductive Http3Event
  | headers (streamId : ℕ) (headers : List Header)
  | data (streamId : ℕ) (relayFails : Bool)
  | finished (streamId : ℕ) (capsule : Bool)
  | reset (streamId : ℕ)

namespace Http3Connection

def opened (basicAuth : Bool) : Http3Connection :=
  ⟨.opened, ∅, ∅, ∅, ∅, ∅, ∅, ∅, ∅, basicAuth, false, ∅, []⟩

variable (c : Http3Connection)

def tunnels : ℕ :=
  c.pendingTcpTunnels.size + c.tcpTunnels.size + c.pendingUdpTunnels.size + c.udpTunnels.size +
    c.ipTunnels.size + c.pendingIpResponses.size

def tunnelCount : ℕ := c.tunnels + c.out.pendingErrors.size

def tick (c : Http3Connection) : Http3Connection := { c with out := c.out.tick }

def log (c : Http3Connection) (r : RequestRecord) : Http3Connection := { c with out := c.out.log r }

variable (streamId : ℕ)

def resetTcpStream : Http3Connection :=
  { c with
    pendingTcpTunnels := c.pendingTcpTunnels.remove streamId
    tcpTunnels := c.tcpTunnels.remove streamId }

def teardownIpTunnel : Http3Connection :=
  { c with ipTunnels := c.ipTunnels.remove streamId }

def dropStream : Http3Connection :=
  { c.resetTcpStream streamId with
    out := c.out.cancel streamId
    awaitingAuth := c.awaitingAuth.remove streamId
    pendingUdpTunnels := c.pendingUdpTunnels.remove streamId
    udpTunnels := c.udpTunnels.remove streamId
    pendingIpResponses := c.pendingIpResponses.remove streamId }

def retireStream : Http3Connection :=
  { c with
    requestHeadersSeen := c.requestHeadersSeen.remove streamId
    silent := c.silent ++ [streamId] }

def finishPendingTcp : Http3Connection :=
  { c with
    pendingTcpTunnels := c.pendingTcpTunnels.modify streamId fun pending =>
      { pending with clientFinished := true } }

def enter (before after : PendingConnectSetups) (streamId : ℕ) : Http3Connection :=
  { c with
    pendingTcpTunnels :=
      if before.tcp.length < after.tcp.length then c.pendingTcpTunnels.put streamId .staging
      else c.pendingTcpTunnels
    pendingUdpTunnels :=
      if before.udp.length < after.udp.length then c.pendingUdpTunnels.put streamId false
      else c.pendingUdpTunnels }

variable {Key Digest : Type} [DecidableEq Digest] (env : Http3Environment Key Digest)
  (config : RequestConfig)

variable (c : Http3Connection)

def sendErrorResponse (streamId status : ℕ) : Http3Connection :=
  { c with out := c.out.send env.answer streamId status }

def sendAuthRejection (streamId : ℕ) : Http3Connection :=
  c.sendErrorResponse env streamId 404

def expireFirstAuth : Http3Connection × Bool :=
  if c.firstAuthDeadline && env.deadlinePassed c.out.clock then
    ({ c.tick with firstAuthDeadline := false, awaitingAuth := ∅, localError := true }, true)
  else (c.tick, false)

variable (setups : PendingConnectSetups)

variable (streamId : ℕ)

def dispatchConnect (request : ConnectRequest) : Http3Connection × PendingConnectSetups :=
  let c := c.log (.dispatched streamId)
  match request.dispatch config streamId with
  | .tcp => (c, { setups with tcp := setups.tcp ++ [streamId] })
  | .udp => (c, { setups with udp := setups.udp ++ [streamId] })
  | .ip => (c, { setups with ip := setups.ip ++ [streamId] })
  | .error status => (c.sendErrorResponse env streamId status, setups)

/-- The cheap half of the authentication runs here. A cache hit behind the deadline is dropped
without an answer; the poll that follows closes the connection. -/
def authenticate (fields : RequestFields) (request : ConnectRequest) :
    Http3Connection × PendingConnectSetups × Option PendingAuth :=
  if fields.duplicateProxyAuthorization then (c.sendAuthRejection env streamId, setups, none)
  else
    let header := fields.proxyAuthorization
    match (env.auth c.out.clock).precheck env.primitives header with
    | .authenticated =>
      if c.firstAuthDeadline && env.deadlinePassed c.out.clock then (c.tick, setups, none)
      else
        let c := { c.log (.hit streamId header c.out.clock) with firstAuthDeadline := false }
        let (c, setups) := c.dispatchConnect env config setups streamId request
        (c, setups, none)
    | .rejected => (c.sendAuthRejection env streamId, setups, none)
    | .needsVerify credential password =>
      (c.log (.parked streamId header credential password c.out.clock), setups,
        some ⟨streamId, credential, password, request⟩)

def handleRequest (headers : List Header) :
    Http3Connection × PendingConnectSetups × Option PendingAuth :=
  let fields := RequestFields.ofHeaders headers
  match classifyConnectRequest fields config with
  | some request =>
    if config.basicAuth then c.authenticate env config setups streamId fields request
    else
      let (c, setups) := c.dispatchConnect env config setups streamId request
      (c, setups, none)
  | none => (c.sendErrorResponse env streamId 404, setups, none)

/-- Lease addresses and accept the request. A lease is not kept while the response is blocked. -/
def setupIpTunnel : Http3Connection :=
  if env.leased c.out.clock then
    match c.out.tick.offer env.answer streamId 200 false with
    | (out, .accepted) =>
      let c := { c with
        out := out.tick
        pendingIpResponses := c.pendingIpResponses.remove streamId
        ipTunnels := c.ipTunnels.put streamId () }
      if env.queued out.clock then c else c.teardownIpTunnel streamId
    | (out, .blocked) =>
      { c with out := out, pendingIpResponses := c.pendingIpResponses.put streamId () }
    | (out, .failed) => { c with out := out }
  else c.tick.sendErrorResponse env streamId 503

def applyTcpSetup : Http3Connection :=
  if !c.pendingTcpTunnels.contains streamId then c
  else if config.maxTunnels < c.tunnelCount then
    { c.sendErrorResponse env streamId 503 with
      pendingTcpTunnels := c.pendingTcpTunnels.remove streamId }
  else c

def applyUdpSetup : Http3Connection :=
  if !c.pendingUdpTunnels.contains streamId then c
  else if config.maxTunnels < c.tunnelCount then
    { c.sendErrorResponse env streamId 503 with
      pendingUdpTunnels := c.pendingUdpTunnels.remove streamId }
  else c

def applyIpSetup : Http3Connection :=
  if config.maxTunnels ≤ c.tunnelCount then c.sendErrorResponse env streamId 503
  else c.setupIpTunnel env streamId

def applyConnectSetups : Http3Connection :=
  let c := setups.tcp.foldl (applyTcpSetup env config) c
  let c := setups.udp.foldl (applyUdpSetup env config) c
  setups.ip.foldl (applyIpSetup env config) c

variable (pending : PendingAuth)

/-- A request that was dropped later in the same poll is not verified; one without a free slot
is rejected. -/
def spawnAuthVerification : Http3Connection :=
  if !c.awaitingAuth.contains pending.streamId then c
  else if env.slotFree c.out.clock then
    { c.tick with tasks := c.tasks.put pending.streamId pending }
  else
    { c.tick.sendAuthRejection env pending.streamId with
      awaitingAuth := c.awaitingAuth.remove pending.streamId }

def resumeRequest (clientFinished relayFails : Bool) : Http3Connection :=
  let streamId := pending.streamId
  let c := { c with firstAuthDeadline := false }
  let (c, setups) := c.dispatchConnect env config .none streamId pending.request
  let c := c.enter .none setups streamId
  if !setups.tcp.isEmpty && relayFails then c.resetTcpStream streamId
  else
    let c := if !setups.tcp.isEmpty && clientFinished then c.finishPendingTcp streamId else c
    c.applyConnectSetups env config setups

/-- The outcome is recorded as it arrives, before anything is made of it. -/
def receiveOutcome (authorized : Bool) : Http3Connection :=
  c.log (.outcome pending.streamId pending.credential pending.password authorized)

def handleAuthResult (authorized relayFails : Bool) : Http3Connection :=
  let streamId := pending.streamId
  let c := c.receiveOutcome pending authorized
  if c.localError then c
  else
    match c.expireFirstAuth env with
    | (c, true) => c
    | (c, false) =>
      match c.awaitingAuth.get streamId with
      | none => c
      | some clientFinished =>
        let c := { c with awaitingAuth := c.awaitingAuth.remove streamId }
        if !authorized then c.sendAuthRejection env streamId
        else c.resumeRequest env config pending clientFinished relayFails

/-! ### Target setup -/

def handleTcpConnected (streamId : ℕ) (transferFails : Bool) : Http3Connection :=
  match c.pendingTcpTunnels.get streamId with
  | none => c
  | some pending =>
    match c.out.offer env.answer streamId 200 false with
    | (out, .accepted) =>
      let c := { c with out := out, pendingTcpTunnels := c.pendingTcpTunnels.remove streamId }
      if transferFails then c.resetTcpStream streamId
      else { c with tcpTunnels := c.tcpTunnels.put streamId () }
    | (out, .blocked) =>
      { c with
        out := out
        pendingTcpTunnels := c.pendingTcpTunnels.put streamId { pending with connected := true } }
    | (out, .failed) => { c with out := out }.resetTcpStream streamId

def handleTcpFailed (streamId status : ℕ) : Http3Connection :=
  if c.pendingTcpTunnels.contains streamId then
    { c with
      pendingTcpTunnels := c.pendingTcpTunnels.remove streamId }.sendErrorResponse env
        streamId status
  else c

def handleUdpPrepared (streamId : ℕ) : Http3Connection :=
  if c.pendingUdpTunnels.contains streamId then
    match c.out.offer env.answer streamId 200 false with
    | (out, .accepted) =>
      { c with
        out := out
        pendingUdpTunnels := c.pendingUdpTunnels.remove streamId
        udpTunnels := c.udpTunnels.put streamId () }
    | (out, .blocked) =>
      { c with out := out, pendingUdpTunnels := c.pendingUdpTunnels.put streamId true }
    | (out, .failed) =>
      { c with out := out, pendingUdpTunnels := c.pendingUdpTunnels.remove streamId }
  else c

def handleUdpFailed (streamId status : ℕ) : Http3Connection :=
  if c.pendingUdpTunnels.contains streamId then
    { c with
      pendingUdpTunnels := c.pendingUdpTunnels.remove streamId }.sendErrorResponse env
        streamId status
  else c

def readyTcp : List ℕ :=
  (c.pendingTcpTunnels.entries.filter fun e => e.2.connected).map (·.1)

def readyUdp : List ℕ :=
  (c.pendingUdpTunnels.entries.filter fun e => e.2).map (·.1)

def retryTcpConnectResponses (transferFails : ℕ → Bool) : Http3Connection :=
  c.readyTcp.foldl (fun c id => c.handleTcpConnected env id (transferFails id)) c

def retryUdpConnectResponses : Http3Connection :=
  c.readyUdp.foldl (fun c id => c.handleUdpPrepared env id) c

def retryIpConnectResponse (streamId : ℕ) : Http3Connection :=
  { c with
    pendingIpResponses := c.pendingIpResponses.remove streamId }.setupIpTunnel env streamId

def retryIpConnectResponses : Http3Connection :=
  (c.pendingIpResponses.entries.map (·.1)).foldl (retryIpConnectResponse env) c

/-- Before its output is built, a connection that is not closing offers its kept error
responses again. -/
def drive (closing : Bool) : Http3Connection :=
  let c := (c.expireFirstAuth env).1
  if c.localError || closing then { c with out := c.out.clear }
  else { c with out := c.out.retry env.answer }

/-! ### The sweep -/

def closeIdlePendingTcp (idle : ℕ → Bool) (c : Http3Connection)
    (e : Sigma fun _ : ℕ => PendingTcpTunnel) : Http3Connection :=
  if !idle e.1 then c
  else if e.2.connected then
    { c with pendingTcpTunnels := c.pendingTcpTunnels.remove e.1 }
  else
    { c.sendErrorResponse env e.1 504 with
      pendingTcpTunnels := c.pendingTcpTunnels.remove e.1 }

def closeIdlePendingUdp (idle : ℕ → Bool) (c : Http3Connection) (e : Sigma fun _ : ℕ => Bool) :
    Http3Connection :=
  if !idle e.1 then c
  else if e.2 then
    { c with pendingUdpTunnels := c.pendingUdpTunnels.remove e.1 }
  else
    { c.sendErrorResponse env e.1 504 with
      pendingUdpTunnels := c.pendingUdpTunnels.remove e.1 }

def cleanupIdleTunnels (idle : ℕ → Bool) : Http3Connection :=
  let c := { c with
    out := c.out.expire idle
    pendingIpResponses := c.pendingIpResponses.retain fun id _ => !idle id }
  let c := c.pendingTcpTunnels.entries.foldl (closeIdlePendingTcp env idle) c
  let c := c.pendingUdpTunnels.entries.foldl (closeIdlePendingUdp env idle) c
  { c with
    tcpTunnels := c.tcpTunnels.retain fun id _ => !idle id
    udpTunnels := c.udpTunnels.retain fun id _ => !idle id
    ipTunnels := c.ipTunnels.retain fun id _ => !idle id }

end Http3Connection

/-! ### The poll -/

namespace PollWork

variable {Key Digest : Type} [DecidableEq Digest] (env : Http3Environment Key Digest)
  (config : RequestConfig)

def start (c : Http3Connection) : PollWork := ⟨c, .none, [], [], []⟩

variable (w : PollWork)

def malformed (streamId : ℕ) : PollWork :=
  { w with
    client := w.client.dropStream streamId
    setups := { w.setups with ip := w.setups.ip.filter (· ≠ streamId) }
    closedIp :=
      if w.client.ipTunnels.contains streamId then w.closedIp ++ [streamId] else w.closedIp }

/-- Completed streams are retired before the fixed bound on the seen streams is enforced. -/
def makeRoom (c : Http3Connection) : Http3Connection :=
  if c.requestHeadersSeen.size < maxQuicStreamsBidi then c
  else
    { c.tick with
      requestHeadersSeen :=
        c.requestHeadersSeen.retain fun id _ => !env.streamClosed c.out.clock id
      silent := c.silent ++
        (c.requestHeadersSeen.entries.map (·.1)).filter (env.streamClosed c.out.clock) }

def park (pending : Option PendingAuth) : PollWork :=
  match pending with
  | none => w
  | some pending =>
    if maxPendingAuthPerConnection ≤ w.client.awaitingAuth.size then
      { w with client := w.client.sendAuthRejection env pending.streamId }
    else
      { w with
        client := { w.client with
          awaitingAuth := w.client.awaitingAuth.put pending.streamId false }
        auth := w.auth ++ [pending] }

/-- A stream that QUIC's own limit should have kept away is shut down; QUIC reports nothing on
it afterwards. -/
def onHeaders (streamId : ℕ) (headers : List Header) : PollWork :=
  let w := { w with client := w.client.log (.block streamId headers) }
  if w.client.requestHeadersSeen.contains streamId then
    if headers.any (·.isPseudo) then w.malformed streamId else w
  else if w.client.out.pendingErrors.contains streamId then w
  else
    let c := makeRoom env w.client
    if maxQuicStreamsBidi ≤ c.requestHeadersSeen.size then
      { w with client := { c with silent := c.silent ++ [streamId] } }
    else
      let c := { c with requestHeadersSeen := c.requestHeadersSeen.put streamId () }
      let (c, setups, pending) := c.handleRequest env config w.setups streamId headers
      let parked := { w with client := c }.park env pending
      { parked with client := parked.client.enter w.setups setups streamId, setups := setups }

def onData (streamId : ℕ) (relayFails : Bool) : PollWork :=
  let c := w.client
  if c.awaitingAuth.contains streamId then w
  else if (c.pendingTcpTunnels.contains streamId || c.tcpTunnels.contains streamId)
    && relayFails then
    { w with failedTcp := w.failedTcp ++ [streamId] }
  else w

/-- The end of the request body cancels no authorization, setup or blocked response. -/
def onFinished (streamId : ℕ) (capsule : Bool) : PollWork :=
  let c := w.client.retireStream streamId
  if capsule then { w with client := c }
  else if c.awaitingAuth.contains streamId then
    { w with client := { c with awaitingAuth := c.awaitingAuth.modify streamId fun _ => true } }
  else if c.pendingUdpTunnels.contains streamId || c.pendingIpResponses.contains streamId ||
      w.setups.ip.contains streamId then { w with client := c }
  else
    { w with
      client := { c.finishPendingTcp streamId with
        udpTunnels := c.udpTunnels.remove streamId }
      closedIp := if c.ipTunnels.contains streamId then w.closedIp ++ [streamId] else w.closedIp }

def onReset (streamId : ℕ) : PollWork :=
  let c := w.client.retireStream streamId
  { w with
    client := c.dropStream streamId
    closedIp := if c.ipTunnels.contains streamId then w.closedIp ++ [streamId] else w.closedIp }

def onEvent : Http3Event → Option PollWork
  | .headers streamId headers =>
    if streamId ∈ w.client.silent then none else some (w.onHeaders env config streamId headers)
  | .data streamId relayFails => some (w.onData streamId relayFails)
  | .finished streamId capsule => some (w.onFinished streamId capsule)
  | .reset streamId => some (w.onReset streamId)

def finish : Http3Connection :=
  let c := w.failedTcp.foldl Http3Connection.resetTcpStream w.client
  let c := w.closedIp.foldl Http3Connection.teardownIpTunnel c
  let c := c.applyConnectSetups env config w.setups
  w.auth.foldl (Http3Connection.spawnAuthVerification env) c

end PollWork

namespace Http3Connection

variable {Key Digest : Type} [DecidableEq Digest] (env : Http3Environment Key Digest)
  (config : RequestConfig)

def pollHttp3Events (c : Http3Connection) (events : List Http3Event) : Option Http3Connection :=
  if c.localError then some c
  else
    match c.expireFirstAuth env with
    | (c, true) => some c
    | (c, false) =>
      (run (PollWork.onEvent env config) (.start c) events).map (PollWork.finish env config)

end Http3Connection

/-- What a connection's handlers are called for. -/
inductive ConnectionEvent
  | poll (events : List Http3Event)
  | authResult (streamId : ℕ) (authorized relayFails : Bool)
  | tcpConnected (streamId : ℕ) (transferFails : Bool)
  | tcpFailed (streamId status : ℕ)
  | udpPrepared (streamId : ℕ)
  | udpFailed (streamId status : ℕ)
  | retryTcp (transferFails : ℕ → Bool)
  | retryUdp
  | retryIp
  | drive (closing : Bool)
  | sweep (idle : ℕ → Bool)
  | resetTcp (streamId : ℕ)
  | tcpEnded (streamId : ℕ)
  | udpEnded (streamId : ℕ)
  | capsuleClosed (streamId : ℕ)
  | close

namespace Http3Connection

variable {Key Digest : Type} [DecidableEq Digest] (env : Http3Environment Key Digest)
  (config : RequestConfig)

def step (c : Http3Connection) : ConnectionEvent → Option Http3Connection
  | .poll events => c.pollHttp3Events env config events
  | .authResult streamId authorized relayFails =>
    (c.tasks.get streamId).map fun pending =>
      { c with tasks := c.tasks.remove streamId }.handleAuthResult env config pending authorized
        relayFails
  | .tcpConnected streamId transferFails => some (c.handleTcpConnected env streamId transferFails)
  | .tcpFailed streamId status => some (c.handleTcpFailed env streamId status)
  | .udpPrepared streamId => some (c.handleUdpPrepared env streamId)
  | .udpFailed streamId status => some (c.handleUdpFailed env streamId status)
  | .retryTcp transferFails => some (c.retryTcpConnectResponses env transferFails)
  | .retryUdp => some (c.retryUdpConnectResponses env)
  | .retryIp => some (c.retryIpConnectResponses env)
  | .drive closing => some (c.drive env closing)
  | .sweep idle => some (c.cleanupIdleTunnels env idle)
  | .resetTcp streamId => some (c.resetTcpStream streamId)
  | .tcpEnded streamId => some { c with tcpTunnels := c.tcpTunnels.remove streamId }
  | .udpEnded streamId => some { c with udpTunnels := c.udpTunnels.remove streamId }
  | .capsuleClosed streamId =>
    some { c with
      udpTunnels := c.udpTunnels.remove streamId
      pendingUdpTunnels := c.pendingUdpTunnels.remove streamId
      ipTunnels := c.ipTunnels.remove streamId }
  | .close => some { c with localError := true }

end Http3Connection

namespace Http3Connection

variable {Key Digest : Type} {env : Http3Environment Key Digest} {config : RequestConfig}

/-! ### What a handler leaves alone -/

variable {c : Http3Connection} {k : ℕ} {P : Http3Connection → Prop}

lemma setupIpTunnel_others {streamId : ℕ} (hk : k ≠ streamId) :
    (c.setupIpTunnel env streamId).pendingIpResponses.get k = c.pendingIpResponses.get k := by
  unfold setupIpTunnel Http3Output.offer
  split_ifs
  · cases env.answer c.out.tick.clock with
    | accepted =>
      dsimp only
      split_ifs <;> simp [teardownIpTunnel, hk]
    | blocked => simp [hk]
    | failed => rfl
  · rfl

lemma retryIpConnectResponse_others {streamId : ℕ} (hk : k ≠ streamId) :
    (c.retryIpConnectResponse env streamId).pendingIpResponses.get k =
      c.pendingIpResponses.get k := by
  rw [retryIpConnectResponse, setupIpTunnel_others hk]
  simp [hk]

lemma closeIdlePendingTcp_others (env : Http3Environment Key Digest) (idle : ℕ → Bool)
    {e : Sigma fun _ : ℕ => PendingTcpTunnel} (hk : k ≠ e.1) :
    (c.closeIdlePendingTcp env idle e).pendingTcpTunnels.get k = c.pendingTcpTunnels.get k := by
  unfold closeIdlePendingTcp
  split_ifs <;> simp [hk]

lemma closeIdlePendingUdp_others (env : Http3Environment Key Digest) (idle : ℕ → Bool)
    {e : Sigma fun _ : ℕ => Bool} (hk : k ≠ e.1) :
    (c.closeIdlePendingUdp env idle e).pendingUdpTunnels.get k = c.pendingUdpTunnels.get k := by
  unfold closeIdlePendingUdp
  split_ifs <;> simp [hk]

/-! ### What request handling can do -/

variable (env config)

/-- The outcomes of a dispatch. -/
inductive Dispatched (c : Http3Connection) (setups : PendingConnectSetups) (streamId : ℕ) :
    Http3Connection × PendingConnectSetups → Prop
  | tcp : Dispatched c setups streamId
      (c.log (.dispatched streamId), { setups with tcp := setups.tcp ++ [streamId] })
  | udp : Dispatched c setups streamId
      (c.log (.dispatched streamId), { setups with udp := setups.udp ++ [streamId] })
  | ip : Dispatched c setups streamId
      (c.log (.dispatched streamId), { setups with ip := setups.ip ++ [streamId] })
  | refused (status : ℕ) : Dispatched c setups streamId
      ((c.log (.dispatched streamId)).sendErrorResponse env streamId status, setups)

lemma dispatchConnect_dispatched (c : Http3Connection) (setups : PendingConnectSetups)
    (streamId : ℕ)
    (request : ConnectRequest) :
    Dispatched env c setups streamId (c.dispatchConnect env config setups streamId request) := by
  unfold dispatchConnect
  cases request.dispatch config streamId with
  | tcp => exact .tcp
  | udp => exact .udp
  | ip => exact .ip
  | error status => exact .refused status

variable {env config}

lemma resumeRequest_cases {pending : PendingAuth} {clientFinished relayFails : Bool}
    (hreset : ∀ c' setups, Dispatched env { c with firstAuthDeadline := false } .none
        pending.streamId (c', setups) → setups.tcp ≠ [] →
      P ((c'.enter .none setups pending.streamId).resetTcpStream pending.streamId))
    (happly : ∀ c' setups, Dispatched env { c with firstAuthDeadline := false } .none
        pending.streamId (c', setups) →
      P ((c'.enter .none setups pending.streamId).applyConnectSetups env config setups) ∧
        P (((c'.enter .none setups pending.streamId).finishPendingTcp
          pending.streamId).applyConnectSetups env config setups)) :
    P (c.resumeRequest env config pending clientFinished relayFails) := by
  unfold resumeRequest
  have hdispatched := dispatchConnect_dispatched env config { c with firstAuthDeadline := false }
    .none pending.streamId pending.request
  dsimp only
  split_ifs with hfails
  · refine hreset _ _ hdispatched fun hempty => ?_
    rw [hempty] at hfails
    cases hfails
  · exact (happly _ _ hdispatched).2
  · exact (happly _ _ hdispatched).1

/-- What becomes of an outcome, with `c₁` the connection that has recorded it. -/
lemma handleAuthResult_cases {pending : PendingAuth} {authorized relayFails : Bool}
    {c₁ : Http3Connection} (hreceived : c.receiveOutcome pending authorized = c₁) (hclosed : P c₁)
    (hexpired : P (c₁.expireFirstAuth env).1) (hlate : P c₁.tick)
    (hunauthorized : authorized = false → c.awaitingAuth.contains pending.streamId = true →
      P ({ c₁.tick with awaitingAuth := c₁.awaitingAuth.remove pending.streamId }.sendAuthRejection
        env pending.streamId))
    (hauthorized : authorized = true → c.awaitingAuth.contains pending.streamId = true →
      ∀ clientFinished, P ({ c₁.tick with
        awaitingAuth := c₁.awaitingAuth.remove pending.streamId }.resumeRequest env config pending
          clientFinished relayFails)) :
    P (c.handleAuthResult env config pending authorized relayFails) := by
  have hsame : c₁.awaitingAuth = c.awaitingAuth := hreceived ▸ rfl
  unfold handleAuthResult
  rw [hreceived]
  by_cases hlocal : c₁.localError
  · rw [if_pos hlocal]
    exact hclosed
  · rw [if_neg hlocal]
    unfold expireFirstAuth at hexpired ⊢
    by_cases hoverdue : c₁.firstAuthDeadline && env.deadlinePassed c₁.out.clock
    · rw [if_pos hoverdue] at hexpired ⊢
      exact hexpired
    · rw [if_neg hoverdue]
      cases hwaits : c₁.awaitingAuth.get pending.streamId with
      | none => simpa only [tick, hwaits] using hlate
      | some clientFinished =>
        have hcontains := Table.contains_iff.mpr ⟨clientFinished, hwaits⟩
        rw [hsame] at hcontains
        simp only [tick, hwaits]
        cases authorized with
        | false => exact hunauthorized rfl hcontains
        | true => exact hauthorized rfl hcontains clientFinished

variable (env config) [DecidableEq Digest]

/-- The outcomes of a request's first header block. With authentication, a dispatch needs a
single credential that the cache knows, and a request is parked with a single credential that
remains to be verified. -/
inductive Handled (c : Http3Connection) (setups : PendingConnectSetups) (streamId : ℕ)
    (headers : List Header) :
    Http3Connection × PendingConnectSetups × Option PendingAuth → Prop
  | refused (status : ℕ) :
      Handled c setups streamId headers (c.sendErrorResponse env streamId status, setups, none)
  | overdue : Handled c setups streamId headers (c.tick, setups, none)
  | unguarded {c' : Http3Connection} {setups' : PendingConnectSetups}
    (hopen : config.basicAuth = false)
      (hdispatched : Dispatched env c setups streamId (c', setups')) :
      Handled c setups streamId headers (c', setups', none)
  | hit {value : Bytes} {c' : Http3Connection} {setups' : PendingConnectSetups}
      (hsingle : proxyCredentials headers = [value])
      (hcached : (env.auth c.out.clock).precheck env.primitives (some value) = .authenticated)
      (hdispatched : Dispatched env
        { c.log (.hit streamId (some value) c.out.clock) with firstAuthDeadline := false } setups
        streamId (c', setups')) :
      Handled c setups streamId headers (c', setups', none)
  | parked {value : Bytes} {credential : ℕ} {password : Bytes} (request : ConnectRequest)
      (hsingle : proxyCredentials headers = [value])
      (hverify : (env.auth c.out.clock).precheck env.primitives (some value) =
        .needsVerify credential password) :
      Handled c setups streamId headers
        (c.log (.parked streamId (some value) credential password c.out.clock), setups,
          some ⟨streamId, credential, password, request⟩)

lemma authenticate_handled (c : Http3Connection) (setups : PendingConnectSetups) (streamId : ℕ)
    (headers : List Header) (request : ConnectRequest) :
    Handled env config c setups streamId headers
      (c.authenticate env config setups streamId (.ofHeaders headers) request) := by
  unfold authenticate
  by_cases hduplicate : (RequestFields.ofHeaders headers).duplicateProxyAuthorization
  · rw [if_pos hduplicate]
    exact .refused 404
  · rw [if_neg hduplicate]
    rw [not_eq_true] at hduplicate
    cases hheader : (RequestFields.ofHeaders headers).proxyAuthorization with
    | none => exact .refused 404
    | some value =>
      have hsingle := RequestFields.ofHeaders_credential hheader hduplicate
      dsimp only
      cases hprecheck : (env.auth c.out.clock).precheck env.primitives (some value) with
      | rejected => exact .refused 404
      | needsVerify credential password => exact .parked request hsingle hprecheck
      | authenticated =>
        dsimp only
        split_ifs
        · exact .overdue
        · exact .hit hsingle hprecheck
            (dispatchConnect_dispatched env config _ setups streamId request)

lemma handleRequest_handled (c : Http3Connection) (setups : PendingConnectSetups) (streamId : ℕ)
    (headers : List Header) :
    Handled env config c setups streamId headers
      (c.handleRequest env config setups streamId headers) := by
  unfold handleRequest
  dsimp only
  cases classifyConnectRequest (RequestFields.ofHeaders headers) config with
  | none => exact .refused 404
  | some request =>
    dsimp only
    split_ifs with hauth
    · exact authenticate_handled env config c setups streamId headers request
    · exact .unguarded (not_eq_true _ ▸ hauth)
        (dispatchConnect_dispatched env config c setups streamId request)

end Http3Connection

namespace PollWork

variable {Key Digest : Type} [DecidableEq Digest] {env : Http3Environment Key Digest}
  {config : RequestConfig}

lemma onHeaders_cases {P : PollWork → Prop} {w : PollWork} {streamId : ℕ} {headers : List Header}
    (htrailer : w.client.requestHeadersSeen.contains streamId = true →
      P { w with client := w.client.log (.block streamId headers) })
    (hmalformed : w.client.requestHeadersSeen.contains streamId = true →
      P ({ w with client := w.client.log (.block streamId headers) }.malformed streamId))
    (hkept : w.client.out.pendingErrors.contains streamId = true →
      P { w with client := w.client.log (.block streamId headers) })
    (hfull : ∀ c, c = makeRoom env (w.client.log (.block streamId headers)) →
      P { w with client := { c with silent := c.silent ++ [streamId] } })
    (hnew : ∀ c c' setups pending, c = makeRoom env (w.client.log (.block streamId headers)) →
      w.client.requestHeadersSeen.contains streamId = false →
      Http3Connection.Handled env config
        { c with requestHeadersSeen := c.requestHeadersSeen.put streamId () } w.setups streamId
        headers (c', setups, pending) →
      P { { w with client := c' }.park env pending with
        client := ({ w with client := c' }.park env pending).client.enter w.setups setups streamId
        setups := setups }) :
    P (w.onHeaders env config streamId headers) := by
  unfold onHeaders
  dsimp only
  split_ifs with hseen hpseudo hpending hroom
  · exact hmalformed hseen
  · exact htrailer hseen
  · exact hkept hpending
  · exact hfull _ rfl
  · exact hnew _ _ _ _ rfl (not_eq_true _ ▸ hseen)
      (Http3Connection.handleRequest_handled env config _ w.setups streamId headers)

end PollWork

namespace Http3Connection

variable {Key Digest : Type} [DecidableEq Digest] {env : Http3Environment Key Digest}
  {config : RequestConfig} {c c' : Http3Connection} {events : List Http3Event}

lemma pollHttp3Events_cases {P : Http3Connection → Prop}
    (hpoll : c.pollHttp3Events env config events = some c') (hclosed : P c)
    (hexpired : P (c.expireFirstAuth env).1)
    (hworked : ∀ w, run (PollWork.onEvent env config) (.start c.tick) events = some w →
      P (w.finish env config)) : P c' := by
  unfold pollHttp3Events at hpoll
  unfold expireFirstAuth at hpoll hexpired
  by_cases hlocal : c.localError
  · rw [if_pos hlocal, some.injEq] at hpoll
    exact hpoll ▸ hclosed
  · rw [if_neg hlocal] at hpoll
    by_cases hoverdue : c.firstAuthDeadline && env.deadlinePassed c.out.clock
    · rw [if_pos hoverdue] at hpoll hexpired
      exact some.inj hpoll ▸ hexpired
    · rw [if_neg hoverdue] at hpoll
      obtain ⟨w, hrun, rfl⟩ := map_eq_some_iff.mp hpoll
      exact hworked w hrun

end Http3Connection

end MasqueServer
