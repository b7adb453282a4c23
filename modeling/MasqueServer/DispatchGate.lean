import MasqueServer.DecisionSafety

/-!
# The dispatch gate of an HTTP/3 connection

With Basic authentication a request is dispatched once, after the single credential of its first
header block was found in the cache, or was parked and then verified. All that other handlers
add to the history concerns responses and outcomes, and what they take from the tables only
makes later outcomes find nothing.
-/
namespace MasqueServer

open List Option

def RequestRecord.isQuiet : RequestRecord → Bool
  | .block _ _ => false
  | .dispatched _ => false
  | _ => true

namespace Http3Output

variable {o o' : Http3Output}

/-- From `o` to `o'` no header block is read and nothing is dispatched. -/
def Quietly (o o' : Http3Output) : Prop := ExtendsBy (·.isQuiet = true) o.history o'.history

variable (answer : ℕ → ResponseAnswer)

lemma retryOne_quietly (o : Http3Output) (e : Sigma fun _ : ℕ => ℕ) :
    o.Quietly (o.retryOne answer e) := by
  obtain ⟨⟨answered, hhistory⟩, -⟩ := o.retryOne_others answer e
  unfold Quietly
  rw [hhistory]
  exact .concat _ rfl

lemma retry_quietly (o : Http3Output) : o.Quietly (o.retry answer) :=
  List.foldlRecOn (motive := fun o' : Http3Output => o.Quietly o') o.pendingErrors.entries
    (retryOne answer) (ExtendsBy.refl _) fun o' ho e _ =>
      ExtendsBy.trans ho (o'.retryOne_quietly answer e)

lemma send_quietly (o : Http3Output) (streamId status : ℕ) :
    o.Quietly (o.send answer streamId status) := by
  have hchosen : o.Quietly (o.log (.chose streamId status)) := .concat _ rfl
  have hoffered : ∀ answered, o.Quietly
      ((o.log (.chose streamId status)).log (.offered streamId status true answered)) :=
        fun answered =>
    hchosen.trans (.concat _ rfl)
  unfold send trySend offer
  split_ifs
  · exact .refl _
  · cases answer (o.log (.chose streamId status)).clock with
    | accepted => exact hoffered _
    | failed => exact hoffered _
    | blocked =>
      simp only [decide_true]
      split_ifs
      · exact (hoffered _).trans (retry_quietly answer _)
      · exact (hoffered _).trans (retry_quietly answer _)
      · exact hoffered _

end Http3Output

namespace Http3Connection

/-- From `c` to `c'` no header block is read, nothing is dispatched and no request starts to
wait. -/
structure Quietly (c c' : Http3Connection) : Prop where
  history : ExtendsBy (·.isQuiet = true) c.out.history c'.out.history
  waits : ∀ id, c'.awaitingAuth.contains id = true → c.awaitingAuth.contains id = true
  admitted : ∀ id, c.Admitted id → c'.Admitted id
  tasks : ∀ id pending, c'.tasks.get id = some pending → c.tasks.get id = some pending

variable {Key Digest : Type} {env : Http3Environment Key Digest} {config : RequestConfig}
  {c c' c'' : Http3Connection} {streamId status : ℕ}

namespace Quietly

lemma refl (c : Http3Connection) : c.Quietly c :=
  ⟨.refl _, fun _ h => h, fun _ h => h, fun _ _ h => h⟩

lemma trans (h : c.Quietly c') (h' : c'.Quietly c'') : c.Quietly c'' :=
  ⟨h.history.trans h'.history, fun id hid => h.waits id (h'.waits id hid),
    fun id hid => h'.admitted id (h.admitted id hid),
    fun id pending hp => h.tasks id pending (h'.tasks id pending hp)⟩

lemma of_output (hout : c.out.Quietly c'.out) (hwaits : c'.awaitingAuth = c.awaitingAuth)
    (hseen : c'.requestHeadersSeen = c.requestHeadersSeen) (hsilent : c'.silent = c.silent)
    (htasks : c'.tasks = c.tasks) : c.Quietly c' := by
  refine ⟨hout, fun id hid => hwaits ▸ hid, fun id hid => ?_, fun id pending hp => htasks ▸ hp⟩
  rwa [Admitted, hseen, hsilent]

variable (c : Http3Connection)

lemma tick : c.Quietly c.tick := .of_output (.refl _) rfl rfl rfl rfl

lemma log {r : RequestRecord} (h : r.isQuiet = true) : c.Quietly (c.log r) :=
  .of_output (.concat _ h) rfl rfl rfl rfl

lemma send : c.Quietly (c.sendErrorResponse env streamId status) :=
  .of_output (c.out.send_quietly env.answer streamId status) rfl rfl rfl rfl

lemma resetTcpStream : c.Quietly (c.resetTcpStream streamId) :=
  .of_output (.refl _) rfl rfl rfl rfl

lemma teardownIpTunnel : c.Quietly (c.teardownIpTunnel streamId) :=
  .of_output (.refl _) rfl rfl rfl rfl

lemma unpark (streamId : ℕ) :
    c.Quietly { c with awaitingAuth := c.awaitingAuth.remove streamId } := by
  refine ⟨.refl _, fun id hid => ?_, fun _ h => h, fun _ _ h => h⟩
  by_cases heq : id = streamId
  · simp [Table.contains, heq] at hid
  · simpa [Table.contains, heq] using hid

lemma dropStream : c.Quietly (c.dropStream streamId) :=
  (unpark c streamId).trans (.of_output (.refl _) rfl rfl rfl rfl)

lemma retireStream (streamId : ℕ) : c.Quietly (c.retireStream streamId) := by
  refine ⟨.refl _, fun _ h => h, fun id hid => ?_, fun _ _ h => h⟩
  by_cases heq : id = streamId
  · exact .inr (by simp [Http3Connection.retireStream, heq])
  · refine hid.imp (fun hseen => ?_) (mem_append_left [streamId])
    simpa [Http3Connection.retireStream, Table.contains, heq] using hseen

lemma watch (streamId : ℕ) :
    c.Quietly { c with requestHeadersSeen := c.requestHeadersSeen.put streamId () } := by
  refine ⟨.refl _, fun _ h => h, fun id hid => hid.imp_left fun hseen => ?_, fun _ _ h => h⟩
  by_cases heq : id = streamId
  · simp [Table.contains, heq]
  · simpa [Table.contains, heq] using hseen

lemma expireFirstAuth (env : Http3Environment Key Digest) :
    c.Quietly (c.expireFirstAuth env).1 := by
  unfold Http3Connection.expireFirstAuth
  split_ifs
  · refine ⟨.refl _, fun id hid => ?_, fun _ h => h, fun _ _ h => h⟩
    simp [Table.contains] at hid
  · exact .tick c

/-! ### Setups and responses -/

lemma enter (before after : PendingConnectSetups) (streamId : ℕ) :
    c.Quietly (c.enter before after streamId) := .of_output (.refl _) rfl rfl rfl rfl

lemma finishPendingTcp : c.Quietly (c.finishPendingTcp streamId) :=
  .of_output (.refl _) rfl rfl rfl rfl

lemma applyTcpSetup : c.Quietly (c.applyTcpSetup env config streamId) := by
  unfold Http3Connection.applyTcpSetup
  split_ifs
  · exact .refl c
  · exact .of_output (c.out.send_quietly env.answer streamId 503) rfl rfl rfl rfl
  · exact .refl c

lemma applyUdpSetup : c.Quietly (c.applyUdpSetup env config streamId) := by
  unfold Http3Connection.applyUdpSetup
  split_ifs
  · exact .refl c
  · exact .of_output (c.out.send_quietly env.answer streamId 503) rfl rfl rfl rfl
  · exact .refl c

lemma setupIpTunnel : c.Quietly (c.setupIpTunnel env streamId) := by
  have hoffered : ∀ answered, c.out.Quietly
      (c.out.tick.log (.offered streamId 200 false answered)) := fun _ => .concat _ rfl
  unfold Http3Connection.setupIpTunnel Http3Output.offer
  split_ifs
  · cases env.answer c.out.tick.clock with
    | accepted =>
      dsimp only
      split_ifs <;> exact .of_output (hoffered _) rfl rfl rfl rfl
    | blocked => exact .of_output (hoffered _) rfl rfl rfl rfl
    | failed => exact .of_output (hoffered _) rfl rfl rfl rfl
  · exact (tick c).trans (send c.tick)

lemma applyIpSetup : c.Quietly (c.applyIpSetup env config streamId) := by
  unfold Http3Connection.applyIpSetup
  split_ifs
  · exact send c
  · exact setupIpTunnel c

lemma foldl {α : Type*} {f : Http3Connection → α → Http3Connection}
    (h : ∀ (c : Http3Connection) (a : α), c.Quietly (f c a))
    (l : List α) (c : Http3Connection) : c.Quietly (l.foldl f c) :=
  List.foldlRecOn (motive := fun c' : Http3Connection => c.Quietly c') l f (refl c) fun c' hc a _ =>
    hc.trans (h c' a)

lemma applyConnectSetups (env : Http3Environment Key Digest) (config : RequestConfig)
    (c : Http3Connection) (setups : PendingConnectSetups) :
    c.Quietly (c.applyConnectSetups env config setups) :=
  ((foldl (fun c _ => applyTcpSetup c) setups.tcp c).trans
    (foldl (fun c _ => applyUdpSetup c) setups.udp _)).trans
    (foldl (fun c _ => applyIpSetup c) setups.ip _)

lemma handleTcpConnected (transferFails : Bool) :
    c.Quietly (c.handleTcpConnected env streamId transferFails) := by
  have hoffered : ∀ answered, c.out.Quietly
      (c.out.log (.offered streamId 200 false answered)) := fun _ => .concat _ rfl
  unfold Http3Connection.handleTcpConnected
  cases c.pendingTcpTunnels.get streamId with
  | none => exact .refl c
  | some pending =>
    unfold Http3Output.offer
    cases env.answer c.out.clock with
    | accepted =>
      dsimp only
      split_ifs <;> exact .of_output (hoffered _) rfl rfl rfl rfl
    | blocked => exact .of_output (hoffered _) rfl rfl rfl rfl
    | failed => exact .of_output (hoffered _) rfl rfl rfl rfl

lemma handleUdpPrepared : c.Quietly (c.handleUdpPrepared env streamId) := by
  have hoffered : ∀ answered, c.out.Quietly
      (c.out.log (.offered streamId 200 false answered)) := fun _ => .concat _ rfl
  unfold Http3Connection.handleUdpPrepared Http3Output.offer
  split_ifs
  · cases env.answer c.out.clock with
    | _ => exact .of_output (hoffered _) rfl rfl rfl rfl
  · exact .refl c

lemma handleTcpFailed : c.Quietly (c.handleTcpFailed env streamId status) := by
  unfold Http3Connection.handleTcpFailed
  split_ifs
  · exact .of_output (c.out.send_quietly env.answer streamId status) rfl rfl rfl rfl
  · exact .refl c

lemma handleUdpFailed : c.Quietly (c.handleUdpFailed env streamId status) := by
  unfold Http3Connection.handleUdpFailed
  split_ifs
  · exact .of_output (c.out.send_quietly env.answer streamId status) rfl rfl rfl rfl
  · exact .refl c

lemma retryIpConnectResponse : c.Quietly (c.retryIpConnectResponse env streamId) := by
  have hremoved : c.Quietly
      { c with pendingIpResponses := c.pendingIpResponses.remove streamId } :=
    .of_output (.refl _) rfl rfl rfl rfl
  exact hremoved.trans (setupIpTunnel _)

lemma drive (closing : Bool) : c.Quietly (c.drive env closing) := by
  refine (expireFirstAuth c env).trans ?_
  unfold Http3Connection.drive
  dsimp only
  split_ifs
  · exact .of_output (.refl _) rfl rfl rfl rfl
  · exact .of_output (Http3Output.retry_quietly env.answer _) rfl rfl rfl rfl

lemma closeIdlePendingTcp (env : Http3Environment Key Digest) (idle : ℕ → Bool)
    (e : Sigma fun _ : ℕ => PendingTcpTunnel) : c.Quietly (c.closeIdlePendingTcp env idle e) := by
  unfold Http3Connection.closeIdlePendingTcp
  split_ifs
  · exact .refl c
  · exact .of_output (.refl _) rfl rfl rfl rfl
  · exact .of_output (c.out.send_quietly env.answer e.1 504) rfl rfl rfl rfl

lemma closeIdlePendingUdp (env : Http3Environment Key Digest) (idle : ℕ → Bool)
    (e : Sigma fun _ : ℕ => Bool) : c.Quietly (c.closeIdlePendingUdp env idle e) := by
  unfold Http3Connection.closeIdlePendingUdp
  split_ifs
  · exact .refl c
  · exact .of_output (.refl _) rfl rfl rfl rfl
  · exact .of_output (c.out.send_quietly env.answer e.1 504) rfl rfl rfl rfl

lemma cleanupIdleTunnels (idle : ℕ → Bool) : c.Quietly (c.cleanupIdleTunnels env idle) := by
  have hexpired : c.Quietly { c with
      out := c.out.expire idle
      pendingIpResponses := c.pendingIpResponses.retain fun id _ => !idle id } :=
    .of_output (.refl _) rfl rfl rfl rfl
  have htcp := hexpired.trans
    (foldl (fun c e => closeIdlePendingTcp c env idle e) c.pendingTcpTunnels.entries _)
  unfold Http3Connection.cleanupIdleTunnels
  dsimp only
  generalize List.foldl (Http3Connection.closeIdlePendingTcp env idle) _ _ = c₁ at htcp ⊢
  have hudp := htcp.trans
    (foldl (fun c e => closeIdlePendingUdp c env idle e) c₁.pendingUdpTunnels.entries c₁)
  exact hudp.trans (.of_output (.refl _) rfl rfl rfl rfl)

end Quietly

end Http3Connection

/-! ### What clears a dispatch -/

def FirstBlock (history : List RequestRecord) (streamId : ℕ) (headers : List Header)
    (since : List RequestRecord) : Prop :=
  ∃ earlier, history = earlier ++ .block streamId headers :: since ∧
    ∀ headers', .block streamId headers' ∉ earlier

variable {Key Digest : Type} [DecidableEq Digest]

/-- The first header block of the stream had a single credential, which was in the cache at that
moment, or was parked and the outcome that has just arrived says that its password is right. -/
def Cleared (env : Http3Environment Key Digest) (before : List RequestRecord) (streamId : ℕ) :
    Prop :=
  ∃ headers value since, FirstBlock before streamId headers since ∧
    proxyCredentials headers = [value] ∧
    ((∃ moment, since = [.hit streamId (some value) moment] ∧
        (env.auth moment).precheck env.primitives (some value) = .authenticated) ∨
      ∃ credential password moment rest,
        since = rest ++ [.outcome streamId credential password true] ∧
          .parked streamId (some value) credential password moment ∈ rest ∧
          (env.auth moment).precheck env.primitives (some value) = .needsVerify credential password)

/-- The request was parked with the single credential of its first header block. -/
def WasParked (env : Http3Environment Key Digest) (history : List RequestRecord)
    (pending : PendingAuth) : Prop :=
  ∃ headers value since moment, FirstBlock history pending.streamId headers since ∧
    proxyCredentials headers = [value] ∧
    .parked pending.streamId (some value) pending.credential pending.password moment ∈ since ∧
    (env.auth moment).precheck env.primitives (some value) =
      .needsVerify pending.credential pending.password

variable {history : List RequestRecord} {env : Http3Environment Key Digest}
  {before : List RequestRecord}

lemma FirstBlock.append {streamId : ℕ} {headers : List Header} {since : List RequestRecord}
    (h : FirstBlock history streamId headers since) (records : List RequestRecord) :
    FirstBlock (history ++ records) streamId headers (since ++ records) := by
  obtain ⟨earlier, rfl, hfirst⟩ := h
  exact ⟨earlier, by simp, hfirst⟩

lemma WasParked.append {pending : PendingAuth} (h : WasParked env history pending)
    (records : List RequestRecord) :
    WasParked env (history ++ records) pending := by
  obtain ⟨headers, value, since, moment, hfirst, hsingle, hparked, hverify⟩ := h
  exact ⟨headers, value, since ++ records, moment, hfirst.append records, hsingle,
    mem_append_left records hparked, hverify⟩

lemma WasParked.cleared {pending : PendingAuth} (h : WasParked env history pending) :
    Cleared env (history ++ [.outcome pending.streamId pending.credential pending.password true])
      pending.streamId := by
  obtain ⟨headers, value, since, moment, hfirst, hsingle, hparked, hverify⟩ := h
  exact ⟨headers, value, _, hfirst.append _, hsingle,
    .inr ⟨_, _, moment, since, rfl, hparked, hverify⟩⟩

lemma Cleared.block_mem {streamId : ℕ} (h : Cleared env before streamId) :
    ∃ headers, .block streamId headers ∈ before := by
  obtain ⟨headers, -, since, ⟨earlier, rfl, -⟩, -, -⟩ := h
  exact ⟨headers, by simp⟩

def RequestRecord.PassesGate (env : Http3Environment Key Digest) (before : List RequestRecord) :
    RequestRecord → Prop
  | .dispatched id => .dispatched id ∉ before ∧ Cleared env before id
  | _ => True

lemma RequestRecord.passesGate_of_isQuiet {r : RequestRecord} (h : r.isQuiet = true) :
    r.PassesGate env before := by
  cases r with
  | dispatched id => cases h
  | _ => trivial

namespace Http3Connection

/-- What the gate relies on: a stream with a header block was admitted; a waiting request was
not dispatched; and every verification under way is for a parked request. -/
structure Guarded (env : Http3Environment Key Digest) (c : Http3Connection)
    (auth : List PendingAuth) :
    Prop where
  admits : ∀ id headers, .block id headers ∈ c.out.history → c.Admitted id
  waits : ∀ id, c.awaitingAuth.contains id = true → .dispatched id ∉ c.out.history
  parked : ∀ pending ∈ auth, WasParked env c.out.history pending
  tasks : ∀ id pending, c.tasks.get id = some pending →
    pending.streamId = id ∧ WasParked env c.out.history pending
  gate : Justified (fun before r => r.PassesGate env before) c.out.history

variable {env : Http3Environment Key Digest} {config : RequestConfig} {c c' : Http3Connection}
  {auth : List PendingAuth} {streamId : ℕ}

namespace Guarded

lemma quietly (h : Guarded env c auth) (hquiet : c.Quietly c') : Guarded env c' auth := by
  obtain ⟨records, heq, hrecords⟩ := hquiet.history
  refine ⟨fun id headers hmem => ?_, fun id hid hmem => ?_, fun pending hp => ?_,
    fun id pending hp => ?_, ?_⟩
  · exact hquiet.admitted id
      (h.admits id headers (hquiet.history.mem_of_not hmem Bool.false_ne_true))
  · exact h.waits id (hquiet.waits id hid) (hquiet.history.mem_of_not hmem Bool.false_ne_true)
  · exact heq ▸ (h.parked pending hp).append records
  · obtain ⟨hid, hparked⟩ := h.tasks id pending (hquiet.tasks id pending hp)
    exact ⟨hid, heq ▸ hparked.append records⟩
  · exact h.gate.extend hquiet.history fun r before hr => RequestRecord.passesGate_of_isQuiet hr

lemma not_dispatched (h : Guarded env c auth) (hfresh : ¬c.Admitted streamId) :
    .dispatched streamId ∉ c.out.history := by
  intro hmem
  obtain ⟨before, after, heq⟩ := append_of_mem hmem
  obtain ⟨-, hcleared⟩ := h.gate before (.dispatched streamId) after heq
  obtain ⟨headers, hblock⟩ := hcleared.block_mem
  refine hfresh (h.admits streamId headers ?_)
  rw [heq]
  exact mem_append_left _ hblock

lemma block (h : Guarded env c auth) {headers : List Header}
    (hquiet : (c.log (.block streamId headers)).Quietly c')
    (hadmitted : c'.Admitted streamId) : Guarded env c' auth := by
  obtain ⟨records, heq, hrecords⟩ := hquiet.history
  have hmem : ∀ r, r ∈ c'.out.history → r.isQuiet = false → r ≠ .block streamId headers →
      r ∈ c.out.history := by
    intro r hr hloud hne
    have hlogged := hquiet.history.mem_of_not hr (by simp [hloud])
    simpa [log, Http3Output.log, hne] using hlogged
  refine ⟨fun id headers' hblock => ?_, fun id hid hdispatched => ?_, fun pending hp => ?_,
    fun id pending hp => ?_, ?_⟩
  · by_cases hid : id = streamId
    · exact hid ▸ hadmitted
    · refine hquiet.admitted id (h.admits id headers' (hmem _ hblock rfl ?_))
      simp [hid]
  · exact h.waits id (hquiet.waits id hid) (hmem _ hdispatched rfl (by simp))
  · exact heq ▸ ((h.parked pending hp).append _).append records
  · obtain ⟨hid, hparked⟩ := h.tasks id pending (hquiet.tasks id pending hp)
    exact ⟨hid, heq ▸ (hparked.append _).append records⟩
  · refine Justified.extend ?_ hquiet.history fun r before hr =>
      RequestRecord.passesGate_of_isQuiet hr
    exact justified_concat.mpr ⟨h.gate, trivial⟩

lemma dispatch (h : Guarded env c auth) (hcleared : Cleared env c.out.history streamId)
    (hfirst : .dispatched streamId ∉ c.out.history)
    (hwaits : c.awaitingAuth.contains streamId = false) :
    Guarded env (c.log (.dispatched streamId)) auth := by
  refine ⟨fun id headers hmem => h.admits id headers ?_, fun id hid hmem => ?_,
    fun pending hp => (h.parked pending hp).append _, fun id pending hp => ?_,
    justified_concat.mpr ⟨h.gate, hfirst, hcleared⟩⟩
  · simpa [log, Http3Output.log] using hmem
  · have hne : id ≠ streamId := by
      rintro rfl
      exact Bool.false_ne_true (hwaits.symm.trans hid)
    refine h.waits id hid ?_
    simpa [log, Http3Output.log, hne] using hmem
  · obtain ⟨hid, hparked⟩ := h.tasks id pending hp
    exact ⟨hid, hparked.append _⟩

omit [DecidableEq Digest] in
lemma quietly_of_dispatched {setups setups' : PendingConnectSetups}
    (hdispatched : Dispatched env c setups streamId (c', setups')) :
    (c.log (.dispatched streamId)).Quietly c' := by
  cases hdispatched with
  | refused status => exact Quietly.send _
  | _ => exact Quietly.refl _

variable {pending : PendingAuth}

lemma resumeRequest (h : Guarded env c auth)
    (hcleared : Cleared env c.out.history pending.streamId)
    (hfirst : .dispatched pending.streamId ∉ c.out.history)
    (hwaits : c.awaitingAuth.contains pending.streamId = false) (clientFinished relayFails : Bool) :
    Guarded env (c.resumeRequest env config pending clientFinished relayFails) auth := by
  have hopened : c.Quietly { c with firstAuthDeadline := false } :=
    .of_output (.refl _) rfl rfl rfl rfl
  have hdispatch := (h.quietly hopened).dispatch hcleared hfirst hwaits
  refine resumeRequest_cases (P := fun c => Guarded env c auth) (fun c' setups hdispatched _ => ?_)
    fun c' setups hdispatched => ?_
  · have hentered := (hdispatch.quietly (quietly_of_dispatched hdispatched)).quietly
      (Quietly.enter c' .none setups pending.streamId)
    exact hentered.quietly (.resetTcpStream _)
  · have hentered := (hdispatch.quietly (quietly_of_dispatched hdispatched)).quietly
      (Quietly.enter c' .none setups pending.streamId)
    exact ⟨hentered.quietly (.applyConnectSetups env config _ setups),
      hentered.quietly
        ((Quietly.finishPendingTcp _).trans (.applyConnectSetups env config _ setups))⟩

lemma handleAuthResult (h : Guarded env c auth) (hparked : WasParked env c.out.history pending)
    (authorized relayFails : Bool) :
    Guarded env (c.handleAuthResult env config pending authorized relayFails) auth := by
  have hreceived : Guarded env (c.receiveOutcome pending authorized) auth := h.quietly (.log c rfl)
  have htaken := hreceived.quietly ((Quietly.tick _).trans (.unpark _ pending.streamId))
  refine handleAuthResult_cases (P := fun c => Guarded env c auth) rfl hreceived
    (hreceived.quietly (.expireFirstAuth _ env)) (hreceived.quietly (.tick _))
    (fun _ _ => htaken.quietly (.send _)) fun hauthorized hwaits clientFinished => ?_
  -- The outcome that was recorded last is the one that clears the dispatch.
  subst hauthorized
  exact htaken.resumeRequest hparked.cleared
    (by simpa [receiveOutcome, Http3Connection.log, Http3Connection.tick, Http3Output.log,
      Http3Output.tick] using h.waits _ hwaits) (by simp [Table.contains]) clientFinished relayFails

lemma spawnAuthVerification (h : Guarded env c auth) (hmem : pending ∈ auth) :
    Guarded env (c.spawnAuthVerification env pending) auth := by
  unfold Http3Connection.spawnAuthVerification
  split_ifs
  · exact h
  · have hticked := h.quietly (.tick c)
    refine { hticked with tasks := fun id pending' hp => ?_ }
    obtain ⟨hid, rfl⟩ | ⟨-, hp⟩ := Table.get_put_cases hp
    · exact ⟨hid.symm, hticked.parked _ hmem⟩
    · exact hticked.tasks id pending' hp
  · have hrejected : c.Quietly { c.tick.sendAuthRejection env pending.streamId with
        awaitingAuth := c.awaitingAuth.remove pending.streamId } :=
      ((Quietly.tick c).trans (.send _)).trans (.unpark _ pending.streamId)
    exact h.quietly hrejected

end Guarded

end Http3Connection

namespace PollWork

variable {env : Http3Environment Key Digest} {config : RequestConfig} {c : Http3Connection}
  {w w' : PollWork} {streamId : ℕ}

def Guarded (env : Http3Environment Key Digest) (w : PollWork) : Prop := w.client.Guarded env w.auth

omit [DecidableEq Digest] in
lemma makeRoom_history : (makeRoom env c).out.history = c.out.history := by
  unfold makeRoom
  split_ifs <;> rfl

omit [DecidableEq Digest] in
lemma makeRoom_quietly : c.Quietly (makeRoom env c) := by
  refine ⟨?_, fun id hid => ?_, fun id => (makeRoom_admitted id).mpr, fun id pending hp => ?_⟩
  · rw [makeRoom_history]
    exact .refl _
  · unfold makeRoom at hid
    split_ifs at hid <;> exact hid
  · unfold makeRoom at hp
    split_ifs at hp <;> exact hp

namespace Guarded

lemma handled {headers : List Header} {setups : PendingConnectSetups} {pending : Option PendingAuth}
    {c' : Http3Connection} (hauth : config.basicAuth = true) (h : c.Guarded env w.auth)
    (hblock : FirstBlock c.out.history streamId headers [])
    (hfirst : .dispatched streamId ∉ c.out.history)
    (hwaits : c.awaitingAuth.contains streamId = false)
    (hhandled : c.Handled env config w.setups streamId headers (c', setups, pending)) :
    PollWork.Guarded env { { w with client := c' }.park env pending with
      client := ({ w with client := c' }.park env pending).client.enter w.setups setups streamId
      setups := setups } := by
  cases hhandled with
  | refused status =>
    exact h.quietly ((Http3Connection.Quietly.send c).trans (.enter _ _ _ streamId))
  | overdue => exact h.quietly ((Http3Connection.Quietly.tick c).trans (.enter _ _ _ streamId))
  | unguarded hopen _ => exact absurd (hauth.symm.trans hopen) (by decide)
  | @hit value _ _ hsingle hcached hdispatched =>
    have hhit : c.Quietly { c.log (.hit streamId (some value) c.out.clock) with
        firstAuthDeadline := false } := .of_output (.concat _ rfl) rfl rfl rfl rfl
    have hcleared : Cleared env (c.out.history ++ [.hit streamId (some value) c.out.clock])
        streamId := ⟨headers, value, _, hblock.append _, hsingle, .inl ⟨_, rfl, hcached⟩⟩
    have hdispatch := (h.quietly hhit).dispatch hcleared
      (by simpa [Http3Connection.log, Http3Output.log] using hfirst) hwaits
    exact (hdispatch.quietly (Http3Connection.Guarded.quietly_of_dispatched hdispatched)).quietly
      (.enter c' w.setups setups streamId)
  | @parked value credential password request hsingle hverify =>
    have hlogged := h.quietly (Http3Connection.Quietly.log c
      (r := .parked streamId (some value) credential password c.out.clock) rfl)
    have hparked : WasParked env
        (c.out.history ++ [.parked streamId (some value) credential password c.out.clock])
        ⟨streamId, credential, password, request⟩ :=
      ⟨headers, value, _, _, hblock.append _, hsingle, by simp, hverify⟩
    have hentered : ∀ {c₁ : Http3Connection} {auth : List PendingAuth}, c₁.Guarded env auth →
        (c₁.enter w.setups w.setups streamId).Guarded env auth := fun hc =>
      hc.quietly (.enter _ _ _ streamId)
    unfold PollWork.park
    dsimp only
    split_ifs
    · exact hentered (hlogged.quietly (.send _))
    · refine hentered ?_
      refine { hlogged with waits := fun id hid => ?_, parked := fun pending hp => ?_ }
      · by_cases heq : id = streamId
        · subst heq
          simpa [Http3Connection.log, Http3Output.log] using hfirst
        · refine hlogged.waits id ?_
          simpa [Table.contains, heq] using hid
      · rw [mem_append, mem_singleton] at hp
        exact hp.elim (hlogged.parked pending) fun heq => heq ▸ hparked

lemma onHeaders (hauth : config.basicAuth = true) (h : w.Guarded env) (hdecided : w.Decided)
    {headers : List Header} (hreported : streamId ∉ w.client.silent) :
    (w.onHeaders env config streamId headers).Guarded env := by
  have hadmitted : w.client.requestHeadersSeen.contains streamId = true →
      w.client.Admitted streamId := .inl
  refine onHeaders_cases (fun hseen => ?_) (fun hseen => ?_) (fun hkept => ?_) (fun c hc => ?_)
    fun c c' setups pending hc hseen hhandled => ?_
  · exact h.block (.refl _) (hadmitted hseen)
  · exact h.block (.dropStream _) (hadmitted hseen)
  · exact h.block (.refl _) (hdecided.kept_admitted hkept)
  · subst hc
    have hsilent : (makeRoom env (w.client.log (.block streamId headers))).Quietly
        { makeRoom env (w.client.log (.block streamId headers)) with
          silent := (makeRoom env (w.client.log (.block streamId headers))).silent ++
            [streamId] } :=
      ⟨.refl _, fun _ hid => hid, fun _ hid => hid.imp_right (mem_append_left [streamId]),
        fun _ _ hp => hp⟩
    exact h.block (makeRoom_quietly.trans hsilent)
      (.inr (mem_append_right _ mem_cons_self))
  · have hfresh : ¬w.client.Admitted streamId := by
      rintro (hadmitted | hsilent)
      · exact Bool.false_ne_true (hseen.symm.trans hadmitted)
      · exact hreported hsilent
    have hroom : (w.client.log (.block streamId headers)).Quietly
        { c with requestHeadersSeen := c.requestHeadersSeen.put streamId () } := by
      subst hc
      exact makeRoom_quietly.trans (.watch _ streamId)
    have hhistory : c.out.history = w.client.out.history ++ [.block streamId headers] := by
      subst hc
      exact makeRoom_history
    have hguarded := h.block hroom (.inl (by simp [Table.contains]))
    refine handled hauth hguarded ?_ ?_ ?_ hhandled
    · refine ⟨w.client.out.history, hhistory, fun headers' hmem => ?_⟩
      exact hfresh (h.admits streamId headers' hmem)
    · have hfirst := h.not_dispatched hfresh
      simpa [hhistory] using hfirst
    · have hwaits := hdecided.not_waiting hfresh
      by_contra hnow
      rw [Bool.not_eq_false] at hnow
      exact Bool.false_ne_true (hwaits.symm.trans (hroom.waits streamId hnow))

omit [DecidableEq Digest] in
lemma onFinished_quietly (capsule : Bool) :
    w.client.Quietly (w.onFinished streamId capsule).client := by
  have hretired := Http3Connection.Quietly.retireStream w.client streamId
  unfold PollWork.onFinished
  dsimp only
  split_ifs
  · exact hretired
  · refine hretired.trans ⟨.refl _, fun id hid => ?_, fun _ h => h, fun _ _ h => h⟩
    by_cases heq : id = streamId <;> simpa [Table.contains, Table.get_modify, heq] using hid
  · exact hretired
  all_goals exact hretired.trans (.of_output (.refl _) rfl rfl rfl rfl)

lemma onEvent (hauth : config.basicAuth = true) (h : w.Guarded env) (hdecided : w.Decided)
    {e : Http3Event} (hevent : w.onEvent env config e = some w') : w'.Guarded env := by
  cases e with
  | headers streamId headers =>
    obtain ⟨hreported, hw⟩ := ite_none_left_eq_some.mp hevent
    exact some.inj hw ▸ h.onHeaders hauth hdecided hreported
  | data streamId relayFails =>
    cases hevent
    unfold PollWork.onData
    dsimp only
    split_ifs <;> exact h
  | finished streamId capsule =>
    cases hevent
    have hsame : (w.onFinished streamId capsule).auth = w.auth := by
      unfold PollWork.onFinished
      dsimp only
      split_ifs <;> rfl
    unfold PollWork.Guarded
    rw [hsame]
    exact Http3Connection.Guarded.quietly h (onFinished_quietly capsule)
  | reset streamId =>
    cases hevent
    exact Http3Connection.Guarded.quietly h
      ((Http3Connection.Quietly.retireStream _ streamId).trans (.dropStream _))

lemma finish (h : w.Guarded env) : (w.finish env config).Guarded env [] := by
  have htcp := Http3Connection.Guarded.quietly h (.foldl (f := Http3Connection.resetTcpStream)
    (fun c _ => .resetTcpStream c) w.failedTcp w.client)
  have hip := htcp.quietly (.foldl (f := Http3Connection.teardownIpTunnel)
    (fun c _ => .teardownIpTunnel c) w.closedIp _)
  have happlied := hip.quietly (.applyConnectSetups env config _ w.setups)
  have hspawned :=
    List.foldlRecOn (motive := fun c : Http3Connection => c.Guarded env w.auth) w.auth
    (Http3Connection.spawnAuthVerification env) happlied fun _ hc _ hmem =>
      hc.spawnAuthVerification hmem
  exact { hspawned with parked := fun _ hp => absurd hp not_mem_nil }

end Guarded

end PollWork

namespace Http3Connection

variable {env : Http3Environment Key Digest} {config : RequestConfig} {c c' : Http3Connection}

lemma pollHttp3Events_guarded (hauth : config.basicAuth = true) (h : c.Guarded env [])
    (hdecided : c.Decided []) {events : List Http3Event}
    (hpoll : c.pollHttp3Events env config events = some c') : c'.Guarded env [] := by
  refine pollHttp3Events_cases (P := fun c => c.Guarded env []) hpoll h
    (h.quietly (.expireFirstAuth c env)) fun w hrun => ?_
  have hstart : (PollWork.start c.tick).Guarded env ∧ (PollWork.start c.tick).Decided :=
    ⟨h.quietly (.tick c), hdecided.tick⟩
  have hpreserves : ∀ (w : PollWork) e w', w.Guarded env ∧ w.Decided →
      w.onEvent env config e = some w' → w'.Guarded env ∧ w'.Decided := fun _ _ _ hw hevent =>
    ⟨hw.1.onEvent hauth hw.2 hevent, hw.2.onEvent hevent⟩
  exact (run_preserves hpreserves hstart hrun).1.finish

theorem step_guarded (hauth : config.basicAuth = true) (h : c.Guarded env [])
    (hdecided : c.Decided []) {e : ConnectionEvent} (hstep : c.step env config e = some c') :
    c'.Guarded env [] := by
  cases e with
  | poll events => exact pollHttp3Events_guarded hauth h hdecided hstep
  | authResult streamId authorized relayFails =>
    obtain ⟨pending, hp, rfl⟩ := map_eq_some_iff.mp hstep
    have hremoved : Guarded env { c with tasks := c.tasks.remove streamId } [] := by
      refine { h with tasks := fun id pending hp => h.tasks id pending ?_ }
      rw [Table.get_remove] at hp
      exact (ite_none_left_eq_some.mp hp).2
    exact hremoved.handleAuthResult (h.tasks streamId pending hp).2 authorized relayFails
  | tcpConnected streamId transferFails =>
    cases hstep
    exact h.quietly (.handleTcpConnected c transferFails)
  | tcpFailed streamId status =>
    cases hstep
    exact h.quietly (.handleTcpFailed c)
  | udpPrepared streamId =>
    cases hstep
    exact h.quietly (.handleUdpPrepared c)
  | udpFailed streamId status =>
    cases hstep
    exact h.quietly (.handleUdpFailed c)
  | retryTcp transferFails =>
    cases hstep
    exact h.quietly (.foldl (fun c id => .handleTcpConnected c (transferFails id)) _ c)
  | retryUdp =>
    cases hstep
    exact h.quietly (.foldl (fun c _ => .handleUdpPrepared c) _ c)
  | retryIp =>
    cases hstep
    exact h.quietly (.foldl (fun c _ => .retryIpConnectResponse c) _ c)
  | drive closing =>
    cases hstep
    exact h.quietly (.drive c closing)
  | sweep idle =>
    cases hstep
    exact h.quietly (.cleanupIdleTunnels c idle)
  | resetTcp streamId =>
    cases hstep
    exact h.quietly (.resetTcpStream c)
  | _ =>
    cases hstep
    exact h.quietly (.of_output (.refl _) rfl rfl rfl rfl)

lemma opened_guarded (basicAuth : Bool) : (opened basicAuth).Guarded env [] := by
  refine ⟨fun id headers hmem => ?_, fun id hid => ?_, fun pending hp =>
    ?_, fun id pending hp => ?_,
    justified_nil⟩
  · exact absurd hmem not_mem_nil
  · exact not_mem_nil
  · exact absurd hp not_mem_nil
  · cases hp

omit [DecidableEq Digest] in
lemma handleAuthResult_late (env : Http3Environment Key Digest) (config : RequestConfig)
    {pending : PendingAuth} (authorized relayFails : Bool)
    (hgone : c.awaitingAuth.get pending.streamId = none) :
    ExtendsBy (·.isQuiet = true) c.out.history
      (c.handleAuthResult env config pending authorized relayFails).out.history := by
  have habsent : c.awaitingAuth.contains pending.streamId ≠ true := by simp [Table.contains, hgone]
  have hreceived : c.Quietly (c.receiveOutcome pending authorized) := .log c rfl
  exact handleAuthResult_cases
    (P := fun c' => ExtendsBy (·.isQuiet = true) c.out.history c'.out.history) rfl hreceived.history
    (hreceived.trans (.expireFirstAuth _ env)).history (hreceived.trans (.tick _)).history
    (fun _ hwaits => absurd hwaits habsent) fun _ hwaits => absurd hwaits habsent

/-- Every dispatch is the first of its stream and is cleared by the single credential of the
stream's first header block; an outcome for a request that no longer waits dispatches nothing. -/
structure Gated (env : Http3Environment Key Digest) (config : RequestConfig) (c : Http3Connection) :
    Prop where
  cleared : ∀ before id after, c.out.history = before ++ .dispatched id :: after →
    .dispatched id ∉ before ∧ Cleared env before id
  late : ∀ id authorized relayFails c', c.awaitingAuth.get id = none →
    c.step env config (.authResult id authorized relayFails) = some c' →
      ∃ records, c'.out.history = c.out.history ++ records ∧ ∀ id', .dispatched id' ∉ records

/-- Over all runs of a connection of a listener with Basic authentication, requests are dispatched
through the gate only. -/
theorem http3Requests_gated (env : Http3Environment Key Digest) (config : RequestConfig)
    (hauth : config.basicAuth = true) {events : List ConnectionEvent}
    (hrun : run (step env config) (opened config.basicAuth) events = some c) :
    c.Gated env config := by
  have hpreserves : ∀ (c : Http3Connection) e c', c.Guarded env [] ∧ c.Decided [] →
      c.step env config e = some c' → c'.Guarded env [] ∧ c'.Decided [] := fun c e c' h hstep =>
    ⟨step_guarded hauth h.1 h.2 hstep, step_decided h.2 hstep⟩
  obtain ⟨hguarded, -⟩ := run_preserves hpreserves
    ⟨opened_guarded config.basicAuth, opened_decided config.basicAuth⟩ hrun
  refine ⟨fun before id after heq => hguarded.gate before (.dispatched id) after heq,
    fun id authorized relayFails c' hgone hstep => ?_⟩
  obtain ⟨pending, hp, rfl⟩ := map_eq_some_iff.mp hstep
  obtain ⟨hid, -⟩ := hguarded.tasks id pending hp
  have hgone' : { c with tasks := c.tasks.remove id }.awaitingAuth.get pending.streamId = none :=
    hid ▸ hgone
  obtain ⟨records, heq, hquiet⟩ := handleAuthResult_late env config authorized relayFails hgone'
  exact ⟨records, heq, fun id' hmem => Bool.false_ne_true (hquiet _ hmem)⟩

end Http3Connection

def credentialHeaders : List Header :=
  tcpHeaders ++ [⟨asBytes "proxy-authorization", asBytes "Basic dTpzZWNyZXQ="⟩]

/-- Of three parked requests the first is verified, the second is reset before its outcome and the
third has the wrong outcome. -/
def gatedEvents : List ConnectionEvent :=
  [.poll [.headers 0 credentialHeaders, .headers 4 credentialHeaders, .headers 8 credentialHeaders],
    .poll [.reset 4], .authResult 8 false false, .authResult 4 true false, .authResult 0 true false]

def gatedEnd : Http3Connection :=
  (run (Http3Connection.step smallEnvironment (smallConfig true 2)) (.opened true)
    gatedEvents).get (by decide +kernel)

/-- Only the first is dispatched. -/
theorem http3Requests_gated_verified :
    gatedEnd.Gated smallEnvironment (smallConfig true 2) ∧
      ∀ streamId ∈ [0, 4, 8], .dispatched streamId ∈ gatedEnd.out.history ↔ streamId = 0 :=
  ⟨Http3Connection.http3Requests_gated smallEnvironment (smallConfig true 2) rfl
    (some_get _).symm, by decide +kernel⟩

end MasqueServer
