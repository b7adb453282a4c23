import MasqueServer.Http3Requests
import MasqueServer.ResponseLedger

/-!
# One decision per request of an HTTP/3 connection

The tables of a connection are read as a ledger: a request waits for its authentication, as a
pending tunnel, or in the hands of the handler that is at work on it. Every handler makes only
moves that keep the ledger in order, so a stream gets at most one response, an error status once
chosen is the only one offered from then on, and the kept errors stay within their limit.
-/
namespace MasqueServer

open Bool List Option Table

namespace Http3Connection

variable (c : Http3Connection)

def waiting (hand : List ℕ) (id : ℕ) : ℕ :=
  c.awaitingAuth.holds id + c.pendingTcpTunnels.holds id + c.pendingUdpTunnels.holds id +
    c.pendingIpResponses.holds id + hand.count id

def established (id : ℕ) : ℕ :=
  c.tcpTunnels.holds id + c.udpTunnels.holds id + c.ipTunnels.holds id

/-- A request was admitted if its first header block was taken up. -/
def Admitted (id : ℕ) : Prop :=
  c.requestHeadersSeen.contains id = true ∨ id ∈ c.silent

def ledger (hand : List ℕ) : RequestLedger :=
  ⟨c.waiting hand, c.established, c.Admitted, c.out⟩

/-- The connection is in order while a handler has the streams of `hand` to decide about. -/
def Decided (c : Http3Connection) (hand : List ℕ) : Prop := (c.ledger hand).Decided

variable {Key Digest : Type} {env : Http3Environment Key Digest} {config : RequestConfig}
  {c c' : Http3Connection} {hand hand' : List ℕ} {streamId status : ℕ}

namespace Decided

variable (h : c.Decided hand)
include h

lemma weaken (hwaiting : ∀ id, c'.waiting hand' id ≤ c.waiting hand id)
    (hestablished : ∀ id, c'.established id ≤ c.established id)
    (hadmitted : ∀ id, c.Admitted id → c'.Admitted id) (hout : c.out.Follows c'.out) :
    c'.Decided hand' :=
  RequestLedger.Decided.weaken h hwaiting hestablished hadmitted hout

lemma not_waiting (hfresh : ¬c.Admitted streamId) : c.awaitingAuth.contains streamId = false := by
  by_contra hwaits
  rw [not_eq_false] at hwaits
  have hholds := holds_eq_one hwaits
  refine hfresh (h.admits streamId ?_)
  simp only [RequestLedger.decisions, ledger, waiting]
  omega

lemma drop (hwaiting : ∀ id, c'.waiting hand' id ≤ c.waiting hand id)
    (hestablished : ∀ id, c'.established id ≤ c.established id)
    (hseen : c'.requestHeadersSeen = c.requestHeadersSeen) (hsilent : c'.silent = c.silent)
    (hout : c.out.Follows c'.out) : c'.Decided hand' := by
  refine h.weaken hwaiting hestablished (fun id hid => ?_) hout
  rwa [Admitted, hseen, hsilent]

lemma tick : c.tick.Decided hand :=
  h.drop (fun _ => le_rfl) (fun _ => le_rfl) rfl rfl (.tick c.out)

lemma log {r : RequestRecord} (hr : r.isNeutral = true) : (c.log r).Decided hand :=
  h.drop (fun _ => le_rfl) (fun _ => le_rfl) rfl rfl (.log c.out hr)

lemma authorized : { c with firstAuthDeadline := false }.Decided hand := h

omit h in
lemma send (h : c.Decided (streamId :: hand)) :
    (c.sendErrorResponse env streamId status).Decided hand := by
  have hplace : 0 < (c.ledger (streamId :: hand)).places streamId := by
    simp [ledger, waiting]
  have hsent := RequestLedger.Decided.send h hplace env.answer status
  refine RequestLedger.Decided.weaken hsent (fun id => ?_) (fun _ => le_rfl) (fun _ hid => hid)
    (.refl _)
  simp only [ledger, waiting, RequestLedger.spend, sendErrorResponse, count_cons, beq_iff_eq]
  split_ifs <;> omega

omit h in
lemma putDown (h : c.Decided (streamId :: hand)) : c.Decided hand := by
  refine h.drop (fun id => ?_) (fun _ => le_rfl) rfl rfl (.refl _)
  simp only [waiting, count_cons]
  omega

lemma putAllDown : c.Decided [] := by
  refine h.drop (fun id => ?_) (fun _ => le_rfl) rfl rfl (.refl _)
  simp only [waiting, count_nil]
  omega

lemma resetTcpStream (streamId : ℕ) : (c.resetTcpStream streamId).Decided hand := by
  refine h.drop (fun id => ?_) (fun id => ?_) rfl rfl (.refl _)
  · simp only [waiting, Http3Connection.resetTcpStream, holds_remove]
    split_ifs <;> omega
  · simp only [established, Http3Connection.resetTcpStream, holds_remove]
    split_ifs <;> omega

lemma teardownIpTunnel : (c.teardownIpTunnel streamId).Decided hand := by
  refine h.drop (fun _ => le_rfl) (fun id => ?_) rfl rfl (.refl _)
  simp only [established, Http3Connection.teardownIpTunnel, holds_remove]
  split_ifs <;> omega

lemma dropStream (streamId : ℕ) : (c.dropStream streamId).Decided hand := by
  refine h.drop (fun id => ?_) (fun id => ?_) rfl rfl (.cancel c.out streamId)
  · simp only [waiting, Http3Connection.dropStream, Http3Connection.resetTcpStream, holds_remove]
    split_ifs <;> omega
  · simp only [established, Http3Connection.dropStream, Http3Connection.resetTcpStream,
      holds_remove]
    split_ifs <;> omega

lemma retireStream : (c.retireStream streamId).Decided hand := by
  refine h.weaken (fun _ => le_rfl) (fun _ => le_rfl) (fun id hid => ?_) (.refl _)
  by_cases heq : id = streamId
  · exact .inr (by simp [Http3Connection.retireStream, heq])
  · refine hid.imp (fun hseen => ?_) (mem_append_left [streamId])
    simpa [Http3Connection.retireStream, Table.contains, heq] using hseen

lemma expireFirstAuth (env : Http3Environment Key Digest) :
    (c.expireFirstAuth env).1.Decided hand := by
  unfold Http3Connection.expireFirstAuth
  split_ifs
  · refine h.drop (fun id => ?_) (fun _ => le_rfl) rfl rfl (.tick c.out)
    simp only [waiting, Http3Connection.tick, holds_empty]
    omega
  · exact h.tick

/-! ### Requests -/

omit h in
lemma enter_self (setups : PendingConnectSetups) (streamId : ℕ) :
    c.enter setups setups streamId = c := by
  simp [enter]

lemma takeUp (hfresh : ¬c.Admitted streamId) :
    { c with requestHeadersSeen := c.requestHeadersSeen.put streamId () }.Decided
      (streamId :: hand) := by
  refine RequestLedger.Decided.takeUp h hfresh (fun id => ?_) (fun _ => le_rfl)
    (fun id hid => ?_) rfl
  · simp only [ledger, waiting, count_cons, beq_iff_eq, eq_comm (a := streamId), Nat.add_assoc,
      le_refl]
  · simp only [ledger, Admitted, Table.contains, get_put] at hid ⊢
    by_cases heq : id = streamId
    · simp [heq]
    · simpa [heq] using hid

omit h in
lemma enter {setups setups' : PendingConnectSetups} (h : c.Decided (streamId :: setups.ip))
    (hdispatched : Dispatched env c setups streamId (c', setups')) :
    (c'.enter setups setups' streamId).Decided setups'.ip := by
  have hlogged := h.log (r := .dispatched streamId) rfl
  cases hdispatched with
  | tcp =>
    refine hlogged.drop (fun id => ?_) (fun _ => le_rfl) rfl rfl (.refl _)
    simp only [waiting, Http3Connection.enter, length_append, length_singleton,
      Nat.lt_succ_self, Nat.lt_irrefl, if_true, if_false, holds_put, count_cons, beq_iff_eq]
    split_ifs <;> omega
  | udp =>
    refine hlogged.drop (fun id => ?_) (fun _ => le_rfl) rfl rfl (.refl _)
    simp only [waiting, Http3Connection.enter, length_append, length_singleton,
      Nat.lt_succ_self, Nat.lt_irrefl, if_true, if_false, holds_put, count_cons, beq_iff_eq]
    split_ifs <;> omega
  | ip =>
    refine hlogged.drop (fun id => ?_) (fun _ => le_rfl) rfl rfl (.refl _)
    simp only [waiting, Http3Connection.enter, Nat.lt_irrefl, if_false, count_append,
      count_cons, count_nil]
    omega
  | refused status =>
    rw [enter_self]
    exact hlogged.send

/-! ### Responses that begin a tunnel -/

omit h in
lemma establish (h : c.Decided (streamId :: hand))
    (hwaiting : ∀ id, c'.waiting hand id ≤ c.waiting hand id)
    (hestablished : ∀ id, c'.established id ≤ c.established id + if id = streamId then 1 else 0)
    (hseen : c'.requestHeadersSeen = c.requestHeadersSeen) (hsilent : c'.silent = c.silent)
    (hout : (c.out.log (.offered streamId status false .accepted)).Follows c'.out) :
    c'.Decided hand := by
  have hplace : 0 < (c.ledger (streamId :: hand)).places streamId := by
    simp [ledger, waiting]
  have haccepted := RequestLedger.Decided.establish h hplace status
  refine RequestLedger.Decided.weaken haccepted (fun id => ?_) hestablished (fun id hid => ?_) hout
  · refine (hwaiting id).trans ?_
    simp only [ledger, waiting, RequestLedger.activate, RequestLedger.spend, count_cons,
      beq_iff_eq]
    split_ifs <;> omega
  · simpa only [ledger, RequestLedger.activate, RequestLedger.spend, Admitted, hseen, hsilent] using
      hid

omit h in
lemma refuse (h : c.Decided (streamId :: hand)) (status : ℕ) (answered : ResponseAnswer)
    (hrefused : answered ≠ .accepted) :
    { c with out := c.out.log (.offered streamId status false answered) }.Decided
      (streamId :: hand) := by
  have hplace : 0 < (c.ledger (streamId :: hand)).places streamId := by
    simp [ledger, waiting]
  obtain ⟨hchosen, -⟩ := RequestLedger.Decided.undecided h hplace
  refine RequestLedger.Decided.refuse h (fun status' hmem => ?_) false answered hrefused
  exact absurd hmem (not_mem_of_chosen_eq_zero hchosen)

lemma take
    (hwaiting : ∀ id, c'.waiting hand id + (if id = streamId then 1 else 0) ≤ c.waiting hand id)
    (hestablished : ∀ id, c'.established id ≤ c.established id)
    (hseen : c'.requestHeadersSeen = c.requestHeadersSeen) (hsilent : c'.silent = c.silent)
    (hout : c.out.Follows c'.out) : c'.Decided (streamId :: hand) := by
  refine h.drop (fun id => (Nat.le_of_eq ?_).trans (hwaiting id)) hestablished hseen hsilent hout
  simp only [waiting, count_cons, beq_iff_eq, eq_comm (a := streamId), Nat.add_assoc]

lemma takeTcp (hpending : c.pendingTcpTunnels.contains streamId = true) :
    { c with pendingTcpTunnels := c.pendingTcpTunnels.remove streamId }.Decided
      (streamId :: hand) := by
  refine h.take (fun id => ?_) (fun _ => le_rfl) rfl rfl (.refl _)
  have htaken := holds_remove_add hpending id
  simp only [waiting]
  omega

lemma takeUdp (hpending : c.pendingUdpTunnels.contains streamId = true) :
    { c with pendingUdpTunnels := c.pendingUdpTunnels.remove streamId }.Decided
      (streamId :: hand) := by
  refine h.take (fun id => ?_) (fun _ => le_rfl) rfl rfl (.refl _)
  have htaken := holds_remove_add hpending id
  simp only [waiting]
  omega

lemma takeIp (hpending : c.pendingIpResponses.contains streamId = true) :
    { c with pendingIpResponses := c.pendingIpResponses.remove streamId }.Decided
      (streamId :: hand) := by
  refine h.take (fun id => ?_) (fun _ => le_rfl) rfl rfl (.refl _)
  have htaken := holds_remove_add hpending id
  simp only [waiting]
  omega

lemma takeAwaiting (hwaits : c.awaitingAuth.contains streamId = true) :
    { c with awaitingAuth := c.awaitingAuth.remove streamId }.Decided (streamId :: hand) := by
  refine h.take (fun id => ?_) (fun _ => le_rfl) rfl rfl (.refl _)
  have htaken := holds_remove_add hwaits id
  simp only [waiting]
  omega

lemma handleTcpConnected (transferFails : Bool) :
    (c.handleTcpConnected env streamId transferFails).Decided hand := by
  unfold Http3Connection.handleTcpConnected
  cases hget : c.pendingTcpTunnels.get streamId with
  | none => exact h
  | some pending =>
    have htaken := h.takeTcp (Table.contains_iff.mpr ⟨pending, hget⟩)
    unfold Http3Output.offer
    cases env.answer c.out.clock with
    | accepted =>
      dsimp only
      split_ifs
      · refine Decided.resetTcpStream ?_ streamId
        exact htaken.establish (fun _ => le_rfl) (fun _ => Nat.le_add_right _ _) rfl
          rfl (.refl _)
      · refine htaken.establish (fun _ => le_rfl) (fun id => ?_) rfl rfl (.refl _)
        simp only [established, holds_put]
        split_ifs <;> omega
    | blocked =>
      refine (htaken.refuse 200 .blocked (by decide)).drop (fun id => ?_)
        (fun _ => le_rfl) rfl rfl (.refl _)
      simp only [waiting, holds_put, holds_remove, count_cons, beq_iff_eq]
      split_ifs <;> omega
    | failed =>
      have hfailed := (htaken.refuse 200 .failed (by decide)).putDown
      refine (hfailed.resetTcpStream streamId).drop (fun id => ?_) (fun _ => le_rfl)
        rfl rfl (.refl _)
      simp only [waiting, Http3Connection.resetTcpStream, holds_remove]
      split_ifs <;> omega

lemma handleUdpPrepared : (c.handleUdpPrepared env streamId).Decided hand := by
  unfold Http3Connection.handleUdpPrepared
  split_ifs with hpending
  · have htaken := h.takeUdp hpending
    unfold Http3Output.offer
    cases env.answer c.out.clock with
    | accepted =>
      refine htaken.establish (fun _ => le_rfl) (fun id => ?_) rfl rfl (.refl _)
      simp only [established, holds_put]
      split_ifs <;> omega
    | blocked =>
      refine (htaken.refuse 200 .blocked (by decide)).drop (fun id => ?_)
        (fun _ => le_rfl) rfl rfl (.refl _)
      simp only [waiting, holds_put, holds_remove, count_cons, beq_iff_eq]
      split_ifs <;> omega
    | failed => exact (htaken.refuse 200 .failed (by decide)).putDown
  · exact h

omit h in
lemma setupIpTunnel (h : c.Decided (streamId :: hand)) :
    (c.setupIpTunnel env streamId).Decided hand := by
  unfold Http3Connection.setupIpTunnel
  split_ifs with hleased
  · have hticked := h.tick
    unfold Http3Output.offer
    cases env.answer c.out.tick.clock with
    | accepted =>
      have hestablished : { c.tick with
          out := (c.tick.out.log (.offered streamId 200 false .accepted)).tick
          pendingIpResponses := c.pendingIpResponses.remove streamId
          ipTunnels := c.ipTunnels.put streamId () }.Decided hand := by
        refine hticked.establish (fun id => ?_) (fun id => ?_) rfl rfl (.tick _)
        · simp only [waiting, Http3Connection.tick, holds_remove]
          split_ifs <;> omega
        · simp only [established, Http3Connection.tick, holds_put]
          split_ifs <;> omega
      dsimp only
      split_ifs
      · exact hestablished
      · exact hestablished.teardownIpTunnel
    | blocked =>
      refine (hticked.refuse 200 .blocked (by decide)).drop (fun id => ?_)
        (fun _ => le_rfl) rfl rfl (.refl _)
      simp only [waiting, Http3Connection.tick, holds_put, count_cons, beq_iff_eq]
      split_ifs <;> omega
    | failed => exact (hticked.refuse 200 .failed (by decide)).putDown
  · exact h.tick.send

/-! ### Setups and verifications -/

lemma applyTcpSetup : (c.applyTcpSetup env config streamId).Decided hand := by
  unfold Http3Connection.applyTcpSetup
  split_ifs with habsent
  · exact h
  · rw [not_eq_true, not_eq_false'] at habsent
    exact (h.takeTcp habsent).send
  · exact h

lemma applyUdpSetup : (c.applyUdpSetup env config streamId).Decided hand := by
  unfold Http3Connection.applyUdpSetup
  split_ifs with habsent
  · exact h
  · rw [not_eq_true, not_eq_false'] at habsent
    exact (h.takeUdp habsent).send
  · exact h

omit h in
lemma applyIpSetup (h : c.Decided (streamId :: hand)) :
    (c.applyIpSetup env config streamId).Decided hand := by
  unfold Http3Connection.applyIpSetup
  split_ifs
  · exact h.send
  · exact h.setupIpTunnel

lemma foldl_applyIpSetup : (hand.foldl (Http3Connection.applyIpSetup env config) c).Decided [] := by
  induction hand generalizing c with
  | nil => exact h
  | cons streamId hand ih => exact ih h.applyIpSetup

omit h in
lemma applyConnectSetups {setups : PendingConnectSetups} (h : c.Decided setups.ip) :
    (c.applyConnectSetups env config setups).Decided [] := by
  refine foldl_applyIpSetup ?_
  have htcp := List.foldlRecOn (motive := fun c => c.Decided setups.ip) setups.tcp
    (Http3Connection.applyTcpSetup env config) h fun _ hc _ _ => hc.applyTcpSetup
  exact List.foldlRecOn (motive := fun c => c.Decided setups.ip) setups.udp
    (Http3Connection.applyUdpSetup env config) htcp fun _ hc _ _ => hc.applyUdpSetup

lemma spawnAuthVerification (pending : PendingAuth) :
    (c.spawnAuthVerification env pending).Decided hand := by
  unfold Http3Connection.spawnAuthVerification
  split_ifs with habsent
  · exact h
  · exact h.tick
  · rw [not_eq_true, not_eq_false'] at habsent
    exact (h.takeAwaiting habsent).tick.send

lemma finishPendingTcp (streamId : ℕ) : (c.finishPendingTcp streamId).Decided hand := by
  refine h.drop (fun id => ?_) (fun _ => le_rfl) rfl rfl (.refl _)
  simp only [waiting, Http3Connection.finishPendingTcp, holds_modify, le_refl]

omit h in
lemma resumeRequest {pending : PendingAuth} (h : c.Decided [pending.streamId])
    (clientFinished relayFails : Bool) :
    (c.resumeRequest env config pending clientFinished relayFails).Decided [] := by
  have hopened := h.authorized
  refine resumeRequest_cases (P := fun c => c.Decided []) (fun c' setups hdispatched _ => ?_)
    fun c' setups hdispatched => ?_
  · exact ((enter hopened hdispatched).resetTcpStream pending.streamId).putAllDown
  · have hentered := enter hopened hdispatched
    exact ⟨hentered.applyConnectSetups,
      (hentered.finishPendingTcp pending.streamId).applyConnectSetups⟩

omit h in
lemma handleAuthResult (h : c.Decided []) (pending : PendingAuth) (authorized relayFails : Bool) :
    (c.handleAuthResult env config pending authorized relayFails).Decided [] := by
  have hreceived : (c.receiveOutcome pending authorized).Decided [] := h.log rfl
  have htaken (hwaits : c.awaitingAuth.contains pending.streamId = true) :=
    hreceived.tick.takeAwaiting hwaits
  exact handleAuthResult_cases (P := fun c => c.Decided []) rfl hreceived
    (hreceived.expireFirstAuth env) hreceived.tick (fun _ hwaits => (htaken hwaits).send)
    fun _ hwaits clientFinished => (htaken hwaits).resumeRequest clientFinished relayFails

/-! ### Failures, retries and the sweep -/

lemma handleTcpFailed : (c.handleTcpFailed env streamId status).Decided hand := by
  unfold Http3Connection.handleTcpFailed
  split_ifs with hpending
  · exact (h.takeTcp hpending).send
  · exact h

lemma handleUdpFailed : (c.handleUdpFailed env streamId status).Decided hand := by
  unfold Http3Connection.handleUdpFailed
  split_ifs with hpending
  · exact (h.takeUdp hpending).send
  · exact h

lemma retryTcpConnectResponses (transferFails : ℕ → Bool) :
    (c.retryTcpConnectResponses env transferFails).Decided hand :=
  List.foldlRecOn (motive := fun c : Http3Connection => c.Decided hand)
    c.readyTcp _ h fun _ hc id _ =>
    hc.handleTcpConnected (transferFails id)

lemma retryUdpConnectResponses : (c.retryUdpConnectResponses env).Decided hand :=
  List.foldlRecOn (motive := fun c : Http3Connection => c.Decided hand)
    c.readyUdp _ h fun _ hc _ _ =>
    hc.handleUdpPrepared

lemma retryIpConnectResponses : (c.retryIpConnectResponses env).Decided hand := by
  unfold Http3Connection.retryIpConnectResponses
  rw [foldl_map]
  refine foldl_entries (P := fun c : Http3Connection => c.Decided hand)
    Http3Connection.pendingIpResponses (fun c e hc hpending => ?_)
    (fun c e k hk => retryIpConnectResponse_others hk) h
  exact (hc.takeIp (Table.contains_iff.mpr ⟨_, hpending⟩)).setupIpTunnel

lemma drive (closing : Bool) : (c.drive env closing).Decided hand := by
  have hexpired := h.expireFirstAuth env
  unfold Http3Connection.drive
  dsimp only
  split_ifs
  · exact hexpired.drop (fun _ => le_rfl) (fun _ => le_rfl) rfl rfl (.clear _)
  · exact RequestLedger.Decided.retry hexpired

lemma closeIdlePendingTcp {idle : ℕ → Bool} {e : Sigma fun _ : ℕ => PendingTcpTunnel}
    (hpending : c.pendingTcpTunnels.get e.1 = some e.2) :
    (c.closeIdlePendingTcp env idle e).Decided hand := by
  have htaken := h.takeTcp (Table.contains_iff.mpr ⟨_, hpending⟩)
  unfold Http3Connection.closeIdlePendingTcp
  split_ifs
  · exact h
  · exact htaken.putDown
  · exact htaken.send

lemma closeIdlePendingUdp {idle : ℕ → Bool} {e : Sigma fun _ : ℕ => Bool}
    (hpending : c.pendingUdpTunnels.get e.1 = some e.2) :
    (c.closeIdlePendingUdp env idle e).Decided hand := by
  have htaken := h.takeUdp (Table.contains_iff.mpr ⟨_, hpending⟩)
  unfold Http3Connection.closeIdlePendingUdp
  split_ifs
  · exact h
  · exact htaken.putDown
  · exact htaken.send

lemma cleanupIdleTunnels (idle : ℕ → Bool) : (c.cleanupIdleTunnels env idle).Decided hand := by
  have hexpired : { c with
      out := c.out.expire idle
      pendingIpResponses := c.pendingIpResponses.retain fun id _ => !idle id }.Decided hand := by
    refine h.drop (fun id => ?_) (fun _ => le_rfl) rfl rfl (.expire c.out idle)
    have hip := holds_retain_le (fun id _ => !idle id) c.pendingIpResponses id
    simp only [waiting]
    omega
  have htcp := foldl_entries (P := fun c : Http3Connection => c.Decided hand)
    Http3Connection.pendingTcpTunnels (fun c e hc hpending => hc.closeIdlePendingTcp hpending)
    (fun c e k hk => closeIdlePendingTcp_others env idle hk) hexpired
  have hudp := foldl_entries (P := fun c : Http3Connection => c.Decided hand)
    Http3Connection.pendingUdpTunnels (fun c e hc hpending => hc.closeIdlePendingUdp hpending)
    (fun c e k hk => closeIdlePendingUdp_others env idle hk) htcp
  refine hudp.drop (fun _ => le_rfl) (fun id => ?_) rfl rfl (.refl _)
  simp only [established]
  exact Nat.add_le_add (Nat.add_le_add (holds_retain_le _ _ id) (holds_retain_le _ _ id))
    (holds_retain_le _ _ id)

end Decided

end Http3Connection

namespace PollWork

variable {Key Digest : Type} [DecidableEq Digest] {env : Http3Environment Key Digest}
  {config : RequestConfig} {c : Http3Connection} {w w' : PollWork} {streamId : ℕ}

def Decided (w : PollWork) : Prop := w.client.Decided w.setups.ip

omit [DecidableEq Digest] in
lemma makeRoom_admitted (id : ℕ) : (makeRoom env c).Admitted id ↔ c.Admitted id := by
  unfold makeRoom
  split_ifs
  · rfl
  · have hkeys : id ∈ c.requestHeadersSeen.entries.map (·.1) ↔
        c.requestHeadersSeen.contains id = true := contains_iff_mem_keys.symm
    simp only [Http3Connection.Admitted, mem_append, mem_filter, hkeys]
    cases hseen : c.requestHeadersSeen.get id with
    | none => simp [Table.contains, hseen]
    | some seen => cases hclosed :
      env.streamClosed c.out.clock id <;> simp [Table.contains, hseen, hclosed]

omit [DecidableEq Digest] in
lemma makeRoom_decided {hand : List ℕ} (h : c.Decided hand) : (makeRoom env c).Decided hand := by
  refine h.weaken (fun id => ?_) (fun id => ?_) (fun id => (makeRoom_admitted id).mpr) ?_
  all_goals
    unfold makeRoom
    split_ifs
  exacts [le_rfl, le_rfl, le_rfl, le_rfl, .refl _, .tick _]

namespace Decided

omit [DecidableEq Digest] in
lemma park (pending : PendingAuth) (h : c.Decided (pending.streamId :: w.setups.ip)) :
    ({ w with client := c }.park env (some pending)).client.Decided w.setups.ip := by
  unfold PollWork.park
  dsimp only
  split_ifs
  · exact h.send
  · refine h.drop (fun id => ?_) (fun _ => le_rfl) rfl rfl (.refl _)
    simp only [Http3Connection.waiting, holds_put, count_cons, beq_iff_eq]
    split_ifs <;> omega

lemma handled {headers : List Header} {setups : PendingConnectSetups} {pending : Option PendingAuth}
    {c' : Http3Connection} (h : c.Decided (streamId :: w.setups.ip))
    (hhandled : c.Handled env config w.setups streamId headers (c', setups, pending)) :
    PollWork.Decided { { w with client := c' }.park env pending with
      client := ({ w with client := c' }.park env pending).client.enter w.setups setups streamId
      setups := setups } := by
  cases hhandled with
  | refused status =>
    rw [Http3Connection.Decided.enter_self]
    exact h.send
  | overdue =>
    rw [Http3Connection.Decided.enter_self]
    exact h.tick.putDown
  | unguarded _ hdispatched => exact h.enter hdispatched
  | hit _ _ hdispatched => exact ((h.log rfl).authorized).enter hdispatched
  | parked request _ _ =>
    rw [Http3Connection.Decided.enter_self]
    exact park ⟨streamId, _, _, request⟩ (h.log (r := .parked ..) rfl)

lemma onHeaders (h : w.Decided) {headers : List Header} (hreported : streamId ∉ w.client.silent) :
    (w.onHeaders env config streamId headers).Decided := by
  have hlogged : (w.client.log (.block streamId headers)).Decided w.setups.ip := h.log rfl
  refine onHeaders_cases (fun _ => hlogged) (fun _ => ?_) (fun _ => hlogged) (fun c hc => ?_)
    fun c c' setups pending hc hseen hhandled => ?_
  · refine (hlogged.dropStream streamId).drop (fun id => ?_) (fun _ => le_rfl) rfl rfl
      (.refl _)
    exact Nat.add_le_add_left (filter_sublist.count_le id) _
  · subst hc
    refine (makeRoom_decided hlogged).weaken (fun _ => le_rfl) (fun _ => le_rfl) (fun id hid => ?_)
      (.refl _)
    exact hid.imp_right (mem_append_left [streamId])
  · subst hc
    refine handled ((makeRoom_decided hlogged).takeUp ?_) hhandled
    rw [makeRoom_admitted]
    rintro (hadmitted | hsilent)
    · exact Bool.false_ne_true (hseen.symm.trans hadmitted)
    · exact hreported hsilent

omit [DecidableEq Digest] in
lemma onFinished (h : w.Decided) (capsule : Bool) : (w.onFinished streamId capsule).Decided := by
  have hretired : (w.client.retireStream streamId).Decided w.setups.ip := h.retireStream
  unfold PollWork.onFinished
  dsimp only
  split_ifs
  · exact hretired
  · refine hretired.drop (fun id => ?_) (fun _ => le_rfl) rfl rfl (.refl _)
    simp only [Http3Connection.waiting, holds_modify, le_refl]
  · exact hretired
  all_goals
    refine (hretired.finishPendingTcp streamId).drop (fun _ => le_rfl) (fun id => ?_)
      rfl rfl (.refl _)
    simp only [Http3Connection.established, Http3Connection.finishPendingTcp, holds_remove]
    split_ifs <;> omega

omit [DecidableEq Digest] in
lemma onReset (h : w.Decided) : (w.onReset streamId).Decided :=
  Http3Connection.Decided.dropStream (Http3Connection.Decided.retireStream h) streamId

lemma onEvent (h : w.Decided) {e : Http3Event} (hevent : w.onEvent env config e = some w') :
    w'.Decided := by
  cases e with
  | headers streamId headers =>
    obtain ⟨hreported, hw⟩ := ite_none_left_eq_some.mp hevent
    exact some.inj hw ▸ h.onHeaders hreported
  | data streamId relayFails =>
    cases hevent
    unfold PollWork.onData
    dsimp only
    split_ifs <;> exact h
  | finished streamId capsule =>
    cases hevent
    exact h.onFinished capsule
  | reset streamId =>
    cases hevent
    exact h.onReset

omit [DecidableEq Digest] in
lemma finish (h : w.Decided) : (w.finish env config).Decided [] := by
  have htcp := List.foldlRecOn (motive :=
    fun c : Http3Connection => c.Decided w.setups.ip) w.failedTcp
    Http3Connection.resetTcpStream h fun _ hc id _ => hc.resetTcpStream id
  have hip := List.foldlRecOn (motive :=
    fun c : Http3Connection => c.Decided w.setups.ip) w.closedIp
    Http3Connection.teardownIpTunnel htcp fun _ hc _ _ => hc.teardownIpTunnel
  exact List.foldlRecOn (motive := fun c : Http3Connection => c.Decided []) w.auth
    (Http3Connection.spawnAuthVerification env) hip.applyConnectSetups fun _ hc pending _ =>
      hc.spawnAuthVerification pending

end Decided

end PollWork

namespace Http3Connection

variable {Key Digest : Type} [DecidableEq Digest] {env : Http3Environment Key Digest}
  {config : RequestConfig} {c c' : Http3Connection}

lemma pollHttp3Events_decided (h : c.Decided []) {events : List Http3Event}
    (hpoll : c.pollHttp3Events env config events = some c') : c'.Decided [] := by
  refine pollHttp3Events_cases (P := fun c => c.Decided []) hpoll h (h.expireFirstAuth env)
    fun w hrun => ?_
  have hstart : (PollWork.start c.tick).Decided := h.tick
  have hpreserves : ∀ w e w', PollWork.Decided w → w.onEvent env config e = some w' → w'.Decided :=
    fun _ _ _ hw => hw.onEvent
  exact (run_preserves hpreserves hstart hrun).finish

theorem step_decided (h : c.Decided []) {e : ConnectionEvent}
    (hstep : c.step env config e = some c') : c'.Decided [] := by
  cases e with
  | poll events => exact pollHttp3Events_decided h hstep
  | authResult streamId authorized relayFails =>
    obtain ⟨pending, -, rfl⟩ := map_eq_some_iff.mp hstep
    have hremoved : { c with tasks := c.tasks.remove streamId }.Decided [] := h
    exact hremoved.handleAuthResult pending authorized relayFails
  | tcpConnected streamId transferFails =>
    cases hstep
    exact h.handleTcpConnected transferFails
  | tcpFailed streamId status =>
    cases hstep
    exact h.handleTcpFailed
  | udpPrepared streamId =>
    cases hstep
    exact h.handleUdpPrepared
  | udpFailed streamId status =>
    cases hstep
    exact h.handleUdpFailed
  | retryTcp transferFails =>
    cases hstep
    exact h.retryTcpConnectResponses transferFails
  | retryUdp =>
    cases hstep
    exact h.retryUdpConnectResponses
  | retryIp =>
    cases hstep
    exact h.retryIpConnectResponses
  | drive closing =>
    cases hstep
    exact h.drive closing
  | sweep idle =>
    cases hstep
    exact h.cleanupIdleTunnels idle
  | resetTcp streamId =>
    cases hstep
    exact h.resetTcpStream streamId
  | tcpEnded streamId =>
    cases hstep
    refine h.drop (fun _ => le_rfl) (fun id => ?_) rfl rfl (.refl _)
    simp only [established, holds_remove]
    split_ifs <;> omega
  | udpEnded streamId =>
    cases hstep
    refine h.drop (fun _ => le_rfl) (fun id => ?_) rfl rfl (.refl _)
    simp only [established, holds_remove]
    split_ifs <;> omega
  | capsuleClosed streamId =>
    cases hstep
    refine h.drop (fun id => ?_) (fun id => ?_) rfl rfl (.refl _)
    · simp only [waiting, holds_remove]
      split_ifs <;> omega
    · simp only [established, holds_remove]
      split_ifs <;> omega
  | close =>
    cases hstep
    exact h

lemma opened_decided (basicAuth : Bool) : (opened basicAuth).Decided [] :=
  RequestLedger.Decided.opened fun _ => rfl

/-- At most one response header block is accepted for a stream. Once an error status is chosen
for it, no other status is offered, and it has no pending or active tunnel. The kept error
responses never were more than sixty-four. -/
structure OneDecision (c : Http3Connection) : Prop where
  single : ∀ id, responses c.out.history id ≤ 1
  settled : ∀ before id status whole answer after,
    c.out.history = before ++ .offered id status whole answer :: after →
      ∀ status', .chose id status' ∈ before → status' = status
  cleared : ∀ id status, .chose id status ∈ c.out.history →
    c.awaitingAuth.get id = none ∧ c.pendingTcpTunnels.get id = none ∧
      c.tcpTunnels.get id = none ∧ c.pendingUdpTunnels.get id = none ∧
      c.udpTunnels.get id = none ∧ c.pendingIpResponses.get id = none ∧ c.ipTunnels.get id = none
  bounded : c.out.pendingErrors.size ≤ c.out.peak ∧ c.out.peak ≤ 64

lemma Decided.oneDecision (h : c.Decided []) : c.OneDecision := by
  refine ⟨fun id => ?_, fun before id status whole answer after heq => ?_, fun id status hmem => ?_,
    h.size_le, h.peak_le⟩
  · have honce := h.once id
    have hanswered := h.answered_le id
    simp only [RequestLedger.decisions, ledger] at honce hanswered
    rw [responses_eq]
    omega
  · exact h.keepsChoice before (.offered id status whole answer) after heq
  · have honce := h.once id
    have hactive := h.active_le id
    have hchosen := chosen_pos hmem
    simp only [RequestLedger.decisions, ledger, waiting, established] at honce hactive
    refine ⟨?_, ?_, ?_, ?_, ?_, ?_, ?_⟩ <;>
      exact get_eq_none_of_holds (by omega)

/-- Over all runs of a connection, every request has one decision. -/
theorem http3Requests_oneDecision (env : Http3Environment Key Digest) (config : RequestConfig)
    {events : List ConnectionEvent}
    (hrun : run (step env config) (opened config.basicAuth) events = some c) : c.OneDecision :=
  (run_preserves (fun _ _ _ h => step_decided h) (opened_decided config.basicAuth) hrun).oneDecision

end Http3Connection

/-! ### A small connection -/

/-- One user with the credential `u:secret`; no response is taken before the tenth moment. -/
def smallEnvironment : Http3Environment Unit Bytes where
  primitives :=
    { decodeBase64 := fun text =>
        if text = asBytes "dTpzZWNyZXQ=" then some (asBytes "u:secret") else none
      hmac := fun _ message => message
      phcAlgorithm := fun _ => some "argon2id"
      verifyPassword := fun _ password => password = asBytes "secret"
      hmac_injective := fun _ _ _ h => h }
  auth _ := ⟨(∅ : BasicAuthenticator).put (asBytes "u") 0, 
    [⟨"$argon2id$v=19$m=19456,t=2,p=1$c2FsdHNhbHQ$aGFzaGhhc2g", ()⟩], ∅, [], ∅, ∅, 0⟩
  answer moment := if moment < 10 then .blocked else .accepted
  streamClosed _ _ := false
  deadlinePassed _ := false
  slotFree _ := true
  leased _ := true
  queued _ := true

def smallConfig (basicAuth : Bool) (maxTunnels : ℕ) : RequestConfig where
  basicAuth := basicAuth
  tcpEnabled := true
  udpEnabled := true
  ipEnabled := true
  connectProtocols := [asBytes "connect-ip"]
  maxTunnels := maxTunnels
  parseConnectAuthority _ := true
  parseUdpPath _ := true
  parseIpPath _ := some ⟨false, false⟩

def tcpHeaders : List Header :=
  [⟨asBytes ":method", asBytes "CONNECT"⟩, ⟨asBytes ":authority", asBytes "target:443"⟩]

def blockedEvents : List ConnectionEvent :=
  [.poll [.headers 0 tcpHeaders, .headers 4 []], .tcpConnected 0 false, .drive false,
    .retryTcp fun _ => false]

theorem http3Requests_oneDecision_blocked :
    ((run (Http3Connection.step smallEnvironment (smallConfig false 2)) (.opened false)
      blockedEvents).get (by decide +kernel)).OneDecision :=
  Http3Connection.http3Requests_oneDecision smallEnvironment (smallConfig false 2)
    (some_get _).symm

end MasqueServer
