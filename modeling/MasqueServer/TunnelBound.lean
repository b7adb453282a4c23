import MasqueServer.DecisionSafety

/-!
# The tunnel limit of an HTTP/3 connection

TCP and UDP tunnels are entered while the header blocks of a poll are read, and checked against
the limit behind them; IP tunnels are checked before they are entered. Between the two, the
tunnels that this poll has not staged stay within the limit, and each setup that is applied
makes one more stream count.
-/
namespace MasqueServer

open List Option Table

namespace Http3Connection

def unstaged (c : Http3Connection) (tcp udp : List ℕ) : ℕ :=
  c.pendingTcpTunnels.outside tcp + c.tcpTunnels.size + c.pendingUdpTunnels.outside udp +
    c.udpTunnels.size + c.ipTunnels.size + c.pendingIpResponses.size

variable {Key Digest : Type} {env : Http3Environment Key Digest} {config : RequestConfig}
  {c c' : Http3Connection} {tcp udp : List ℕ} {streamId status : ℕ}

lemma unstaged_nil (c : Http3Connection) : c.unstaged [] [] = c.tunnels := by
  simp only [unstaged, tunnels, outside_nil]

lemma unstaged_le_tunnels (c : Http3Connection) (tcp udp : List ℕ) :
    c.unstaged tcp udp ≤ c.tunnels := by
  have htcp := c.pendingTcpTunnels.outside_le_size tcp
  have hudp := c.pendingUdpTunnels.outside_le_size udp
  simp only [unstaged, tunnels]
  omega

/-! ### What removes entries -/

lemma resetTcpStream_unstaged (c : Http3Connection) (streamId : ℕ) (tcp udp : List ℕ) :
    (c.resetTcpStream streamId).unstaged tcp udp ≤ c.unstaged tcp udp := by
  have hpending := c.pendingTcpTunnels.outside_remove_le streamId tcp
  have hactive := c.tcpTunnels.size_remove_le streamId
  simp only [unstaged, resetTcpStream]
  omega

lemma teardownIpTunnel_unstaged :
    (c.teardownIpTunnel streamId).unstaged tcp udp ≤ c.unstaged tcp udp := by
  have hactive := c.ipTunnels.size_remove_le streamId
  simp only [unstaged, teardownIpTunnel]
  omega

lemma dropStream_unstaged : (c.dropStream streamId).unstaged tcp udp ≤ c.unstaged tcp udp := by
  have hpendingTcp := c.pendingTcpTunnels.outside_remove_le streamId tcp
  have htcp := c.tcpTunnels.size_remove_le streamId
  have hpendingUdp := c.pendingUdpTunnels.outside_remove_le streamId udp
  have hudp := c.udpTunnels.size_remove_le streamId
  have hip := c.pendingIpResponses.size_remove_le streamId
  simp only [unstaged, dropStream, resetTcpStream]
  omega

lemma expireFirstAuth_unstaged :
    (c.expireFirstAuth env).1.unstaged tcp udp = c.unstaged tcp udp := by
  unfold expireFirstAuth
  split_ifs <;> rfl

lemma finishPendingTcp_unstaged (c : Http3Connection) (streamId : ℕ) (tcp udp : List ℕ) :
    (c.finishPendingTcp streamId).unstaged tcp udp ≤ c.unstaged tcp udp := by
  have hpending := c.pendingTcpTunnels.outside_modify_le streamId
    (fun pending => { pending with clientFinished := true }) tcp
  simp only [unstaged, finishPendingTcp]
  omega

/-! ### Staging and applying setups -/

lemma enter_unstaged {setups setups' : PendingConnectSetups}
    (hdispatched : Dispatched env c setups streamId (c', setups')) :
    (c'.enter setups setups' streamId).unstaged setups'.tcp setups'.udp ≤
      c.unstaged setups.tcp setups.udp := by
  cases hdispatched with
  | tcp =>
    have hstaged := c.pendingTcpTunnels.outside_put_concat streamId .staging setups.tcp
    simp only [unstaged, enter, log, length_append, length_singleton, Nat.lt_succ_self,
      Nat.lt_irrefl, if_true, if_false]
    omega
  | udp =>
    have hstaged := c.pendingUdpTunnels.outside_put_concat streamId false setups.udp
    simp only [unstaged, enter, log, length_append, length_singleton, Nat.lt_succ_self,
      Nat.lt_irrefl, if_true, if_false]
    omega
  | ip =>
    simp only [unstaged, enter, log, Nat.lt_irrefl, if_false]
    exact le_rfl
  | refused status =>
    rw [Decided.enter_self]
    exact le_rfl

/-- The limit holds for all tunnels apart from the staged ones. -/
def Within (config : RequestConfig) (c : Http3Connection) (tcp udp : List ℕ) : Prop :=
  c.unstaged tcp udp ≤ config.maxTunnels

lemma within_of_tunnelCount (h : c.tunnelCount ≤ config.maxTunnels) : c.Within config tcp udp := by
  have hle := c.unstaged_le_tunnels tcp udp
  unfold tunnelCount at h
  unfold Within
  omega

lemma applyTcpSetup_within (h : c.Within config (streamId :: tcp) udp) :
    (c.applyTcpSetup env config streamId).Within config tcp udp := by
  unfold applyTcpSetup
  split_ifs with habsent hlimit
  · rw [Bool.not_eq_true'] at habsent
    have hle := outside_le_cons habsent tcp
    unfold Within unstaged at h ⊢
    omega
  · have hle := outside_remove_cons c.pendingTcpTunnels streamId tcp
    simp only [Within, unstaged, sendErrorResponse] at h ⊢
    omega
  · exact within_of_tunnelCount (Nat.le_of_not_lt hlimit)

lemma applyUdpSetup_within (h : c.Within config tcp (streamId :: udp)) :
    (c.applyUdpSetup env config streamId).Within config tcp udp := by
  unfold applyUdpSetup
  split_ifs with habsent hlimit
  · rw [Bool.not_eq_true'] at habsent
    have hle := outside_le_cons habsent udp
    unfold Within unstaged at h ⊢
    omega
  · have hle := outside_remove_cons c.pendingUdpTunnels streamId udp
    simp only [Within, unstaged, sendErrorResponse] at h ⊢
    omega
  · exact within_of_tunnelCount (Nat.le_of_not_lt hlimit)

lemma setupIpTunnel_unstaged (env : Http3Environment Key Digest) (c : Http3Connection)
    (streamId : ℕ) (tcp udp : List ℕ) :
    (c.setupIpTunnel env streamId).unstaged tcp udp ≤ c.unstaged tcp udp + 1 := by
  have hput := c.ipTunnels.size_put_le streamId ()
  have hremove := c.pendingIpResponses.size_remove_le streamId
  have hblocked := c.pendingIpResponses.size_put_le streamId ()
  unfold setupIpTunnel Http3Output.offer
  split_ifs
  · cases env.answer c.out.tick.clock with
    | accepted =>
      dsimp only
      split_ifs
      · simp only [unstaged]
        omega
      · refine teardownIpTunnel_unstaged.trans ?_
        simp only [unstaged]
        omega
    | blocked =>
      simp only [unstaged]
      omega
    | failed =>
      simp only [unstaged]
      omega
  · simp only [unstaged, tick, sendErrorResponse]
    omega

lemma applyIpSetup_within (h : c.Within config [] []) :
    (c.applyIpSetup env config streamId).Within config [] [] := by
  unfold applyIpSetup
  split_ifs with hlimit
  · exact h
  · have hadds := setupIpTunnel_unstaged env c streamId [] []
    have hle := c.unstaged_le_tunnels [] []
    unfold tunnelCount at hlimit
    unfold Within
    omega

lemma applyConnectSetups_within {setups : PendingConnectSetups}
    (h : c.Within config setups.tcp setups.udp) :
    (c.applyConnectSetups env config setups).Within config [] [] := by
  have htcp : ∀ (tcp : List ℕ) (c : Http3Connection), c.Within config tcp setups.udp →
      (tcp.foldl (applyTcpSetup env config) c).Within config [] setups.udp := by
    intro tcp
    induction tcp with
    | nil => exact fun _ hc => hc
    | cons streamId tcp ih => exact fun c hc => ih _ (applyTcpSetup_within hc)
  have hudp : ∀ (udp : List ℕ) (c : Http3Connection), c.Within config [] udp →
      (udp.foldl (applyUdpSetup env config) c).Within config [] [] := by
    intro udp
    induction udp with
    | nil => exact fun _ hc => hc
    | cons streamId udp ih => exact fun c hc => ih _ (applyUdpSetup_within hc)
  exact List.foldlRecOn (motive := fun c : Http3Connection => c.Within config [] []) setups.ip
    (applyIpSetup env config) (hudp _ _ (htcp _ _ h)) fun _ hc _ _ => applyIpSetup_within hc

lemma spawnAuthVerification_unstaged (pending : PendingAuth) :
    (c.spawnAuthVerification env pending).unstaged tcp udp = c.unstaged tcp udp := by
  unfold spawnAuthVerification
  split_ifs <;> rfl

/-! ### Outcomes of verifications and target setups -/

lemma resetTcpStream_within (h : c.Within config [streamId] udp) :
    (c.resetTcpStream streamId).Within config [] udp := by
  have hpending := c.pendingTcpTunnels.outside_remove_cons streamId []
  have hactive := c.tcpTunnels.size_remove_le streamId
  simp only [Within, unstaged, resetTcpStream] at h ⊢
  omega

lemma resumeRequest_within (h : c.Within config [] []) {pending : PendingAuth}
    (clientFinished relayFails : Bool) :
    (c.resumeRequest env config pending clientFinished relayFails).Within config [] [] := by
  refine resumeRequest_cases (P := fun c => c.Within config [] [])
    (fun c' setups hdispatched htcp => ?_) fun c' setups hdispatched => ?_
  · have hentered := (enter_unstaged hdispatched).trans h
    cases hdispatched with
    | tcp => exact resetTcpStream_within hentered
    | _ => exact absurd rfl htcp
  · have hentered : (c'.enter .none setups pending.streamId).Within config setups.tcp setups.udp :=
      (enter_unstaged hdispatched).trans h
    exact ⟨applyConnectSetups_within hentered,
      applyConnectSetups_within ((finishPendingTcp_unstaged ..).trans hentered)⟩

lemma handleAuthResult_within (h : c.Within config [] []) (pending : PendingAuth)
    (authorized relayFails : Bool) :
    (c.handleAuthResult env config pending authorized relayFails).Within config [] [] := by
  have hreceived : (c.receiveOutcome pending authorized).Within config [] [] := h
  refine handleAuthResult_cases (P := fun c => c.Within config [] []) rfl hreceived
    (expireFirstAuth_unstaged.trans_le hreceived) h (fun _ _ => h) fun _ _ clientFinished => ?_
  have htaken : { (c.receiveOutcome pending authorized).tick with
      awaitingAuth := c.awaitingAuth.remove pending.streamId }.Within config [] [] := h
  exact resumeRequest_within htaken clientFinished relayFails

lemma handleTcpConnected_tunnels (transferFails : Bool) :
    (c.handleTcpConnected env streamId transferFails).tunnels ≤ c.tunnels := by
  unfold handleTcpConnected
  cases hget : c.pendingTcpTunnels.get streamId with
  | none => exact le_rfl
  | some pending =>
    have hpending := Table.contains_iff.mpr ⟨pending, hget⟩
    have hremove := size_remove_add_one hpending
    have hput := c.tcpTunnels.size_put_le streamId ()
    have hactive := c.tcpTunnels.size_remove_le streamId
    have htwice := (c.pendingTcpTunnels.remove streamId).size_remove_le streamId
    unfold Http3Output.offer
    cases env.answer c.out.clock with
    | accepted =>
      dsimp only
      split_ifs
      · simp only [tunnels, resetTcpStream]
        omega
      · simp only [tunnels]
        omega
    | blocked =>
      have hsame := size_put_le_of_contains hpending { pending with connected := true }
      simp only [tunnels]
      omega
    | failed =>
      simp only [tunnels, resetTcpStream]
      omega

lemma handleUdpPrepared_tunnels : (c.handleUdpPrepared env streamId).tunnels ≤ c.tunnels := by
  unfold handleUdpPrepared
  split_ifs with hpending
  · have hremove := size_remove_add_one hpending
    have hput := c.udpTunnels.size_put_le streamId ()
    have hsame := size_put_le_of_contains hpending true
    unfold Http3Output.offer
    cases env.answer c.out.clock with
    | _ =>
      simp only [tunnels]
      omega
  · exact le_rfl

lemma handleTcpFailed_tunnels : (c.handleTcpFailed env streamId status).tunnels ≤ c.tunnels := by
  have hremove := c.pendingTcpTunnels.size_remove_le streamId
  unfold handleTcpFailed
  split_ifs
  · simp only [tunnels, sendErrorResponse]
    omega
  · exact le_rfl

lemma handleUdpFailed_tunnels : (c.handleUdpFailed env streamId status).tunnels ≤ c.tunnels := by
  have hremove := c.pendingUdpTunnels.size_remove_le streamId
  unfold handleUdpFailed
  split_ifs
  · simp only [tunnels, sendErrorResponse]
    omega
  · exact le_rfl

/-! ### Retries and the sweep -/

lemma retryTcpConnectResponses_tunnels (transferFails : ℕ → Bool) :
    (c.retryTcpConnectResponses env transferFails).tunnels ≤ c.tunnels :=
  List.foldlRecOn (motive := fun c' : Http3Connection => c'.tunnels ≤ c.tunnels) c.readyTcp _ le_rfl
    fun _ hc id _ => (handleTcpConnected_tunnels (transferFails id)).trans hc

lemma retryUdpConnectResponses_tunnels : (c.retryUdpConnectResponses env).tunnels ≤ c.tunnels :=
  List.foldlRecOn (motive := fun c' : Http3Connection => c'.tunnels ≤ c.tunnels) c.readyUdp _ le_rfl
    fun _ hc _ _ => handleUdpPrepared_tunnels.trans hc

lemma retryIpConnectResponses_tunnels : (c.retryIpConnectResponses env).tunnels ≤ c.tunnels := by
  unfold retryIpConnectResponses
  rw [foldl_map]
  refine foldl_entries (P := fun c' : Http3Connection => c'.tunnels ≤ c.tunnels)
    Http3Connection.pendingIpResponses (fun c₁ e hc hpending => ?_)
    (fun c e k hk => retryIpConnectResponse_others hk) le_rfl
  have hremove := size_remove_add_one (Table.contains_iff.mpr ⟨e.2, hpending⟩)
  have hsetup := setupIpTunnel_unstaged env
    { c₁ with pendingIpResponses := c₁.pendingIpResponses.remove e.1 } e.1 [] []
  rw [unstaged_nil, unstaged_nil] at hsetup
  unfold retryIpConnectResponse
  simp only [tunnels] at hsetup hc ⊢
  omega

lemma closeIdlePendingTcp_tunnels {idle : ℕ → Bool} {e : Sigma fun _ : ℕ => PendingTcpTunnel} :
    (c.closeIdlePendingTcp env idle e).tunnels ≤ c.tunnels := by
  have hremove := c.pendingTcpTunnels.size_remove_le e.1
  unfold closeIdlePendingTcp
  split_ifs <;> simp only [tunnels, sendErrorResponse] <;> omega

lemma closeIdlePendingUdp_tunnels {idle : ℕ → Bool} {e : Sigma fun _ : ℕ => Bool} :
    (c.closeIdlePendingUdp env idle e).tunnels ≤ c.tunnels := by
  have hremove := c.pendingUdpTunnels.size_remove_le e.1
  unfold closeIdlePendingUdp
  split_ifs <;> simp only [tunnels, sendErrorResponse] <;> omega

lemma cleanupIdleTunnels_tunnels (idle : ℕ → Bool) :
    (c.cleanupIdleTunnels env idle).tunnels ≤ c.tunnels := by
  have hexpired : { c with
      out := c.out.expire idle
      pendingIpResponses := c.pendingIpResponses.retain fun id _ => !idle id }.tunnels ≤
      c.tunnels := by
    have hip := size_retain_le (fun id _ => !idle id) c.pendingIpResponses
    simp only [tunnels]
    omega
  have htcp := List.foldlRecOn (motive := fun c' : Http3Connection => c'.tunnels ≤ c.tunnels)
    c.pendingTcpTunnels.entries (closeIdlePendingTcp env idle) hexpired fun _ hc _ _ =>
      closeIdlePendingTcp_tunnels.trans hc
  unfold cleanupIdleTunnels
  dsimp only
  generalize List.foldl (closeIdlePendingTcp env idle) _ _ = c₁ at htcp ⊢
  have hudp := List.foldlRecOn (motive := fun c' : Http3Connection => c'.tunnels ≤ c.tunnels)
    c₁.pendingUdpTunnels.entries (closeIdlePendingUdp env idle) htcp fun _ hc _ _ =>
      closeIdlePendingUdp_tunnels.trans hc
  generalize List.foldl (closeIdlePendingUdp env idle) _ _ = c₂ at hudp ⊢
  have hactiveTcp := size_retain_le (fun id _ => !idle id) c₂.tcpTunnels
  have hactiveUdp := size_retain_le (fun id _ => !idle id) c₂.udpTunnels
  have hactiveIp := size_retain_le (fun id _ => !idle id) c₂.ipTunnels
  simp only [tunnels] at hudp ⊢
  omega

lemma drive_tunnels (closing : Bool) : (c.drive env closing).tunnels = c.tunnels := by
  have hexpired : (c.expireFirstAuth env).1.tunnels = c.tunnels := by
    rw [← unstaged_nil, expireFirstAuth_unstaged, unstaged_nil]
  unfold drive
  dsimp only
  split_ifs <;> exact hexpired

end Http3Connection

namespace PollWork

variable {Key Digest : Type} {env : Http3Environment Key Digest} {config : RequestConfig}
  {c : Http3Connection} {w w' : PollWork} {streamId : ℕ}

def unstaged (w : PollWork) : ℕ := w.client.unstaged w.setups.tcp w.setups.udp

lemma makeRoom_unstaged {tcp udp : List ℕ} :
    (makeRoom env c).unstaged tcp udp = c.unstaged tcp udp := by
  unfold makeRoom
  split_ifs <;> rfl

lemma park_unstaged {pending : Option PendingAuth} {tcp udp : List ℕ} :
    (w.park env pending).client.unstaged tcp udp = w.client.unstaged tcp udp := by
  unfold park
  cases pending with
  | none => rfl
  | some pending =>
    dsimp only
    split_ifs <;> rfl

lemma onFinished_unstaged (capsule : Bool) :
    (w.onFinished streamId capsule).unstaged ≤ w.unstaged := by
  have hudp := w.client.udpTunnels.size_remove_le streamId
  have hfinished := (w.client.retireStream streamId).finishPendingTcp_unstaged streamId
    w.setups.tcp w.setups.udp
  unfold onFinished
  dsimp only
  split_ifs
  · exact le_rfl
  · exact le_rfl
  · exact le_rfl
  all_goals
    simp only [unstaged, Http3Connection.unstaged, Http3Connection.finishPendingTcp,
      Http3Connection.retireStream] at hfinished ⊢
    omega

lemma finish_within (h : w.unstaged ≤ config.maxTunnels) :
    (w.finish env config).Within config [] [] := by
  have htcp := List.foldlRecOn
    (motive := fun c : Http3Connection => c.Within config w.setups.tcp w.setups.udp) w.failedTcp
    Http3Connection.resetTcpStream h fun _ hc _ _ =>
      (Http3Connection.resetTcpStream_unstaged ..).trans hc
  have hip := List.foldlRecOn
    (motive := fun c : Http3Connection => c.Within config w.setups.tcp w.setups.udp) w.closedIp
    Http3Connection.teardownIpTunnel htcp fun _ hc _ _ =>
      Http3Connection.teardownIpTunnel_unstaged.trans hc
  exact List.foldlRecOn (motive := fun c : Http3Connection => c.Within config [] []) w.auth
    (Http3Connection.spawnAuthVerification env) (Http3Connection.applyConnectSetups_within hip)
    fun _ hc pending _ => (Http3Connection.spawnAuthVerification_unstaged pending).trans_le hc

variable [DecidableEq Digest]

lemma onHeaders_unstaged (headers : List Header) :
    (w.onHeaders env config streamId headers).unstaged ≤ w.unstaged := by
  refine onHeaders_cases (P := fun w' => w'.unstaged ≤ w.unstaged) (fun _ => le_rfl) (fun _ => ?_)
    (fun _ => le_rfl) (fun c hc => ?_) fun c c' setups pending hc _ hhandled => ?_
  · exact Http3Connection.dropStream_unstaged
  · subst hc
    exact makeRoom_unstaged.le
  · have hroom : c.unstaged w.setups.tcp w.setups.udp = w.unstaged := hc ▸ makeRoom_unstaged
    refine le_trans ?_ hroom.le
    cases hhandled with
    | refused status =>
      rw [Http3Connection.Decided.enter_self]
      exact le_rfl
    | overdue =>
      rw [Http3Connection.Decided.enter_self]
      exact le_rfl
    | unguarded _ hdispatched =>
      have hentered := Http3Connection.enter_unstaged hdispatched
      exact hentered
    | hit _ _ hdispatched =>
      have hentered := Http3Connection.enter_unstaged hdispatched
      exact hentered
    | parked request _ _ =>
      rw [Http3Connection.Decided.enter_self]
      exact park_unstaged.le

lemma onEvent_unstaged {e : Http3Event} (hevent : w.onEvent env config e = some w') :
    w'.unstaged ≤ w.unstaged := by
  cases e with
  | headers streamId headers =>
    obtain ⟨-, hw⟩ := ite_none_left_eq_some.mp hevent
    exact some.inj hw ▸ onHeaders_unstaged headers
  | data streamId relayFails =>
    cases hevent
    unfold onData
    dsimp only
    split_ifs <;> exact le_rfl
  | finished streamId capsule =>
    cases hevent
    exact onFinished_unstaged capsule
  | reset streamId =>
    cases hevent
    exact Http3Connection.dropStream_unstaged

end PollWork

namespace Http3Connection

variable {Key Digest : Type} [DecidableEq Digest] {env : Http3Environment Key Digest}
  {config : RequestConfig} {c c' : Http3Connection}

lemma pollHttp3Events_within (h : c.Within config [] []) {events : List Http3Event}
    (hpoll : c.pollHttp3Events env config events = some c') : c'.Within config [] [] := by
  refine pollHttp3Events_cases (P := fun c => c.Within config [] []) hpoll h
    (expireFirstAuth_unstaged.trans_le h) fun w hrun => ?_
  have hstart : (PollWork.start c.tick).unstaged ≤ config.maxTunnels := h
  have hpreserves : ∀ (w : PollWork) e w', w.unstaged ≤ config.maxTunnels →
      w.onEvent env config e = some w' → w'.unstaged ≤ config.maxTunnels := fun _ _ _ hw hevent =>
    (PollWork.onEvent_unstaged hevent).trans hw
  exact PollWork.finish_within (run_preserves hpreserves hstart hrun)

theorem step_tunnels (h : c.tunnels ≤ config.maxTunnels) {e : ConnectionEvent}
    (hstep : c.step env config e = some c') : c'.tunnels ≤ config.maxTunnels := by
  have hwithin : c.Within config [] [] := (unstaged_nil c).trans_le h
  cases e with
  | poll events => exact (unstaged_nil c').symm.trans_le (pollHttp3Events_within hwithin hstep)
  | authResult streamId authorized relayFails =>
    obtain ⟨pending, -, rfl⟩ := map_eq_some_iff.mp hstep
    have hremoved : { c with tasks := c.tasks.remove streamId }.Within config [] [] := hwithin
    exact (unstaged_nil _).symm.trans_le
      (handleAuthResult_within hremoved pending authorized relayFails)
  | tcpConnected streamId transferFails =>
    cases hstep
    exact (handleTcpConnected_tunnels transferFails).trans h
  | tcpFailed streamId status =>
    cases hstep
    exact handleTcpFailed_tunnels.trans h
  | udpPrepared streamId =>
    cases hstep
    exact handleUdpPrepared_tunnels.trans h
  | udpFailed streamId status =>
    cases hstep
    exact handleUdpFailed_tunnels.trans h
  | retryTcp transferFails =>
    cases hstep
    exact (retryTcpConnectResponses_tunnels transferFails).trans h
  | retryUdp =>
    cases hstep
    exact retryUdpConnectResponses_tunnels.trans h
  | retryIp =>
    cases hstep
    exact retryIpConnectResponses_tunnels.trans h
  | drive closing =>
    cases hstep
    exact (drive_tunnels closing).trans_le h
  | sweep idle =>
    cases hstep
    exact (cleanupIdleTunnels_tunnels idle).trans h
  | resetTcp streamId =>
    cases hstep
    have hreset := c.resetTcpStream_unstaged streamId [] []
    rw [unstaged_nil, unstaged_nil] at hreset
    exact hreset.trans h
  | tcpEnded streamId =>
    cases hstep
    have hremove := c.tcpTunnels.size_remove_le streamId
    simp only [tunnels] at h ⊢
    omega
  | udpEnded streamId =>
    cases hstep
    have hremove := c.udpTunnels.size_remove_le streamId
    simp only [tunnels] at h ⊢
    omega
  | capsuleClosed streamId =>
    cases hstep
    have hudp := c.udpTunnels.size_remove_le streamId
    have hpending := c.pendingUdpTunnels.size_remove_le streamId
    have hip := c.ipTunnels.size_remove_le streamId
    simp only [tunnels] at h ⊢
    omega
  | close =>
    cases hstep
    exact h

/-- Over all runs, pending and active tunnels together stay within the limit. -/
theorem http3Requests_tunnelBound (env : Http3Environment Key Digest) (config : RequestConfig)
    {events : List ConnectionEvent}
    (hrun : run (step env config) (opened config.basicAuth) events = some c) :
    c.pendingTcpTunnels.size + c.tcpTunnels.size + c.pendingUdpTunnels.size + c.udpTunnels.size +
      c.ipTunnels.size + c.pendingIpResponses.size ≤ config.maxTunnels := by
  have hpreserves : ∀ (c : Http3Connection) e c', c.tunnels ≤ config.maxTunnels →
      c.step env config e = some c' → c'.tunnels ≤ config.maxTunnels :=
        fun _ _ _ h => step_tunnels h
  exact run_preserves hpreserves (Nat.zero_le _) hrun

end Http3Connection

def ipHeaders : List Header :=
  [⟨asBytes ":method", asBytes "CONNECT"⟩, ⟨asBytes ":protocol", asBytes "connect-ip"⟩,
    ⟨asBytes ":scheme", asBytes "https"⟩, ⟨asBytes ":authority", asBytes "proxy"⟩,
    ⟨asBytes ":path", asBytes "/masque/ip"⟩]

/-- One poll asks for three tunnels where two are allowed. -/
theorem http3Requests_tunnelBound_batch :
    ((run (Http3Connection.step smallEnvironment (smallConfig false 2)) (.opened false)
      [.poll [.headers 0 tcpHeaders, .headers 4 ipHeaders, .headers 8 tcpHeaders]]).get
        (by decide +kernel)).tunnels ≤ 2 :=
  Http3Connection.http3Requests_tunnelBound smallEnvironment (smallConfig false 2)
    (some_get _).symm

end MasqueServer
