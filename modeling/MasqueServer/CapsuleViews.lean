import MasqueServer.CapsuleStreams

/-!
# One stream of a connection

The connection treats every stream by itself, up to the room in its queues. A view is what it
holds of one stream; every operation changes one view, in a way that depends on that view only,
and a loop over streams changes each of their views once.
-/
namespace MasqueServer

open Function List Option

/-- What a connection holds of one stream. -/
structure StreamView where
  h3 : Bool
  quic : QuicStream
  stream : Option QueuedStream
  udp : Bool
  ip : Bool
  listed : Prop

namespace StreamView

variable (v : StreamView)

def shutdown (code : WireErrorCode) : StreamView :=
  { v with quic := { v.quic with reset := some code } }

def removed : StreamView := { v with stream := none, listed := False }

def released : StreamView :=
  { v with stream := none, udp := false, ip := false, listed := False }

def discarded : StreamView :=
  { v with stream :=
    v.stream.map fun stream => { stream with send := [], bytes := 0, offset := 0 } }

def tornDown : StreamView := if v.ip then { v.removed with ip := false } else v

def opened (v : StreamView) (stream : QueuedStream) : StreamView :=
  { v with
    quic := { v.quic with opened := true }
    stream := some stream
    udp := !stream.decoder.isIp || v.udp
    ip := stream.decoder.isIp || v.ip }

def queued (v : StreamView) (stream : QueuedStream) (data : Bytes) : StreamView :=
  { v with
    quic := { v.quic with queued := v.quic.queued ++ [data] }
    stream := some { stream with bytes := stream.bytes + data.length, send :=
      stream.send ++ [data] } }

def marked (now : ℕ) : StreamView :=
  match v.stream with
  | none => v
  | some stream =>
    if stream.finishedAt.isSome then v
    else { v with
      quic := { v.quic with truncated := stream.decoder.isPartial }
      stream := some { stream with finishedAt := some now }
      listed := True }

def endResponse (result : SendResult) : StreamView :=
  if v.h3 then
    match v.quic.sendBody [] true result with
    | (quic, .blocked) => { v with quic, listed := True }
    | (quic, _) => { v with quic }.released
  else v.released

def close (reset : Bool) (result : SendResult) : StreamView :=
  let reset := reset || v.stream.any fun stream => stream.decoder.isPartial
  if reset || v.stream.any QueuedStream.hasPartialOutput then
    (v.shutdown (if reset then .messageError else .requestCancelled)).released
  else if v.ip then v.endResponse result
  else v.discarded.endResponse result

def finishBody (result : SendResult) : StreamView :=
  if v.stream.any fun stream =>
      stream.decoder.isIp && !stream.decoder.isPartial && !stream.send.isEmpty then
    { v with listed := True }
  else v.close false result

def drainExpired (v : StreamView) (sweep : IdleSweep) : Option Bool :=
  v.stream.bind fun stream => stream.drainExpired sweep.now sweep.timeout

def isExpired (sweep : IdleSweep) (id : ℕ) : Bool :=
  (v.drainExpired sweep).getD (sweep.idle id)

def idleClosed (sweep : IdleSweep) (result : SendResult) : StreamView :=
  let reset := v.drainExpired sweep = some true || v.stream.any QueuedStream.hasPartialOutput
  if !reset && v.h3 then
    match v.quic.sendBody [] true result with
    | (quic, .accepted _) => { v with quic }
    | (quic, _) => { v with quic }.shutdown .requestCancelled
  else v.shutdown .requestCancelled

def udpSwept (sweep : IdleSweep) (id : ℕ) : StreamView :=
  if v.isExpired sweep id then { v.idleClosed sweep (sweep.results id) with udp := false } else v

end StreamView

namespace CapsuleConnection

variable {c c' c'' : CapsuleConnection} {id : ℕ} {stream : QueuedStream}

def view (c : CapsuleConnection) (id : ℕ) : StreamView where
  h3 := c.h3
  quic := c.quic id
  stream := c.capsuleStreams.get id
  udp := c.udpTunnels.contains id
  ip := c.ipTunnels.contains id
  listed := id ∈ c.finishedCapsules

/-! ### The operations in the views -/

lemma view_eq_update {v : StreamView} (hself : c'.view id = v)
    (hother : ∀ id', id' ≠ id → c'.view id' = c.view id') :
    c'.view = Function.update c.view id v := by
  funext id'
  by_cases hid : id' = id
  · rw [hid, hself, update_self]
  · rw [hother id' hid, update_of_ne hid]

lemma streamShutdown_view (c : CapsuleConnection) (id : ℕ) (code : WireErrorCode) :
    (c.streamShutdown id code).view = Function.update c.view id ((c.view id).shutdown code) := by
  refine view_eq_update ?_ fun id' hne => ?_
  · simp [view, streamShutdown, setQuic, StreamView.shutdown]
  · simp [view, streamShutdown, setQuic, hne]

lemma removeCapsuleStream_eq (h : c.removeCapsuleStream id = some c') :
    ∃ bytes packets, c' = { c with
      capsuleStreams := c.capsuleStreams.remove id
      capsuleWritable := c.capsuleWritable.remove id
      finishedCapsules := c.finishedCapsules.filter (· ≠ id)
      capsuleSendBytes := bytes
      capsuleSendPackets := packets } ∨ c.capsuleStreams.get id = none ∧ c' = { c with
      capsuleWritable := c.capsuleWritable.remove id
      finishedCapsules := c.finishedCapsules.filter (· ≠ id) } := by
  unfold removeCapsuleStream at h
  cases hget : c.capsuleStreams.get id with
  | none =>
    rw [hget] at h
    cases h
    exact ⟨0, 0, .inr ⟨rfl, rfl⟩⟩
  | some stream =>
    simp only [hget, bind_eq_bind, bind_eq_some_iff, Option.pure_def,
      some.injEq] at h
    obtain ⟨bytes, -, packets, -, rfl⟩ := h
    exact ⟨bytes, packets, .inl rfl⟩

lemma removeCapsuleStream_view (h : c.removeCapsuleStream id = some c') :
    c'.view = Function.update c.view id (c.view id).removed := by
  obtain ⟨bytes, packets, rfl | ⟨hget, rfl⟩⟩ := removeCapsuleStream_eq h
  · refine view_eq_update ?_ fun id' hne => ?_
    · simp [view, StreamView.removed]
    · simp [view, hne]
  · refine view_eq_update ?_ fun id' hne => ?_
    · simp [view, StreamView.removed, hget]
    · simp [view, hne]

lemma udpTunnels_remove_view (c : CapsuleConnection) (id : ℕ) :
    view { c with udpTunnels := c.udpTunnels.remove id } =
      Function.update c.view id { c.view id with udp := false } := by
  refine view_eq_update ?_ fun id' hne => ?_
  · simp [view, Table.contains]
  · simp [view, Table.contains, hne]

lemma ipTunnels_remove_view (c : CapsuleConnection) (id : ℕ) :
    view { c with ipTunnels := c.ipTunnels.remove id } =
      Function.update c.view id { c.view id with ip := false } := by
  refine view_eq_update ?_ fun id' hne => ?_
  · simp [view, Table.contains]
  · simp [view, Table.contains, hne]

lemma setQuic_view (c : CapsuleConnection) (id : ℕ) (quic : QuicStream) :
    (c.setQuic id quic).view = Function.update c.view id { c.view id with quic } := by
  refine view_eq_update ?_ fun id' hne => ?_
  · simp [view, setQuic]
  · simp [view, setQuic, hne]

lemma putStream_view (c : CapsuleConnection) (id : ℕ) (stream : QueuedStream) :
    (c.putStream id stream).view =
      Function.update c.view id { c.view id with stream := some stream } := by
  refine view_eq_update ?_ fun id' hne => ?_
  · simp [view, putStream]
  · simp [view, putStream, hne]

lemma teardownIpTunnel_view (h : c.teardownIpTunnel id = some c') :
    c'.view = Function.update c.view id (c.view id).tornDown := by
  unfold teardownIpTunnel at h
  split_ifs at h with hip
  · have hview := removeCapsuleStream_view h
    rw [ipTunnels_remove_view, update_idem, update_self] at hview
    rw [hview, StreamView.tornDown, if_pos (show (c.view id).ip = true from hip)]
    rfl
  · cases h
    rw [StreamView.tornDown, if_neg (show ¬(c.view id).ip = true from hip), update_eq_self]

lemma releaseTunnel_view (h : c.releaseTunnel id = some c') :
    c'.view = Function.update c.view id (c.view id).released := by
  unfold releaseTunnel at h
  obtain ⟨c₁, htorn, hremove⟩ := bind_eq_some_iff.mp h
  have hview := removeCapsuleStream_view hremove
  rw [teardownIpTunnel_view htorn, udpTunnels_remove_view, update_idem, update_idem,
    update_self, update_self] at hview
  rw [hview]
  congr 1
  cases hip : (c.view id).ip <;> simp [StreamView.tornDown, StreamView.removed,
    StreamView.released, hip]

lemma discardCapsuleOutput_view (h : c.discardCapsuleOutput id = some c') :
    c'.view = Function.update c.view id (c.view id).discarded := by
  unfold discardCapsuleOutput at h
  cases hget : c.capsuleStreams.get id with
  | none =>
    rw [hget] at h
    cases h
    refine view_eq_update ?_ fun id' hne => ?_
    · simp [view, StreamView.discarded, hget]
    · simp [view]
  | some stream =>
    simp only [hget, bind_eq_bind, bind_eq_some_iff, Option.pure_def,
      some.injEq] at h
    obtain ⟨bytes, -, packets, -, rfl⟩ := h
    refine view_eq_update ?_ fun id' hne => ?_
    · simp [view, StreamView.discarded, hget]
    · simp [view, hne]

lemma push_view (c : CapsuleConnection) (id : ℕ) :
    view { c with finishedCapsules := c.finishedCapsules ++ [id] } =
      Function.update c.view id { c.view id with listed := True } := by
  refine view_eq_update ?_ fun id' hne => ?_
  · simp [view]
  · simp [view, hne]

lemma endResponse_view {result : SendResult} (h : c.endResponse id result = some c') :
    c'.view = Function.update c.view id ((c.view id).endResponse result) := by
  unfold endResponse at h
  unfold StreamView.endResponse
  have hh3 : (c.view id).h3 = c.h3 := rfl
  rw [hh3]
  split_ifs at h ⊢
  · have hsend (quic : QuicStream) : (c.setQuic id quic).releaseTunnel id = some c' →
        c'.view = Function.update c.view id { c.view id with quic }.released := by
      intro hrelease
      rw [releaseTunnel_view hrelease, setQuic_view, update_idem, update_self]
    cases result with
    | accepted written => exact hsend _ h
    | failed => exact hsend _ h
    | blocked =>
      have hquic : ((c.quic id).sendBody [] true .blocked).1 = c.quic id := rfl
      simp only [sendFin, QuicStream.sendBody, some.injEq] at h
      have hview := setQuic_view c id (c.quic id)
      split_ifs at h with hmem
      · subst h
        rw [hview]
        congr 1
        show ({ c.view id with quic := c.quic id } : StreamView) = _
        simp [view, QuicStream.sendBody]
        exact hmem
      · subst h
        rw [push_view, hview, update_idem, update_self]
        rfl
  · exact releaseTunnel_view h

lemma closeCapsuleStream_view {reset : Bool} {result : SendResult}
    (h : c.closeCapsuleStream id reset result = some c') :
    c'.view = Function.update c.view id ((c.view id).close reset result) := by
  unfold closeCapsuleStream at h
  unfold StreamView.close
  have hstream : (c.view id).stream = c.capsuleStreams.get id := rfl
  have hip : (c.view id).ip = c.ipTunnels.contains id := rfl
  simp only [hstream, hip]
  dsimp only at h
  generalize (reset || (c.capsuleStreams.get id).any fun stream => stream.decoder.isPartial) = reset
    at h ⊢
  by_cases hreset : (reset || (c.capsuleStreams.get id).any QueuedStream.hasPartialOutput) = true
  · rw [if_pos hreset] at h ⊢
    rw [releaseTunnel_view h, streamShutdown_view, update_idem, update_self]
  · rw [if_neg hreset] at h ⊢
    split_ifs at h ⊢
    · exact endResponse_view h
    · obtain ⟨c₁, hdiscard, hend⟩ := bind_eq_some_iff.mp h
      rw [endResponse_view hend, discardCapsuleOutput_view hdiscard, update_idem,
        update_self]

lemma queueCapsuleBytes_view {data : Bytes} {queued : Bool}
    (h : c.queueCapsuleBytes id data = (c', queued)) :
    queued = false ∧ c' = c ∨ queued = true ∧ ∃ stream, c.capsuleStreams.get id = some stream ∧
      stream.finishedAt = none ∧
        c'.view = Function.update c.view id ((c.view id).queued stream data) ∧
      c'.finishedCapsules = c.finishedCapsules := by
  unfold queueCapsuleBytes at h
  cases hget : c.capsuleStreams.get id with
  | none =>
    rw [hget] at h
    cases h
    exact .inl ⟨rfl, rfl⟩
  | some stream =>
    simp only [hget] at h
    split_ifs at h with hfull
    · cases h
      exact .inl ⟨rfl, rfl⟩
    · cases h
      simp only [Bool.or_eq_true, not_or, Bool.not_eq_true, isSome_eq_false_iff,
        isNone_iff_eq_none] at hfull
      refine .inr ⟨rfl, stream, rfl, hfull.1.1.1.1, view_eq_update ?_ fun id' hne => ?_, rfl⟩
      · simp [view, StreamView.queued]
      · simp [view, hne]

lemma markCapsuleFinished_view (c : CapsuleConnection) (id now : ℕ) :
    (c.markCapsuleFinished id now).view = Function.update c.view id ((c.view id).marked now) := by
  unfold markCapsuleFinished StreamView.marked
  have hstream : (c.view id).stream = c.capsuleStreams.get id := rfl
  rw [hstream]
  cases hget : c.capsuleStreams.get id with
  | none => exact (update_eq_self id c.view).symm
  | some stream =>
    dsimp only
    split_ifs
    · exact (update_eq_self id c.view).symm
    · refine view_eq_update ?_ fun id' hne => ?_
      · simp [view]
      · simp [view, hne]

lemma openUdp_view (c : CapsuleConnection) (id : ℕ) (hopen : c.mayOpen id = true) :
    (c.openUdp id).view =
      Function.update c.view id
        ((c.view id).opened { CapsuleStream.newUdp maxUdpPayload with }) := by
  rw [openUdp, if_pos hopen]
  refine view_eq_update ?_ fun id' hne => ?_
  · simp [view, StreamView.opened, CapsuleStream.newUdp, StreamDecoder.isIp, Table.contains]
  · simp [view, hne, Table.contains]

lemma openIp_view (c : CapsuleConnection) (id maxPayload : ℕ) (addresses : List IpAddr)
    (hopen : c.mayOpen id = true) :
    (c.openIp id maxPayload addresses).view =
      Function.update c.view id ((c.view id).opened { CapsuleStream.newIp maxPayload with }) := by
  rw [openIp, if_pos hopen]
  refine view_eq_update ?_ fun id' hne => ?_
  · simp [view, StreamView.opened, CapsuleStream.newIp, StreamDecoder.isIp, Table.contains]
  · simp [view, hne, Table.contains]

lemma finishBody_view {results : ℕ → SendResult} (h : c.finishBody results id = some c') :
    c'.view = Function.update c.view id ((c.view id).finishBody (results id)) := by
  unfold finishBody at h
  unfold StreamView.finishBody
  have hstream : (c.view id).stream = c.capsuleStreams.get id := rfl
  rw [hstream]
  split_ifs at h ⊢
  · cases h
    exact push_view c id
  · exact closeCapsuleStream_view h

lemma closeIdle_eq (sweep : IdleSweep) (c : CapsuleConnection) (id : ℕ) :
    ∃ quic, closeIdle sweep c id = c.setQuic id quic := by
  have hshutdown (quic : QuicStream) :
    ∃ quic', (c.setQuic id quic).streamShutdown id .requestCancelled =
      c.setQuic id quic' :=
    ⟨{ quic with reset := some .requestCancelled }, by simp [streamShutdown, setQuic]⟩
  unfold closeIdle closeIdleStream
  dsimp only
  split_ifs
  · cases sweep.results id with
    | accepted written => exact ⟨_, rfl⟩
    | blocked => exact hshutdown _
    | failed => exact hshutdown _
  · exact ⟨_, rfl⟩

lemma closeIdle_view (sweep : IdleSweep) (c : CapsuleConnection) (id : ℕ) :
    (closeIdle sweep c id).view =
      Function.update c.view id ((c.view id).idleClosed sweep (sweep.results id)) := by
  unfold closeIdle closeIdleStream StreamView.idleClosed
  have hstream : (c.view id).stream = c.capsuleStreams.get id := rfl
  have hdrain : (c.view id).drainExpired sweep = c.drainExpired sweep id := rfl
  have hh3 : (c.view id).h3 = c.h3 := rfl
  have hquic : (c.view id).quic = c.quic id := rfl
  simp only [hstream, hdrain, hh3, hquic, sendFin]
  split_ifs
  · cases sweep.results id with
    | accepted written => exact setQuic_view c id _
    | blocked =>
      simp only [QuicStream.sendBody]
      rw [streamShutdown_view, setQuic_view, update_idem, update_self]
      rfl
    | failed =>
      simp only [QuicStream.sendBody]
      rw [streamShutdown_view, setQuic_view, update_idem, update_self]
      rfl
  · exact streamShutdown_view c id .requestCancelled

lemma sweepUdp_view (sweep : IdleSweep) (c : CapsuleConnection) (id : ℕ) :
    (sweepUdp sweep c id).view = Function.update c.view id ((c.view id).udpSwept sweep id) := by
  have hexpired : (c.view id).isExpired sweep id = c.isExpired sweep id := rfl
  have hudp : (closeIdle sweep c id).udpTunnels = c.udpTunnels := by
    obtain ⟨quic, hquic⟩ := closeIdle_eq sweep c id
    rw [hquic]
    rfl
  unfold sweepUdp StreamView.udpSwept
  rw [hexpired]
  split_ifs
  · rw [← hudp, udpTunnels_remove_view, closeIdle_view, update_idem, update_self]
  · exact (update_eq_self id c.view).symm

/-! ### Loops over streams -/

lemma foldlM_view {f : CapsuleConnection → ℕ → Option CapsuleConnection}
    {R : ℕ → StreamView → StreamView → Prop}
    (hf : ∀ c id c', f c id = some c' → ∃ v, c'.view = Function.update c.view id v ∧
      R id (c.view id) v)
    {ids : List ℕ} (hnodup : ids.Nodup) (h : ids.foldlM f c = some c') (id : ℕ) :
    (id ∈ ids → R id (c.view id) (c'.view id)) ∧ (id ∉ ids → c'.view id = c.view id) := by
  induction ids generalizing c with
  | nil =>
    cases h
    exact ⟨fun hmem => absurd hmem not_mem_nil, fun _ => rfl⟩
  | cons first ids ih =>
    rw [foldlM_cons] at h
    obtain ⟨c₁, hfirst, hrest⟩ := bind_eq_some_iff.mp h
    obtain ⟨v, hview, hR⟩ := hf c first c₁ hfirst
    obtain ⟨hnot, hnodup⟩ := nodup_cons.mp hnodup
    obtain ⟨hin, hout⟩ := ih hnodup hrest
    by_cases hid : id = first
    · subst hid
      rw [hout hnot, hview, update_self]
      exact ⟨fun _ => hR, fun hnot' => absurd mem_cons_self hnot'⟩
    · have hsame : c₁.view id = c.view id := by rw [hview, update_of_ne hid]
      rw [hsame] at hin hout
      refine ⟨fun hmem => hin ((mem_cons.mp hmem).resolve_left hid), fun hnot' => ?_⟩
      exact hout fun hmem => hnot' (mem_cons_of_mem first hmem)

lemma foldl_view {f : CapsuleConnection → ℕ → CapsuleConnection} {g : ℕ → StreamView → StreamView}
    (hf : ∀ c id, (f c id).view = Function.update c.view id (g id (c.view id))) {ids : List ℕ}
    (hnodup : ids.Nodup) (c : CapsuleConnection) (id : ℕ) :
    (id ∈ ids → (ids.foldl f c).view id = g id (c.view id)) ∧
      (id ∉ ids → (ids.foldl f c).view id = c.view id) := by
  have h : ids.foldlM (fun c id => some (f c id)) c = some (ids.foldl f c) := foldlM_pure
  refine foldlM_view (R := fun id v v' => v' = g id v) (fun c id c' hc' => ?_) hnodup h id
  cases hc'
  exact ⟨_, hf c id, rfl⟩

end CapsuleConnection

end MasqueServer
