import MasqueServer.StreamOrder

/-!
# Whole capsules and truncated requests

Every event keeps the order of all streams of a connection. Quiche is relied on for two things
only: a stream that has failed keeps failing, and the bytes of a body come before its end.
-/
namespace MasqueServer

open Bool Function List Option Table

namespace CapsuleConnection

variable {c c' c'' : CapsuleConnection} {id : ℕ} {stream : QueuedStream} {v : StreamView}

/-! ### The list of finished requests -/

variable (hnodup : c.finishedCapsules.Nodup)
include hnodup

lemma removeCapsuleStream_nodup (h : c.removeCapsuleStream id = some c') :
    c'.finishedCapsules.Nodup := by
  obtain ⟨bytes, packets, rfl | ⟨-, rfl⟩⟩ := removeCapsuleStream_eq h
  · exact hnodup.filter _
  · exact hnodup.filter _

lemma teardownIpTunnel_nodup (h : c.teardownIpTunnel id = some c') : c'.finishedCapsules.Nodup := by
  unfold teardownIpTunnel at h
  split_ifs at h
  · exact removeCapsuleStream_nodup (c := { c with ipTunnels := c.ipTunnels.remove id }) hnodup h
  · cases h
    exact hnodup

lemma releaseTunnel_nodup (h : c.releaseTunnel id = some c') : c'.finishedCapsules.Nodup := by
  obtain ⟨c₁, htorn, hremove⟩ := bind_eq_some_iff.mp h
  refine removeCapsuleStream_nodup ?_ hremove
  exact teardownIpTunnel_nodup (c := { c with udpTunnels := c.udpTunnels.remove id }) hnodup htorn

lemma endResponse_nodup {result : SendResult} (h : c.endResponse id result = some c') :
    c'.finishedCapsules.Nodup := by
  unfold endResponse sendFin at h
  split_ifs at h
  · cases result with
    | accepted written => exact releaseTunnel_nodup (c := c.setQuic id _) hnodup h
    | failed => exact releaseTunnel_nodup (c := c.setQuic id _) hnodup h
    | blocked =>
      simp only [QuicStream.sendBody, some.injEq] at h
      split_ifs at h with hmem
      · subst h
        exact hnodup
      · subst h
        exact nodup_append.mpr ⟨hnodup, nodup_singleton id, fun a ha b hb heq =>
          hmem (mem_singleton.mp hb ▸ heq ▸ ha)⟩
  · exact releaseTunnel_nodup hnodup h

omit hnodup in
lemma discardCapsuleOutput_finished (h : c.discardCapsuleOutput id = some c') :
    c'.finishedCapsules = c.finishedCapsules := by
  unfold discardCapsuleOutput at h
  cases hget : c.capsuleStreams.get id with
  | none =>
    rw [hget] at h
    cases h
    rfl
  | some stream =>
    simp only [hget, bind_eq_bind, bind_eq_some_iff, Option.pure_def,
      some.injEq] at h
    obtain ⟨bytes, -, packets, -, rfl⟩ := h
    rfl

lemma closeCapsuleStream_nodup {reset : Bool} {result : SendResult}
    (h : c.closeCapsuleStream id reset result = some c') : c'.finishedCapsules.Nodup := by
  unfold closeCapsuleStream at h
  dsimp only at h
  generalize (reset || (c.capsuleStreams.get id).any fun stream => stream.decoder.isPartial) = reset
    at h
  by_cases hreset : (reset || (c.capsuleStreams.get id).any QueuedStream.hasPartialOutput) = true
  · rw [if_pos hreset] at h
    exact releaseTunnel_nodup (c := c.streamShutdown id _) hnodup h
  · rw [if_neg hreset] at h
    split_ifs at h
    · exact endResponse_nodup hnodup h
    · obtain ⟨c₁, hdiscard, hend⟩ := bind_eq_some_iff.mp h
      rw [← discardCapsuleOutput_finished hdiscard] at hnodup
      exact endResponse_nodup hnodup hend

omit hnodup in
lemma dropTunnel_view (h : c.dropTunnel id = some c') :
    c'.view = Function.update c.view id (c.view id).released := by
  obtain ⟨c₁, hremove, htorn⟩ := bind_eq_some_iff.mp h
  rw [teardownIpTunnel_view htorn, removeCapsuleStream_view hremove, udpTunnels_remove_view,
    update_idem, update_idem, update_self, update_self,
    StreamView.tornDown_removed]

lemma dropTunnel_nodup (h : c.dropTunnel id = some c') : c'.finishedCapsules.Nodup := by
  obtain ⟨c₁, hremove, htorn⟩ := bind_eq_some_iff.mp h
  refine teardownIpTunnel_nodup ?_ htorn
  exact removeCapsuleStream_nodup (c := { c with udpTunnels := c.udpTunnels.remove id })
    hnodup hremove

omit hnodup

lemma foldlM_nodup {f : CapsuleConnection → ℕ → Option CapsuleConnection}
    (hf : ∀ c id c', c.finishedCapsules.Nodup → f c id = some c' → c'.finishedCapsules.Nodup)
    {ids : List ℕ} (hnodup : c.finishedCapsules.Nodup) (h : ids.foldlM f c = some c') :
    c'.finishedCapsules.Nodup := by
  induction ids generalizing c with
  | nil =>
    cases h
    exact hnodup
  | cons id ids ih =>
    rw [foldlM_cons] at h
    obtain ⟨c₁, hfirst, hrest⟩ := bind_eq_some_iff.mp h
    exact ih (hf c id c₁ hnodup hfirst) hrest

lemma finishBodies_nodup {results : ℕ → SendResult} {ids : List ℕ} (hids : ids.Nodup)
    (hnew : ∀ id ∈ ids, id ∉ c.finishedCapsules) (hnodup : c.finishedCapsules.Nodup)
    (h : ids.foldlM (finishBody results) c = some c') : c'.finishedCapsules.Nodup := by
  induction ids generalizing c with
  | nil =>
    cases h
    exact hnodup
  | cons id ids ih =>
    rw [foldlM_cons] at h
    obtain ⟨c₁, hfirst, hrest⟩ := bind_eq_some_iff.mp h
    obtain ⟨hnot, hids⟩ := nodup_cons.mp hids
    refine ih hids (fun id' hmem hlisted => ?_) ?_ hrest
    · have hne : id' ≠ id := fun heq => hnot (heq ▸ hmem)
      have hview := congrFun (finishBody_view hfirst) id'
      rw [update_of_ne hne] at hview
      have hsame : id' ∈ c₁.finishedCapsules ↔ id' ∈ c.finishedCapsules :=
        iff_of_eq (congrArg StreamView.listed hview)
      exact hnew id' (mem_cons_of_mem id hmem) (hsame.mp hlisted)
    · unfold finishBody at hfirst
      split_ifs at hfirst
      · cases hfirst
        exact nodup_append.mpr ⟨hnodup, nodup_singleton id, fun a ha b hb heq =>
          hnew id mem_cons_self (mem_singleton.mp hb ▸ heq ▸ ha)⟩
      · exact closeCapsuleStream_nodup hnodup hfirst

/-! ### What holds of a connection -/

structure Framed (c : CapsuleConnection) : Prop where
  good : ∀ id, (c.view id).Good
  nodup : c.finishedCapsules.Nodup

structure Proceeds (c c' : CapsuleConnection) : Prop where
  framed : c'.Framed
  truncated : ∀ id, (c.quic id).truncated = true → (c'.quic id).truncated = true

lemma Proceeds.trans (h : c.Proceeds c') (h' : c'.Proceeds c'') : c.Proceeds c'' :=
  ⟨h'.framed, fun id ht => h'.truncated id (h.truncated id ht)⟩

lemma proceeds_of_leads (hleads : ∀ id, (c.view id).Leads (c'.view id))
    (hnodup : c'.finishedCapsules.Nodup) : c.Proceeds c' :=
  ⟨⟨fun id => (hleads id).good, hnodup⟩, fun id => (hleads id).truncated⟩

lemma framed_start (h3 : Bool) : Framed { h3 } := by
  refine ⟨fun id => ⟨?_, ?_, ?_, ?_, ?_, ?_, ?_⟩, nodup_nil⟩ <;> simp [view, Table.contains]

lemma flushStream_view {results : ℕ → List SendResult} (h : c.flushStream results id = some c') :
    (∃ v, c'.view = Function.update c.view id v ∧ ((c.view id).Good →
      (∀ stream, (c.view id).stream = some stream → (c.view id).quic.failed = true →
        ∀ result ∈ results id, result = .failed) → (c.view id).Leads v)) ∧
      c'.finishedCapsules = c.finishedCapsules := by
  unfold flushStream at h
  cases hget : c.capsuleStreams.get id with
  | none =>
    rw [hget] at h
    cases h
    exact ⟨⟨c.view id, (update_eq_self id c.view).symm, fun hgood _ => hgood.leads_refl⟩, rfl⟩
  | some stream =>
    simp only [hget, bind_eq_bind, bind_eq_some_iff, Option.pure_def,
      some.injEq] at h
    obtain ⟨⟨f, keep⟩, hloop, rfl⟩ := h
    refine ⟨⟨{ c.view id with stream := some f.stream, quic := f.quic },
      view_eq_update ?_ fun id' hne => ?_, fun hgood hfails => ?_⟩, rfl⟩
    · simp [view]
    · simp [view, hne]
    · exact hgood.flushed hget
        (Flush.loop_writes (hgood.output stream hget) (hfails stream hget) hloop)

namespace Framed

variable (h : c.Framed)
include h

lemma proceeds_refl : c.Proceeds c := ⟨h, fun _ ht => ht⟩

lemma proceed (hview : c'.view = Function.update c.view id v) (hleads : (c.view id).Leads v)
    (hnodup : c'.finishedCapsules.Nodup) : c.Proceeds c' := by
  refine proceeds_of_leads (fun id' => ?_) hnodup
  rw [hview]
  by_cases hid : id' = id
  · subst hid
    rwa [update_self]
  · rw [update_of_ne hid]
    exact (h.good id').leads_refl

lemma unchanged (hview : c'.view = c.view) (hfinished : c'.finishedCapsules = c.finishedCapsules) :
    c.Proceeds c' :=
  proceeds_of_leads (fun id => hview ▸ (h.good id).leads_refl) (hfinished ▸ h.nodup)

lemma setupUdp (id : ℕ) : c.Proceeds (c.openUdp id) := by
  by_cases hopen : c.mayOpen id = true
  · have hnew : (c.view id).quic.opened = false := by
      simp only [mayOpen, and_eq_true, not_eq_true'] at hopen
      exact hopen.2
    refine h.proceed (openUdp_view c id hopen) ((h.good id).opened hnew _) ?_
    rw [openUdp, if_pos hopen]
    exact h.nodup
  · rw [openUdp, if_neg hopen]
    exact h.proceeds_refl

lemma setupIp {maxPayload : ℕ} {addresses : List IpAddr}
    (hstep : c.setupIpTunnel id maxPayload addresses = some c') : c.Proceeds c' := by
  unfold setupIpTunnel at hstep
  split_ifs at hstep with hopen
  · obtain ⟨capsules, -, hqueue⟩ := bind_eq_some_iff.mp hstep
    have hnew : (c.view id).quic.opened = false := by
      simp only [mayOpen, and_eq_true, not_eq_true'] at hopen
      exact hopen.2
    have hopened : c.Proceeds (c.openIp id maxPayload addresses) := by
      refine h.proceed (openIp_view c id maxPayload addresses hopen) ((h.good id).opened hnew _) ?_
      rw [openIp, if_pos hopen]
      exact h.nodup
    refine hopened.trans ?_
    split at hqueue
    · rename_i c₁ hqueued
      cases hqueue
      obtain ⟨hfalse, -⟩ | ⟨-, stream, hget, hnone, hview, hfinished⟩ :=
        queueCapsuleBytes_view hqueued
      · cases hfalse
      · exact hopened.framed.proceed hview ((hopened.framed.good id).queued hget hnone capsules)
          (hfinished ▸ hopened.framed.nodup)
    · rename_i c₁ hqueued
      obtain ⟨-, rfl⟩ | ⟨htrue, -⟩ := queueCapsuleBytes_view hqueued
      · obtain ⟨c₂, htorn, rfl⟩ := map_eq_some_iff.mp hqueue
        have hgood := hopened.framed.good id
        have hip : ((c.openIp id maxPayload addresses).view id).ip = true := by
          rw [openIp_view c id maxPayload addresses hopen, update_self]
          rfl
        have hview := teardownIpTunnel_view htorn
        rw [hgood.tornDown_eq hip] at hview
        have hnodup : c₂.finishedCapsules.Nodup := teardownIpTunnel_nodup hopened.framed.nodup htorn
        refine hopened.framed.proceed (v := ((view _ id).shutdown .excessiveLoad).released) ?_
          (hgood.shutdown _) hnodup
        rw [streamShutdown_view, hview, update_idem, update_self]
        rfl
      · cases htrue
  · cases hstep
    exact h.proceeds_refl

lemma queueBytes {data : Bytes} {queued : Bool}
    (hqueue : c.queueCapsuleBytes id data = (c', queued)) : c.Proceeds c' := by
  obtain ⟨-, rfl⟩ | ⟨-, stream, hget, hnone, hview, hfinished⟩ := queueCapsuleBytes_view hqueue
  · exact h.proceeds_refl
  · exact h.proceed hview ((h.good id).queued hget hnone data) (hfinished ▸ h.nodup)

lemma queueDatagram {payload : Bytes} {queued : Bool}
    (hqueue : c.queueDatagramCapsule id payload = some (c', queued)) : c.Proceeds c' := by
  unfold queueDatagramCapsule at hqueue
  cases hget : c.capsuleStreams.get id with
  | none =>
    rw [hget] at hqueue
    cases hqueue
    exact h.proceeds_refl
  | some stream =>
    simp only [hget] at hqueue
    split_ifs at hqueue
    · cases hqueue
      exact h.proceeds_refl
    · obtain ⟨capsule, -, hcapsule⟩ := map_eq_some_iff.mp hqueue
      exact h.queueBytes hcapsule

lemma flush {results : ℕ → List SendResult} (hreliable : c.Reliable (.flush results))
    (hstep : c.flushCapsuleOutput results = some c') : c.Proceeds c' := by
  unfold flushCapsuleOutput at hstep
  split_ifs at hstep
  · have hviews := foldlM_view (R := fun id v v' => v.Good → (∀ stream, v.stream = some stream →
        v.quic.failed = true → ∀ result ∈ results id, result = .failed) → v.Leads v')
      (fun _ _ _ hc' => (flushStream_view hc').1) c.capsuleWritable.keys_nodup hstep
    refine proceeds_of_leads (fun id => ?_) ?_
    · by_cases hmem : id ∈ c.capsuleWritable.keys
      · refine (hviews id).1 hmem (h.good id) fun stream hget hfailed => ?_
        refine hreliable id ?_ hfailed
        rw [← contains_iff_mem_keys, Table.contains_iff]
        exact ⟨stream, hget⟩
      · rw [(hviews id).2 hmem]
        exact (h.good id).leads_refl
    · exact foldlM_nodup (fun _ _ _ hnodup hc' => (flushStream_view hc').2 ▸ hnodup) h.nodup hstep
  · cases hstep
    exact h.proceeds_refl

/-! ### Reading -/

end Framed

def OpenAt (c : CapsuleConnection) (id : ℕ) : Prop :=
  ∃ stream, c.capsuleStreams.get id = some stream ∧ stream.finishedAt = none

/-- Reading goes on with an open request. -/
structure Reads (id : ℕ) (c c' : CapsuleConnection) : Prop where
  proceeds : c.Proceeds c'
  openAt : c'.OpenAt id

lemma Reads.trans (h : Reads id c c') (h' : Reads id c' c'') : Reads id c c'' :=
  ⟨h.proceeds.trans h'.proceeds, h'.openAt⟩

lemma decode_isIp {decoder decoder' : StreamDecoder} {chunk : Bytes}
    {frames : List CapsuleFrame} (h : decoder.decode chunk = .ok (decoder', frames)) :
    decoder'.isIp = decoder.isIp := by
  cases decoder with
  | datagram d =>
    obtain ⟨p, -, hp⟩ := bind_ok_iff.mp h
    cases hp
    rfl
  | ip d requests =>
    obtain ⟨p, -, hp⟩ := bind_ok_iff.mp h
    cases hp
    rfl

namespace Framed

variable (h : c.Framed)
include h

lemma reads_refl (hopen : c.OpenAt id) : Reads id c c := ⟨h.proceeds_refl, hopen⟩

lemma putDecoder (hget : c.capsuleStreams.get id = some stream) (hopen : stream.finishedAt = none)
    {decoder : StreamDecoder} (hkind : decoder.isIp = stream.decoder.isIp) :
    Reads id c (c.putStream id { stream with decoder }) := by
  refine ⟨h.proceed (putStream_view c id _) ((h.good id).decoded hget hopen hkind) h.nodup, ?_⟩
  exact ⟨{ stream with decoder }, by simp [putStream], hopen⟩

lemma queueReply (hopen : c.OpenAt id) {data : Bytes} {queued : Bool}
    (hqueue : c.queueCapsuleBytes id data = (c', queued)) : Reads id c c' := by
  refine ⟨h.queueBytes hqueue, ?_⟩
  obtain ⟨-, rfl⟩ | ⟨-, stream, hget, hnone, hview, -⟩ := queueCapsuleBytes_view hqueue
  · exact hopen
  · have hstream := congrArg StreamView.stream (congrFun hview id)
    rw [update_self] at hstream
    exact ⟨_, hstream, hnone⟩

lemma readFrame (hopen : c.OpenAt id) {maxPayload : ℕ} {frame : CapsuleFrame} {failed : Bool}
    (hread : c.readFrame id maxPayload frame = some (c', failed)) : Reads id c c' := by
  unfold CapsuleConnection.readFrame at hread
  split at hread
  · unfold receiveDatagram at hread
    split at hread
    · cases hread
      exact h.reads_refl hopen
    · split_ifs at hread
      · cases hread
        exact h.reads_refl hopen
      · cases hread
        exact h.reads_refl hopen
      · cases hread
        exact h.reads_refl hopen
      · obtain ⟨wire, -, hwire⟩ := map_eq_some_iff.mp hread
        cases hwire
        exact ⟨h.unchanged rfl rfl, hopen⟩
  · unfold answerRequest at hread
    obtain ⟨stream, hget, hnone⟩ := hopen
    rw [hget] at hread
    cases hlease : c.ipTunnels.get id with
    | none =>
      rw [hlease] at hread
      cases hread
      exact h.reads_refl ⟨stream, hget, hnone⟩
    | some lease =>
      rw [hlease] at hread
      dsimp only at hread
      split at hread
      · rename_i requests _ decoder addressRequests hdecoder
        have hkind : (StreamDecoder.ip decoder (addressRequests.respond requests lease).1).isIp =
            stream.decoder.isIp := by
          rw [hdecoder]
          rfl
        have hput := h.putDecoder hget hnone hkind
        split at hread
        · cases hread
          exact hput
        · obtain ⟨output, -, hqueue⟩ := map_eq_some_iff.mp hread
          cases hqueue
          exact hput.trans (hput.proceeds.framed.queueReply hput.openAt rfl)
      · cases hread
  · cases hread
    exact h.reads_refl hopen

lemma readFrames (hopen : c.OpenAt id) {maxPayload : ℕ} {frames : List CapsuleFrame} {failed : Bool}
    (hread : CapsuleConnection.readFrames id maxPayload c frames = some (c', failed)) :
    Reads id c c' := by
  induction frames generalizing c with
  | nil =>
    cases hread
    exact h.reads_refl hopen
  | cons frame frames ih =>
    unfold CapsuleConnection.readFrames at hread
    split at hread
    · cases hread
    · rename_i c₁ hframe
      cases hread
      exact h.readFrame hopen hframe
    · rename_i c₁ hframe
      have hreads := h.readFrame hopen hframe
      exact hreads.trans (ih hreads.proceeds.framed hreads.openAt hread)

lemma readChunks (hopen : c.OpenAt id) {chunks : List Bytes} {failed : Bool}
    (hread : CapsuleConnection.readChunks id c chunks = some (c', failed)) : Reads id c c' := by
  induction chunks generalizing c with
  | nil =>
    cases hread
    exact h.reads_refl hopen
  | cons chunk chunks ih =>
    unfold CapsuleConnection.readChunks at hread
    obtain ⟨stream, hget, hnone⟩ := hopen
    rw [hget] at hread
    dsimp only at hread
    split at hread
    · cases hread
      exact h.reads_refl ⟨stream, hget, hnone⟩
    · rename_i decoder frames hdecode
      have hput := h.putDecoder hget hnone (decode_isIp hdecode)
      split at hread
      · cases hread
      · rename_i c₁ hframes
        cases hread
        exact hput.trans (hput.proceeds.framed.readFrames hput.openAt hframes)
      · rename_i c₁ hframes
        have hreads := hput.trans (hput.proceeds.framed.readFrames hput.openAt hframes)
        exact hreads.trans (ih hreads.proceeds.framed hreads.openAt hread)

lemma markCapsuleFinished_nodup (id now : ℕ) :
    (c.markCapsuleFinished id now).finishedCapsules.Nodup := by
  unfold markCapsuleFinished
  cases hget : c.capsuleStreams.get id with
  | none => exact h.nodup
  | some stream =>
    dsimp only
    split_ifs with hfinished
    · exact h.nodup
    · refine nodup_append.mpr ⟨h.nodup, nodup_singleton id, fun a ha b hb heq => ?_⟩
      rw [mem_singleton.mp hb] at heq
      exact hfinished ((h.good id).listed_finished stream hget (heq ▸ ha))

lemma finishRequest (id now : ℕ) : c.Proceeds (c.finishRequest id now) := by
  have hended : c.Proceeds (c.setQuic id { c.quic id with ended := true }) :=
    h.proceed (setQuic_view c id _) (h.good id).ended h.nodup
  refine hended.trans (hended.framed.proceed (markCapsuleFinished_view _ id now)
    ((hended.framed.good id).marked ?_ now) ?_)
  · simp [view, setQuic]
  · exact hended.framed.markCapsuleFinished_nodup id now

lemma read {body : BodyRead} (hreliable : c.Reliable (.read id body))
    (hstep : c.readCapsuleBody id body = some c') : c.Proceeds c' := by
  unfold readCapsuleBody at hstep
  by_cases hcontains : (c.capsuleStreams.contains id && c.h3) = true
  · rw [if_pos hcontains] at hstep
    obtain ⟨⟨c₁, failed⟩, hchunks, hrest⟩ := bind_eq_some_iff.mp hstep
    rw [and_eq_true, Table.contains_iff] at hcontains
    obtain ⟨⟨stream, hget⟩, -⟩ := hcontains
    have hread : c.Proceeds c₁ := by
      cases hfinished : stream.finishedAt with
      | none => exact (h.readChunks ⟨stream, hget, hfinished⟩ hchunks).proceeds
      | some finished =>
        have hended := ((h.good id).output stream hget).ended (by rw [hfinished, isSome_some])
        rw [hreliable hended] at hchunks
        cases hchunks
        exact h.proceeds_refl
    dsimp only at hrest
    have hfinish :
      c.Proceeds (if body.finished = true then c₁.finishRequest id body.now else c₁) := by
      split_ifs
      · exact hread.trans (hread.framed.finishRequest id body.now)
      · exact hread
    generalize (if body.finished = true then c₁.finishRequest id body.now else c₁) =
      c₂ at hrest hfinish
    split_ifs at hrest
    · exact hfinish.trans (hfinish.framed.proceed (closeCapsuleStream_view hrest)
        (hfinish.framed.good id).close_true (closeCapsuleStream_nodup hfinish.framed.nodup hrest))
    · cases hrest
      exact hfinish
  · rw [if_neg hcontains] at hstep
    cases hstep
    exact h.proceeds_refl

lemma relay (hstep : c.takeReceived = some c') : c.Proceeds c' := by
  unfold takeReceived at hstep
  split at hstep
  · cases hstep
    exact h.proceeds_refl
  · obtain ⟨bytes, -, rfl⟩ := map_eq_some_iff.mp hstep
    exact h.unchanged rfl rfl

/-! ### Ends -/

lemma finish {results : ℕ → SendResult} (hreliable : c.Reliable (.finish results))
    (hstep : c.finishCapsuleBodies results = some c') : c.Proceeds c' := by
  have hviews := foldlM_view (R := fun id v v' => v' = v.finishBody (results id))
    (fun _ _ _ hc' => ⟨_, finishBody_view hc', rfl⟩) h.nodup hstep
  have hstart : ∀ id, (c.view id).Leads (view { c with finishedCapsules := [] } id) := by
    intro id
    have hgood := h.good id
    refine ⟨⟨hgood.fin, hgood.truncated, hgood.output, hgood.kind, fun _ _ hlisted => ?_,
      fun hnone => ⟨(hgood.absent hnone).1, (hgood.absent hnone).2.1, ?_⟩, hgood.unopened⟩,
      fun ht => ht⟩
    · cases hlisted
    · exact not_mem_nil
  refine proceeds_of_leads (fun id => (hstart id).trans ?_) ?_
  · by_cases hmem : id ∈ c.finishedCapsules
    · rw [(hviews id).1 hmem]
      cases hget : c.capsuleStreams.get id with
      | none => exact absurd hmem ((h.good id).absent hget).2.2
      | some stream =>
        refine (hstart id).good.finishBody hget ((h.good id).listed_finished stream hget hmem) ?_
        refine hreliable id ?_
        rw [← contains_iff_mem_keys, Table.contains_iff]
        exact ⟨stream, hget⟩
    · rw [(hviews id).2 hmem]
      exact (hstart id).good.leads_refl
  · exact finishBodies_nodup h.nodup (fun _ _ => not_mem_nil) nodup_nil hstep

omit h in
lemma clientReset (h : c.Framed) (hstep : c.clientReset id = some c') : c.Proceeds c' := by
  have hleads := (h.good id).reset { c.quic id with clientReset := true }
    ⟨rfl, rfl, rfl, rfl, rfl⟩ (.inr rfl)
  refine h.proceed ?_ hleads (dropTunnel_nodup (c := c.setQuic id _) h.nodup hstep)
  rw [dropTunnel_view hstep, setQuic_view, update_idem, update_self]

lemma malformedTrailers (hstep : c.malformedTrailers id = some c') : c.Proceeds c' := by
  refine h.proceed (v := ((c.view id).shutdown .messageError).released) ?_
    ((h.good id).shutdown .messageError)
    (dropTunnel_nodup (c := c.streamShutdown id _) h.nodup hstep)
  rw [dropTunnel_view hstep, streamShutdown_view, update_idem, update_self]

lemma targetFailed (hudp : c.udpTunnels.contains id = true) (hstep : c.resetUdpStream id = some c')
    : c.Proceeds c' := by
  obtain ⟨c₁, hremove, rfl⟩ := map_eq_some_iff.mp hstep
  have hnodup : c₁.finishedCapsules.Nodup :=
    removeCapsuleStream_nodup (c := { c with udpTunnels := c.udpTunnels.remove id }) h.nodup hremove
  refine h.proceed (v := ((c.view id).shutdown .connectError).released) ?_
    ((h.good id).shutdown .connectError) hnodup
  have hip := (h.good id).ip_eq_false hudp
  rw [streamShutdown_view, removeCapsuleStream_view hremove, udpTunnels_remove_view,
    update_idem, update_idem, update_self, update_self]
  congr 1
  simp [StreamView.shutdown, StreamView.removed, StreamView.released, hip]

lemma sweep_view {sweep : IdleSweep} (hstep : c.cleanupIdleTunnels sweep = some c') (id : ℕ) :
    c'.view id = if (c.view id).stream.isSome = true ∧ (c.view id).isExpired sweep id = true
      then ((c.view id).idleClosed sweep (sweep.results id)).released else c.view id := by
  unfold cleanupIdleTunnels at hstep
  dsimp only at hstep
  have hudp := foldl_view (g := fun id v => v.udpSwept sweep id) (sweepUdp_view sweep)
    c.udpTunnels.keys_nodup c id
  have hudp_mem : id ∈ c.udpTunnels.keys ↔ (c.view id).udp = true := contains_iff_mem_keys.symm
  generalize c.udpTunnels.keys.foldl (sweepUdp sweep) c = c₁ at hstep hudp
  have hip := foldl_view (g := fun id v => v.idleClosed sweep (sweep.results id))
    (closeIdle_view sweep) (c₁.ipTunnels.keys_nodup.filter fun id => c₁.isExpired sweep id) c₁ id
  have hip_mem : (id ∈ c₁.ipTunnels.keys.filter fun id => c₁.isExpired sweep id) ↔
      (c₁.view id).ip = true ∧ (c₁.view id).isExpired sweep id = true := by
    rw [mem_filter, ← contains_iff_mem_keys]
    rfl
  have hidle_nodup := c₁.ipTunnels.keys_nodup.filter fun id => c₁.isExpired sweep id
  generalize (c₁.ipTunnels.keys.filter fun id => c₁.isExpired sweep id) = idle at *
  generalize idle.foldl (closeIdle sweep) c₁ = c₂ at hstep hip
  obtain ⟨c₃, hclosed, htorn⟩ := bind_eq_some_iff.mp hstep
  have hremoved := foldlM_view (R := fun _ v v' => v' = v.removed)
    (fun _ _ _ hc' => ⟨_, removeCapsuleStream_view hc', rfl⟩)
      (c₂.capsuleStreams.keys_nodup.filter _)
    hclosed id
  have hclosed_mem : (id ∈ c₂.capsuleStreams.keys.filter fun id =>
      !c₂.udpTunnels.contains id && !c₂.ipTunnels.contains id) ↔
      (c₂.view id).stream.isSome = true ∧ (c₂.view id).udp = false ∧ (c₂.view id).ip = false := by
    rw [mem_filter, ← contains_iff_mem_keys, and_eq_true, not_eq_true',
      not_eq_true']
    rfl
  have hend := foldlM_view (R := fun _ v v' => v' = v.tornDown)
    (fun _ _ _ hc' => ⟨_, teardownIpTunnel_view hc', rfl⟩) hidle_nodup htorn id
  rw [hclosed_mem] at hremoved
  rw [hip_mem] at hip hend
  rw [hudp_mem] at hudp
  exact (h.good id).swept hudp hip hremoved hend

omit h in
lemma sweep (h : c.Framed) {sweep : IdleSweep} (hreliable : c.Reliable (.sweep sweep))
    (hstep : c.cleanupIdleTunnels sweep = some c') : c.Proceeds c' := by
  refine proceeds_of_leads (fun id => ?_) ?_
  · rw [h.sweep_view hstep]
    split_ifs with hidle
    · obtain ⟨stream, hstream⟩ := isSome_iff_exists.mp hidle.1
      refine (h.good id).idleClosed hstream hidle.2 (hreliable id ?_)
      rw [← contains_iff_mem_keys, Table.contains_iff]
      exact ⟨stream, hstream⟩
    · exact (h.good id).leads_refl
  · unfold cleanupIdleTunnels at hstep
    obtain ⟨c₃, hclosed, htorn⟩ := bind_eq_some_iff.mp hstep
    refine foldlM_nodup (fun _ _ _ => teardownIpTunnel_nodup) ?_ htorn
    refine foldlM_nodup (fun _ _ _ => removeCapsuleStream_nodup) ?_ hclosed
    refine List.foldlRecOn (motive := fun c : CapsuleConnection => c.finishedCapsules.Nodup)
      _ _ ?_ fun c₁ h₁ id _ => ?_
    · refine List.foldlRecOn (motive := fun c : CapsuleConnection => c.finishedCapsules.Nodup)
        _ _ h.nodup
        fun c₁ h₁ id _ => ?_
      obtain ⟨quic, hquic⟩ := closeIdle_eq sweep c₁ id
      unfold sweepUdp
      rw [hquic]
      split_ifs <;> exact h₁
    · obtain ⟨quic, hquic⟩ := closeIdle_eq sweep c₁ id
      rw [hquic]
      exact h₁

theorem serve {e : CapsuleStreamEvent} (hreliable : c.Reliable e) (hstep : c.serve e = some c') :
    c.Proceeds c' := by
  cases e with
  | setupUdp id =>
    cases hstep
    exact h.setupUdp id
  | setupIp id maxPayload addresses => exact h.setupIp hstep
  | queue id data =>
    cases hstep
    exact h.queueBytes rfl
  | queueDatagram id payload =>
    obtain ⟨⟨c₁, queued⟩, hqueue, rfl⟩ := map_eq_some_iff.mp hstep
    exact h.queueDatagram hqueue
  | flush results => exact h.flush hreliable hstep
  | read id body => exact h.read hreliable hstep
  | relay => exact h.relay hstep
  | requestFinished id now =>
    cases hstep
    split_ifs
    · exact h.finishRequest id now
    · exact h.proceeds_refl
  | finish results => exact h.finish hreliable hstep
  | clientReset id => exact h.clientReset hstep
  | malformedTrailers id => exact h.malformedTrailers hstep
  | targetFailed id =>
    simp only [CapsuleConnection.serve] at hstep
    split_ifs at hstep with hudp
    · exact h.targetFailed hudp hstep
    · cases hstep
      exact h.proceeds_refl
  | sweep sweep => exact h.sweep hreliable hstep

end Framed

/-- In every run the bytes that quiche has taken when the response ends are whole queued capsules.
A request that is marked finished while its decoder holds a part of a capsule is recorded as
truncated; from then on, in every continuation, the response does not end, and when the stream's
capsules are gone then it was reset by the server or by the client. -/
theorem capsuleStreams_framed {h3 : Bool} {events : List CapsuleStreamEvent} {c : CapsuleConnection}
    (hreliable : Meets Reliable serve { h3 } events) (hrun : run serve { h3 } events = some c)
    (id : ℕ) :
    ((c.quic id).fin = true → (c.quic id).Whole) ∧
      (∀ stream, c.capsuleStreams.get id = some stream → stream.finishedAt.isSome = true →
        stream.decoder.isPartial = true → (c.quic id).truncated = true) ∧
      ((c.quic id).truncated = true → ∀ later c', Meets Reliable serve c later →
        run serve c later = some c' → (c'.quic id).fin = false ∧
          (c'.capsuleStreams.contains id = true ∨ (c'.quic id).reset.isSome = true ∨
            (c'.quic id).clientReset = true)) := by
  have hframed : c.Framed := run_invariant
    (fun _ _ _ hc hallowed hstep => (Framed.serve hc hallowed hstep).framed) (framed_start h3)
    hreliable hrun
  refine ⟨(hframed.good id).fin, fun stream hget hfinished hpartial => ?_,
    fun htruncated later c' hlater hrun' => ?_⟩
  · exact ((hframed.good id).output stream hget).truncated.mpr ⟨hfinished, hpartial⟩
  · have hkept : ∀ (c : CapsuleConnection) e c', c.Framed ∧ (c.quic id).truncated = true →
        c.Reliable e → c.serve e = some c' → c'.Framed ∧ (c'.quic id).truncated = true := by
      intro c e c' hc hallowed hstep
      have hproceeds := hc.1.serve hallowed hstep
      exact ⟨hproceeds.framed, hproceeds.truncated id hc.2⟩
    have hend := run_invariant hkept ⟨hframed, htruncated⟩ hlater hrun'
    exact (hend.1.good id).truncated hend.2

/-- A reply of two capsules is written in pieces and ends whole on one stream; on the other the
request ends after the first octet of a capsule. -/
def twoStreams : List CapsuleStreamEvent :=
  [.setupUdp 0, .setupUdp 4, .queueDatagram 0 [7, 8], .queueDatagram 0 [9],
    .flush fun _ => [.accepted 2, .blocked], .flush fun _ => [.accepted 9, .accepted 9],
    .read 4 ⟨[[0]], false, false, 1⟩, .requestFinished 4 2, .requestFinished 0 2,
    .finish fun _ => .accepted 0]

def afterTwoStreams : CapsuleConnection :=
  (run serve { h3 := true } twoStreams).get (by decide +kernel)

theorem capsuleStreams_framed_twoStreams :
    (afterTwoStreams.quic 0).fin = true ∧
      (afterTwoStreams.quic 0).accepted = [0, 3, 0, 7, 8, 0, 2, 0, 9] ∧
      (afterTwoStreams.quic 0).Whole ∧
      (afterTwoStreams.quic 4).truncated = true ∧
      (afterTwoStreams.quic 4).reset = some .messageError ∧
      ∀ later c', Meets Reliable serve afterTwoStreams later →
        run serve afterTwoStreams later = some c' → (c'.quic 4).fin = false := by
  have hrun : run serve { h3 := true } twoStreams = some afterTwoStreams := (some_get _).symm
  have hreliable : Meets Reliable serve { h3 := true } twoStreams := by decide +kernel
  have hfin : (afterTwoStreams.quic 0).fin = true := by decide +kernel
  have htruncated : (afterTwoStreams.quic 4).truncated = true := by decide +kernel
  refine ⟨hfin, by decide +kernel, (capsuleStreams_framed hreliable hrun 0).1 hfin, htruncated,
    by decide +kernel, fun later c' hlater hrun' => ?_⟩
  exact ((capsuleStreams_framed hreliable hrun 4).2.2 htruncated later c' hlater hrun').1

end CapsuleConnection

end MasqueServer
