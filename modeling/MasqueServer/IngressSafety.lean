import MasqueServer.TunIngress

/-!
# Only admissible packets reach the TUN device

Every relay stages a packet only after its own checks, and the checks of all of them amount to
one condition: the source is leased to the tunnel, the destination is allowed, and no routing
header or source route steers the packet elsewhere. A datagram rebuilt from a capsule is
checked against the lease of the stream the capsule came in on.
-/
namespace MasqueServer

open Bool List Option Table

def Admissible (policy : TargetPolicy) (lease : List IpAddr) (packet : Bytes) : Prop :=
  ∃ header, parse packet = .ok header ∧ header.src ∈ lease ∧
    policy.isAllowed header.dst = true ∧ hasSafeRouting packet = some true

variable {packet : Bytes} {config : IngressConfig}

lemma admissible_iff {policy : TargetPolicy} {lease : List IpAddr} {header : IpPacketInfo}
    (h : parse packet = .ok header) :
    Admissible policy lease packet ↔ header.src ∈ lease ∧
      policy.isAllowed header.dst = true ∧ hasSafeRouting packet = some true := by
  refine ⟨fun ⟨header', h', hrest⟩ => ?_, fun hrest => ⟨header, h, hrest⟩⟩
  rw [h, Except.ok.injEq] at h'
  exact h' ▸ hrest

lemma not_admissible {policy : TargetPolicy} {lease : List IpAddr} {e : ParseError}
    (h : parse packet = .error e) : ¬Admissible policy lease packet := by
  intro ⟨header, h', _⟩
  rw [h] at h'
  cases h'

theorem Http3Relay.admits_iff {lease : List IpAddr} :
    Http3Relay.admits config lease packet = true ↔ Admissible config.ipPolicy lease packet := by
  unfold Http3Relay.admits
  cases h : parse packet with
  | error e => simp [not_admissible h]
  | ok header =>
    rw [admissible_iff h]
    by_cases hsrc : header.src ∈ lease <;> simp [hsrc]

theorem Http2Ip.admits_iff {lease : List IpAddr} (hlen : packet.length ≤ maxIpPacket config) :
    Http2Ip.admits config lease packet = true ↔ Admissible config.ipPolicy lease packet := by
  unfold Http2Ip.admits
  rw [if_neg (Nat.not_lt.mpr hlen)]
  cases h : parse packet with
  | error e => simp [not_admissible h]
  | ok header =>
    rw [admissible_iff h]
    by_cases hsrc : header.src ∈ lease <;> simp [hsrc]

instance {policy : TargetPolicy} {lease : List IpAddr} {packet : Bytes} :
    Decidable (Admissible policy lease packet) :=
  match h : parse packet with
  | .ok _ => decidable_of_iff _ (admissible_iff h).symm
  | .error _ => isFalse (not_admissible h)

/-! ### HTTP/3 -/

def StreamDecoder.SameKind : StreamDecoder → StreamDecoder → Prop
  | .datagram _, .datagram _ => True
  | .ip decoder _, .ip decoder' _ => decoder'.decoder.limit = decoder.decoder.limit
  | _, _ => False

lemma StreamDecoder.decode_sameKind {decoder decoder' : StreamDecoder} {chunk : Bytes}
    {frames : List CapsuleFrame} (h : decoder.decode chunk = .ok (decoder', frames)) :
    decoder.SameKind decoder' := by
  cases decoder with
  | datagram decoder =>
    rw [StreamDecoder.decode, bind_ok_iff] at h
    obtain ⟨p, -, h⟩ := h
    cases h
    trivial
  | ip decoder requests =>
    rw [StreamDecoder.decode, bind_ok_iff] at h
    obtain ⟨p, hdecode, h⟩ := h
    cases h
    rw [IpCapsules.decode, bind_ok_iff] at hdecode
    obtain ⟨q, hq, hdecode⟩ := hdecode
    cases hdecode
    exact DatagramCapsules.decodeLoop_limit hq

namespace Http3Relay

/-- A relay's tunnels hold their own leases, each stream has one parser of its tunnel's kind,
and every received capsule still belongs to the stream it came in on. -/
structure Sound (config : IngressConfig) (leases : Table TunnelOwner (List IpAddr)) (conn : ℕ)
    (r : Http3Relay) : Prop where
  leased : ∀ stream lease, r.ipTunnels.get stream = some lease →
    leases.get ⟨conn, stream⟩ = some lease
  ipStream : ∀ stream lease, r.ipTunnels.get stream = some lease →
    ∃ decoder requests, r.capsuleStreams.get stream = some ⟨.ip decoder requests, config.tunMtu⟩ ∧
      decoder.decoder.limit = config.tunMtu + 8
  udpStream : ∀ stream, r.udpTunnels.contains stream = true →
    ∃ decoder maxPayload, r.capsuleStreams.get stream = some ⟨.datagram decoder, maxPayload⟩
  requestStream : ∀ stream cs, r.capsuleStreams.get stream = some cs → IsRequestStream stream
  queued : ∀ c ∈ r.receivedCapsules, ∀ d, HttpDatagram.decode c.wire = .ok d →
    d.streamId = c.origin
  counted : r.receivedCapsuleBytes = (r.receivedCapsules.map fun c => c.wire.length).sum

variable {config : IngressConfig} {leases leases' : Table TunnelOwner (List IpAddr)} {conn : ℕ}
  {r r' : Http3Relay} {stream maxPayload : ℕ}

lemma new_sound : Sound config leases conn .new :=
  ⟨by simp [new], by simp [new], by simp [new, Table.contains], by simp [new], by simp [new],
    by simp [new]⟩

variable (h : r.Sound config leases conn)
include h

lemma Sound.of_kept
    (hkept : ∀ owner lease, leases.get owner = some lease → leases'.get owner = some lease) :
    r.Sound config leases' conn :=
  ⟨fun stream lease hget => hkept _ _ (h.leased stream lease hget), h.ipStream, h.udpStream,
    h.requestStream, h.queued, h.counted⟩

lemma Sound.not_udp {lease : List IpAddr} (hip : r.ipTunnels.get stream = some lease) :
    r.udpTunnels.contains stream = false := by
  obtain ⟨decoder, requests, hcs, -⟩ := h.ipStream stream lease hip
  by_contra hudp
  obtain ⟨decoder', maxPayload, hcs'⟩ := h.udpStream stream (eq_true_of_not_eq_false hudp)
  rw [hcs] at hcs'
  cases hcs'

lemma closeCapsuleStream_sound (stream : ℕ) :
    (r.closeCapsuleStream stream).Sound config leases conn := by
  have hget {β : Type} (t : Table ℕ β) {s : ℕ} {v : β} (hs : (t.remove stream).get s = some v) :
      s ≠ stream ∧ t.get s = some v := by
    rw [Table.get_remove] at hs
    split_ifs at hs with heq
    exact ⟨heq, hs⟩
  refine ⟨fun s lease hs => h.leased s lease (hget _ hs).2, fun s lease hs => ?_, fun s hs => ?_,
    fun s cs hs => h.requestStream s cs (hget _ hs).2, h.queued, h.counted⟩
  · obtain ⟨hne, hold⟩ := hget _ hs
    obtain ⟨decoder, requests, hcs, hlimit⟩ := h.ipStream s lease hold
    exact ⟨decoder, requests, by simp [closeCapsuleStream, hne, hcs], hlimit⟩
  · obtain ⟨u, hu⟩ := Table.contains_iff.mp hs
    obtain ⟨hne, hold⟩ := hget _ hu
    obtain ⟨decoder, maxPayload, hcs⟩ := h.udpStream s (Table.contains_iff.mpr ⟨u, hold⟩)
    exact ⟨decoder, maxPayload, by simp [closeCapsuleStream, hne, hcs]⟩

lemma Sound.setDecoder {decoder decoder' : StreamDecoder}
    (hget : r.capsuleStreams.get stream = some ⟨decoder, maxPayload⟩)
    (hkind : decoder.SameKind decoder') :
    ({ r with capsuleStreams := r.capsuleStreams.put stream ⟨decoder', maxPayload⟩ } :
      Http3Relay).Sound config leases conn := by
  refine ⟨h.leased, fun s lease hs => ?_, fun s hs => ?_, fun s cs hs => ?_, h.queued, h.counted⟩
  · obtain ⟨ip, requests, hcs, hlimit⟩ := h.ipStream s lease hs
    by_cases heq : s = stream
    · subst heq
      rw [hget, some.injEq, CapsuleStream.mk.injEq] at hcs
      obtain ⟨rfl, rfl⟩ := hcs
      cases decoder' with
      | datagram => exact hkind.elim
      | ip ip' requests' => exact ⟨ip', requests', by simp, hkind.trans hlimit⟩
    · exact ⟨ip, requests, by simp [heq, hcs], hlimit⟩
  · obtain ⟨udp, mp, hcs⟩ := h.udpStream s hs
    by_cases heq : s = stream
    · subst heq
      rw [hget, some.injEq, CapsuleStream.mk.injEq] at hcs
      obtain ⟨rfl, rfl⟩ := hcs
      cases decoder' with
      | datagram udp' => exact ⟨udp', maxPayload, by simp⟩
      | ip => exact hkind.elim
    · exact ⟨udp, mp, by simp [heq, hcs]⟩
  · obtain ⟨rfl, -⟩ | ⟨-, hs⟩ := get_put_cases hs
    · exact h.requestStream s _ hget
    · exact h.requestStream s cs hs

lemma receiveCapsule_sound (hstream : IsRequestStream stream) {payload : Bytes}
    (hr : r.receiveCapsule stream maxPayload payload = some r') : r'.Sound config leases conn := by
  unfold receiveCapsule at hr
  split at hr
  · cases hr
    exact h
  · split_ifs at hr
    · cases hr
      exact h
    · cases hr
      exact h
    · obtain ⟨wire, hwire, rfl⟩ := map_eq_some_iff.mp hr
      refine ⟨h.leased, h.ipStream, h.udpStream, h.requestStream, fun c hc d hd => ?_, ?_⟩
      · rcases mem_append.mp hc with hold | hnew
        · exact h.queued c hold d hd
        · obtain rfl := mem_singleton.mp hnew
          exact HttpDatagram.decode_rebuild hstream hwire hd
      · simp [h.counted]

lemma answerRequest_sound {requests : List AssignedAddress}
    (hr : r.answerRequest stream requests = some r') : r'.Sound config leases conn := by
  unfold answerRequest at hr
  split at hr
  · rename_i lease decoder addressRequests mp hip hcs
    split at hr
    · cases hr
      exact h.setDecoder hcs rfl
    · cases hr
  · cases hr

lemma readFrame_sound (hstream : IsRequestStream stream) {frame : CapsuleFrame}
    (hr : r.readFrame stream maxPayload frame = some r') : r'.Sound config leases conn := by
  cases frame with
  | datagram payload => exact receiveCapsule_sound h hstream hr
  | addressRequest requests => exact answerRequest_sound h hr
  | addressAssign | routeAdvertisement | unknown =>
    cases hr
    exact h

lemma readFrames_sound (hstream : IsRequestStream stream) (frames : List CapsuleFrame) :
    (readFrames stream maxPayload r frames).1.Sound config leases conn := by
  induction frames generalizing r with
  | nil => exact h
  | cons frame frames ih =>
    unfold readFrames
    split
    · exact h
    · rename_i r' hr
      exact ih (readFrame_sound h hstream hr)

lemma readBody_sound (stream : ℕ) (chunk : Bytes) (stopAfter : Option ℕ) :
    (r.readBody stream chunk stopAfter).Sound config leases conn := by
  unfold readBody
  split
  · exact h
  · rename_i decoder mp hget
    have hstream := h.requestStream stream _ hget
    split
    · exact closeCapsuleStream_sound h stream
    · rename_i decoder' frames hdecode
      have hset := h.setDecoder hget (StreamDecoder.decode_sameKind hdecode)
      have hread : (readFrames stream mp _ _).1.Sound config leases conn :=
        readFrames_sound hset hstream (frames.take (stopAfter.getD frames.length))
      simp only
      split_ifs
      · exact closeCapsuleStream_sound hread stream
      · exact hread

omit h in
lemma forward_fst (r : Http3Relay) (origin : Option ℕ) (wire : Bytes)
    (finished readable : Bool) :
    ∃ closed, (r.forward config origin wire finished readable).1 = { r with closed } := by
  unfold forward
  split
  · split_ifs
    · exact ⟨true, rfl⟩
    · exact ⟨r.closed, rfl⟩
  · split_ifs
    · exact ⟨r.closed, rfl⟩
    · exact ⟨r.closed, rfl⟩
    · exact ⟨r.closed, rfl⟩
    · split
      · split_ifs <;> exact ⟨r.closed, rfl⟩
      · exact ⟨r.closed, rfl⟩

omit h in
lemma forward_staged {origin : Option ℕ} {wire packet : Bytes} {finished readable : Bool}
    (h : (r.forward config origin wire finished readable).2 = some (stream, packet)) :
    ∃ d lease, HttpDatagram.decode wire = .ok d ∧ stream = origin.getD d.streamId ∧
      r.ipTunnels.get d.streamId = some lease ∧ Admissible config.ipPolicy lease packet := by
  unfold forward at h
  split at h
  · split_ifs at h
  · rename_i d hd
    split_ifs at h
    split at h
    · rename_i lease hlease
      split_ifs at h with hadmits
      cases h
      rw [and_eq_true, admits_iff] at hadmits
      exact ⟨d, lease, hd, rfl, hlease, hadmits.1⟩
    · cases h

lemma Sound.forward (origin : Option ℕ) (wire : Bytes) (finished readable : Bool) :
    (r.forward config origin wire finished readable).1.Sound config leases conn := by
  obtain ⟨closed, heq⟩ := forward_fst r origin wire finished readable
  rw [heq]
  exact ⟨h.leased, h.ipStream, h.udpStream, h.requestStream, h.queued, h.counted⟩

lemma Sound.pop {capsule : ReceivedCapsule} {rest : List ReceivedCapsule}
    (hqueue : r.receivedCapsules = capsule :: rest) : ({ r with
      receivedCapsules := rest
      receivedCapsuleBytes := r.receivedCapsuleBytes - capsule.wire.length } :
      Http3Relay).Sound config leases conn := by
  refine ⟨h.leased, h.ipStream, h.udpStream, h.requestStream, fun c hc => h.queued c ?_, ?_⟩
  · rw [hqueue]
    exact mem_cons_of_mem _ hc
  · have hcount := h.counted
    rw [hqueue, map_cons, sum_cons] at hcount
    simp only
    omega

lemma relay_sound (native : Option NativeDatagram) :
    (r.relay config native).1.Sound config leases conn := by
  unfold relay
  split
  · rename_i capsule rest hqueue
    exact (h.pop hqueue).forward _ _ _ _
  · exact h.forward _ _ _ _
  · exact h

lemma relay_staged {native : Option NativeDatagram} {packet : Bytes}
    (hstaged : (r.relay config native).2 = some (stream, packet)) :
    ∃ lease, leases.get ⟨conn, stream⟩ = some lease ∧ Admissible config.ipPolicy lease packet := by
  unfold relay at hstaged
  split at hstaged
  · rename_i capsule rest hqueue
    obtain ⟨d, lease, hd, rfl, hlease, hadmissible⟩ := forward_staged hstaged
    have horigin := h.queued capsule (by rw [hqueue]; exact mem_cons_self) d hd
    refine ⟨lease, ?_, hadmissible⟩
    rw [getD_some, ← horigin]
    exact h.leased d.streamId lease hlease
  · obtain ⟨d, lease, -, rfl, hlease, hadmissible⟩ := forward_staged hstaged
    exact ⟨lease, h.leased d.streamId lease hlease, hadmissible⟩
  · cases hstaged

end Http3Relay

/-! ### HTTP/2 -/

namespace Http2Ip

variable {config : IngressConfig} {t t' : Http2Ip}

def datagramLimit (config : IngressConfig) (mode : IpCapsuleMode) : ℕ :=
  max (64 * 1024) (maxIpPacket config + if mode = .standard then 8 else 0)

structure Sound (config : IngressConfig) (lease : List IpAddr) (t : Http2Ip) : Prop where
  leased : t.addresses = lease
  limit : t.decoder.decoder.limit = datagramLimit config t.capsuleMode

lemma admissible_of_admits {lease : List IpAddr} {packet : Bytes}
    (h : admits config lease packet = true) : Admissible config.ipPolicy lease packet := by
  have hlen : packet.length ≤ maxIpPacket config := by
    by_contra hlong
    rw [admits, if_pos (by omega)] at h
    cases h
  exact (admits_iff hlen).mp h

lemma readFrame_spec {lease : List IpAddr} (h : t.Sound config lease) {frame : CapsuleFrame}
    {packet : Option Bytes} (hread : t.readFrame config frame = some (t', packet)) :
    t'.Sound config lease ∧ ∀ p ∈ packet, Admissible config.ipPolicy lease p := by
  cases frame with
  | datagram payload =>
    simp only [readFrame] at hread
    split at hread
    · cases hread
    · cases hread
      exact ⟨h, by simp⟩
    · split_ifs at hread with hadmits
      · cases hread
        rw [and_eq_true] at hadmits
        refine ⟨h, fun p hp => ?_⟩
        obtain rfl := mem_some_iff.mp hp
        rw [← h.leased]
        exact admissible_of_admits hadmits.1
      · cases hread
        exact ⟨h, by simp⟩
  | addressRequest requests =>
    simp only [readFrame] at hread
    split at hread
    · cases hread
      exact ⟨⟨h.leased, h.limit⟩, by simp⟩
    · cases hread
  | addressAssign | routeAdvertisement | unknown =>
    cases hread
    exact ⟨h, by simp⟩

lemma readFrames_spec {lease : List IpAddr} (h : t.Sound config lease)
    (frames : List CapsuleFrame) :
    (readFrames config t frames).1.Sound config lease ∧
      ∀ p ∈ (readFrames config t frames).2, Admissible config.ipPolicy lease p := by
  induction frames generalizing t with
  | nil => exact ⟨h, by simp [readFrames]⟩
  | cons frame frames ih =>
    unfold readFrames
    split
    · exact ⟨⟨h.leased, h.limit⟩, by simp⟩
    · rename_i t' packet hread
      obtain ⟨hsound, hpacket⟩ := readFrame_spec h hread
      obtain ⟨hrest, hpackets⟩ := ih hsound
      refine ⟨hrest, fun p hp => ?_⟩
      rcases mem_append.mp hp with hfirst | hlater
      · exact hpacket p (mem_toList.mp hfirst)
      · exact hpackets p hlater

lemma readChunk_spec {lease : List IpAddr} (h : t.Sound config lease) (chunk : Bytes)
    (stopAfter : Option ℕ) :
    (t.readChunk config chunk stopAfter).1.Sound config lease ∧
      ∀ p ∈ (t.readChunk config chunk stopAfter).2, Admissible config.ipPolicy lease p := by
  unfold readChunk
  split
  · exact ⟨h, by simp⟩
  · split
    · exact ⟨⟨h.leased, h.limit⟩, by simp⟩
    · rename_i decoder frames hdecode
      rw [IpCapsules.decode, bind_ok_iff] at hdecode
      obtain ⟨q, hq, hdecode⟩ := hdecode
      cases hdecode
      have hsound : ({ t with decoder := ⟨q.1⟩ } : Http2Ip).Sound config lease :=
        ⟨h.leased, (DatagramCapsules.decodeLoop_limit hq).trans h.limit⟩
      obtain ⟨hread, hpackets⟩ := readFrames_spec hsound (q.2.take (stopAfter.getD q.2.length))
      refine ⟨?_, hpackets⟩
      simp only
      split_ifs
      · exact ⟨hread.leased, hread.limit⟩
      · exact hread

end Http2Ip

/-! ### All tunnels -/

namespace Ingress

variable {config : IngressConfig} {s s' : Ingress}

structure Safe (config : IngressConfig) (s : Ingress) : Prop where
  http3 : ∀ conn r, s.http3.get conn = some r → r.Sound config s.leases conn
  http2 : ∀ owner t, s.http2.get owner = some t →
    ∃ lease, s.leases.get owner = some lease ∧ t.Sound config lease
  staged : ∀ owner packet, (owner, packet) ∈ s.staged →
    ∃ lease, s.leases.get owner = some lease ∧ Admissible config.ipPolicy lease packet

lemma start_safe : Safe config start := ⟨by simp [start], by simp [start], by simp [start]⟩

variable {r : Http3Relay} {leases : Table TunnelOwner (List IpAddr)}

lemma Safe.setRelay (h : s.Safe config) {conn : ℕ} (hr : r.Sound config s.leases conn) :
    (s.setRelay conn r).Safe config := by
  refine ⟨fun conn' r' hget => ?_, h.http2, h.staged⟩
  obtain ⟨rfl, rfl⟩ | ⟨-, hget⟩ := get_put_cases hget
  · exact hr
  · exact h.http3 conn' r' hget

lemma Safe.lease (h : s.Safe config) {owner : TunnelOwner} (hnew : s.leases.contains owner = false)
    (lease : List IpAddr) :
      ({ s with leases := s.leases.put owner lease } : Ingress).Safe config := by
  have hkept : ∀ o l, s.leases.get o = some l → (s.leases.put owner lease).get o = some l := by
    intro o l hget
    have hne : o ≠ owner := by
      intro heq
      rw [heq, contains_eq_false.mp hnew] at hget
      cases hget
    rw [get_put, if_neg hne, hget]
  refine ⟨fun conn r hget => (h.http3 conn r hget).of_kept hkept, fun o t hget => ?_,
    fun o packet hmem => ?_⟩
  · obtain ⟨l, hl, ht⟩ := h.http2 o t hget
    exact ⟨l, hkept o l hl, ht⟩
  · obtain ⟨l, hl, hadmissible⟩ := h.staged o packet hmem
    exact ⟨l, hkept o l hl, hadmissible⟩

lemma isRequestStream_of_mayOpen {stream : ℕ} (h : mayOpen r stream = true) :
    IsRequestStream stream ∧ r.capsuleStreams.get stream = none := by
  simp only [mayOpen, and_eq_true, decide_eq_true_eq, not_eq_true'] at h
  exact ⟨h.1, contains_eq_false.mp h.2⟩

lemma openIp_sound {owner : TunnelOwner} {lease : List IpAddr}
    (h : r.Sound config leases owner.connId) (hlease : leases.get owner = some lease)
    (hopen : mayOpen r owner.streamId = true) :
    ({ r with
      ipTunnels := r.ipTunnels.put owner.streamId lease
      capsuleStreams := r.capsuleStreams.put owner.streamId (.newIp config.tunMtu) } :
      Http3Relay).Sound config leases owner.connId := by
  obtain ⟨hrequest, hnone⟩ := isRequestStream_of_mayOpen hopen
  refine ⟨fun s l hs => ?_, fun s l hs => ?_, fun s hs => ?_, fun s cs hs =>
    ?_, h.queued, h.counted⟩
  · obtain ⟨rfl, rfl⟩ | ⟨-, hs⟩ := get_put_cases hs
    · exact hlease
    · exact h.leased s l hs
  · obtain ⟨heq, -⟩ | ⟨hne, hs⟩ := get_put_cases hs
    · exact ⟨.new (config.tunMtu + 8), .new, by simp [heq, CapsuleStream.newIp], rfl⟩
    · obtain ⟨decoder, requests, hcs, hlimit⟩ := h.ipStream s l hs
      exact ⟨decoder, requests, by simp [hne, hcs], hlimit⟩
  · obtain ⟨decoder, mp, hcs⟩ := h.udpStream s hs
    have hne : s ≠ owner.streamId := by
      intro heq
      rw [heq, hnone] at hcs
      cases hcs
    exact ⟨decoder, mp, by simp [hne, hcs]⟩
  · obtain ⟨rfl, -⟩ | ⟨-, hs⟩ := get_put_cases hs
    · exact hrequest
    · exact h.requestStream s cs hs

lemma openUdp_sound {conn stream : ℕ} (h : r.Sound config leases conn)
    (hopen : mayOpen r stream = true) :
    ({ r with
      udpTunnels := r.udpTunnels.put stream ()
      capsuleStreams := r.capsuleStreams.put stream (.newUdp maxUdpPayload) } :
      Http3Relay).Sound config leases conn := by
  obtain ⟨hrequest, hnone⟩ := isRequestStream_of_mayOpen hopen
  refine ⟨h.leased, fun s l hs => ?_, fun s hs => ?_, fun s cs hs => ?_, h.queued, h.counted⟩
  · obtain ⟨decoder, requests, hcs, hlimit⟩ := h.ipStream s l hs
    have hne : s ≠ stream := by
      intro heq
      rw [heq, hnone] at hcs
      cases hcs
    exact ⟨decoder, requests, by simp [hne, hcs], hlimit⟩
  · by_cases heq : s = stream
    · exact ⟨.new (maxUdpPayload + 8), maxUdpPayload, by simp [heq, CapsuleStream.newUdp]⟩
    · have hold : r.udpTunnels.contains s = true := by simpa [Table.contains, heq] using hs
      obtain ⟨decoder, mp, hcs⟩ := h.udpStream s hold
      exact ⟨decoder, mp, by simp [heq, hcs]⟩
  · obtain ⟨rfl, -⟩ | ⟨-, hs⟩ := get_put_cases hs
    · exact hrequest
    · exact h.requestStream s cs hs

theorem step_safe {e : IngressEvent} (h : s.Safe config) (hstep : s.step config e = some s') :
    s'.Safe config := by
  cases e with
  | connect conn =>
    simp only [step] at hstep
    split_ifs at hstep
    cases hstep
    exact h.setRelay Http3Relay.new_sound
  | openIp owner lease =>
    obtain ⟨r, hr, hstep⟩ := bind_eq_some_iff.mp hstep
    split_ifs at hstep with hopen
    cases hstep
    rw [and_eq_true, not_eq_true'] at hopen
    have hleased := h.lease hopen.2 lease
    exact hleased.setRelay (openIp_sound (hleased.http3 owner.connId r hr) (by simp) hopen.1)
  | openUdp owner =>
    obtain ⟨r, hr, hstep⟩ := bind_eq_some_iff.mp hstep
    split_ifs at hstep with hopen
    cases hstep
    exact h.setRelay (openUdp_sound (h.http3 owner.connId r hr) hopen)
  | close owner =>
    obtain ⟨r, hr, rfl⟩ := map_eq_some_iff.mp hstep
    exact h.setRelay (Http3Relay.closeCapsuleStream_sound (h.http3 owner.connId r hr) _)
  | body owner chunk stopAfter =>
    obtain ⟨r, hr, rfl⟩ := map_eq_some_iff.mp hstep
    exact h.setRelay (Http3Relay.readBody_sound (h.http3 owner.connId r hr) _ _ _)
  | relay conn native =>
    simp only [step] at hstep
    split at hstep
    · cases hstep
    · rename_i r hr
      split_ifs at hstep
      cases hstep
      have hsound := h.http3 conn r hr
      have hset := h.setRelay (Http3Relay.relay_sound hsound native)
      refine ⟨hset.http3, hset.http2, fun owner packet hmem => ?_⟩
      rcases mem_append.mp hmem with hold | hnew
      · exact h.staged owner packet hold
      · obtain ⟨⟨stream, p⟩, hp, heq⟩ := map_eq_some_iff.mp (mem_toList.mp hnew)
        cases heq
        exact Http3Relay.relay_staged hsound hp
  | serve owner mode lease =>
    simp only [step] at hstep
    split_ifs at hstep with hnew
    cases hstep
    have hleased := h.lease (eq_false_iff.mpr hnew) lease
    refine ⟨hleased.http3, fun o t hget => ?_, hleased.staged⟩
    obtain ⟨rfl, rfl⟩ | ⟨-, hget⟩ := get_put_cases hget
    · exact ⟨lease, by simp, rfl, rfl⟩
    · exact hleased.http2 o t hget
  | chunk owner chunk stopAfter =>
    obtain ⟨t, ht, rfl⟩ := map_eq_some_iff.mp hstep
    obtain ⟨lease, hlease, hsound⟩ := h.http2 owner t ht
    obtain ⟨hread, hpackets⟩ := Http2Ip.readChunk_spec hsound chunk stopAfter
    refine ⟨h.http3, fun o t' hget => ?_, fun o packet hmem => ?_⟩
    · obtain ⟨rfl, rfl⟩ | ⟨-, hget⟩ := get_put_cases hget
      · exact ⟨lease, hlease, hread⟩
      · exact h.http2 o t' hget
    · rcases mem_append.mp hmem with hold | hnew
      · exact h.staged o packet hold
      · obtain ⟨p, hp, heq⟩ := List.mem_map.mp hnew
        cases heq
        exact ⟨lease, hlease, hpackets packet hp⟩

end Ingress

end MasqueServer
