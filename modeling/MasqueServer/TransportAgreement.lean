import MasqueServer.IngressSafety

/-!
# The transports agree on what they relay

A client can send the same packet in four framings. Whatever the lengths of the integers in
its framing, a packet within the limits of both transports is staged for the TUN device
exactly if it is admissible for the lease of its tunnel.
-/
namespace MasqueServer

open List Option

/-- A DATAGRAM capsule with the given value, its type and length encoded in any width. -/
def Framed (value wire : Bytes) : Prop :=
  ∃ t l, wire = t ++ l ++ value ∧ Varint.decode t = .ok (capsuleDatagram, t.length) ∧
    Varint.decode l = .ok (value.length, l.length)

namespace Ingress

/-- The ways to send a packet with context zero on a tunnel, and what the server then does. -/
inductive Sends (s : Ingress) (owner : TunnelOwner) (packet : Bytes) :
    List IngressEvent → Prop
  | native {r : Http3Relay} {q c : Bytes} (hr : s.http3.get owner.connId = some r)
      (hopen : r.closed = false) (hqueue : r.receivedCapsules = [])
      (htunnel : r.ipTunnels.contains owner.streamId = true)
      (hq : Varint.decode q = .ok (owner.streamId / 4, q.length))
      (hc : Varint.decode c = .ok (0, c.length)) :
      Sends s owner packet [.relay owner.connId (some ⟨q ++ c ++ packet, false, false⟩)]
  | capsule {r : Http3Relay} {decoder : IpCapsules} {requests : AddressRequests} {maxPayload : ℕ}
      {c wire : Bytes} (hr : s.http3.get owner.connId = some r)
      (hopen : r.closed = false) (hqueue : r.receivedCapsules = [])
      (htunnel : r.ipTunnels.contains owner.streamId = true)
      (hstream : r.capsuleStreams.get owner.streamId = some ⟨.ip decoder requests, maxPayload⟩)
      (hidle : decoder.isPartial = false) (hc : Varint.decode c = .ok (0, c.length))
      (hwire : Framed (c ++ packet) wire) :
      Sends s owner packet [.body owner wire none, .relay owner.connId none]
  | standard {t : Http2Ip} {c wire : Bytes} (ht : s.http2.get owner = some t)
      (hopen : t.ended = false) (hmode : t.capsuleMode = .standard)
      (hidle : t.decoder.isPartial = false) (hc : Varint.decode c = .ok (0, c.length))
      (hwire : Framed (c ++ packet) wire) : Sends s owner packet [.chunk owner wire none]
  | cloudflare {t : Http2Ip} {wire : Bytes} (ht : s.http2.get owner = some t)
      (hopen : t.ended = false) (hmode : t.capsuleMode = .cloudflare)
      (hidle : t.decoder.isPartial = false) (hwire : Framed packet wire) :
      Sends s owner packet [.chunk owner wire none]

end Ingress

namespace Http3Relay

variable {config : IngressConfig} {leases : Table TunnelOwner (List IpAddr)} {conn stream : ℕ}
  {r : Http3Relay} {lease : List IpAddr} {packet : Bytes}

variable (h : r.Sound config leases conn)
include h

variable (hip : r.ipTunnels.get stream = some lease)
include hip

lemma forward_packet {origin : Option ℕ} (horigin : origin.getD stream = stream) {wire : Bytes}
    (hwire : HttpDatagram.decode wire = .ok ⟨stream, 0, packet⟩) :
    r.forward config origin wire false false =
      (r, if config.tun = true ∧ Admissible config.ipPolicy lease packet then some (stream, packet)
        else none) := by
  have hudp := h.not_udp hip
  unfold forward
  rw [hwire]
  simp only [Bool.false_eq_true, and_false, or_false, if_false, ne_eq, not_true_eq_false, hudp, hip,
    horigin]
  by_cases hadm : Admissible config.ipPolicy lease packet <;> by_cases htun : config.tun = true <;>
    simp [admits_iff, hadm, htun]

lemma relay_native (hqueue : r.receivedCapsules = []) {wire : Bytes}
    (hwire : HttpDatagram.decode wire = .ok ⟨stream, 0, packet⟩) :
    (r.relay config (some ⟨wire, false, false⟩)).2 =
      if config.tun = true ∧ Admissible config.ipPolicy lease packet then some (stream, packet)
      else none := by
  unfold relay
  rw [hqueue]
  exact congrArg Prod.snd (forward_packet h hip getD_none hwire)

lemma relay_received {wire : Bytes} (hqueue : r.receivedCapsules = [⟨stream, wire⟩])
    (hwire : HttpDatagram.decode wire = .ok ⟨stream, 0, packet⟩) (native : Option NativeDatagram) :
    (r.relay config native).2 =
      if config.tun = true ∧ Admissible config.ipPolicy lease packet then some (stream, packet)
      else none := by
  have hforward := forward_packet (h.pop hqueue) hip (getD_some (a := stream)) hwire
  unfold relay
  rw [hqueue]
  exact congrArg Prod.snd hforward

omit hip in
omit h in
lemma receiveCapsule_packet (hqueue : r.receivedCapsules = []) (hcount : r.receivedCapsuleBytes = 0)
    (hstream : IsRequestStream stream) {c : Bytes} (hc : Varint.decode c = .ok (0, c.length))
    (hmtu : packet.length ≤ config.tunMtu) :
    ∃ wire, HttpDatagram.decode wire = .ok ⟨stream, 0, packet⟩ ∧
      r.receiveCapsule stream config.tunMtu (c ++ packet) = some { r with
        receivedCapsules := [⟨stream, wire⟩]
        receivedCapsuleBytes := wire.length } := by
  obtain ⟨len, hlen, hrebuild⟩ := hstream.rebuild_eq (c ++ packet)
  have hquarter : Varint.decode (Varint.octets (stream / 4) len) =
      .ok (stream / 4, (Varint.octets (stream / 4) len).length) := by
    rw [Varint.length_octets hlen, ← Varint.decode_octets hlen [], append_nil]
  have hbounds := Varint.decode_bounds hc
  have hle := config.tunMtu_le
  refine ⟨Varint.octets (stream / 4) len ++ (c ++ packet), ?_, ?_⟩
  · rw [← append_assoc, HttpDatagram.decode_append hquarter hstream.quarter_le hc]
    have hmod := hstream.1
    congr 2
    omega
  · unfold receiveCapsule
    rw [Varint.decode_append hc packet]
    simp only [ne_eq, not_true_eq_false, if_false, hqueue, hcount, hrebuild, length_append,
      length_nil, nil_append, map_some]
    rw [if_neg (by omega), if_neg (by simp [maxReceivedPackets, maxReceivedBytes]; omega),
      Nat.zero_add]

lemma readBody_packet (hqueue : r.receivedCapsules = []) {decoder : IpCapsules}
    {requests : AddressRequests} {maxPayload : ℕ}
    (hstream : r.capsuleStreams.get stream = some ⟨.ip decoder requests, maxPayload⟩)
    (hidle : decoder.isPartial = false) {c wire : Bytes}
    (hc : Varint.decode c = .ok (0, c.length)) (hwire : Framed (c ++ packet) wire)
    (hmtu : packet.length ≤ config.tunMtu) :
    ∃ capsuleStreams datagram, HttpDatagram.decode datagram = .ok ⟨stream, 0, packet⟩ ∧
      r.readBody stream wire none = { r with
        capsuleStreams
        receivedCapsules := [⟨stream, datagram⟩]
        receivedCapsuleBytes := datagram.length } := by
  obtain ⟨t, l, rfl, ht, hl⟩ := hwire
  obtain ⟨ip, reqs, hcs, hlimit⟩ := h.ipStream stream lease hip
  rw [hstream, some.injEq, CapsuleStream.mk.injEq, StreamDecoder.ip.injEq] at hcs
  obtain ⟨⟨rfl, rfl⟩, rfl⟩ := hcs
  have hbounds := Varint.decode_bounds hc
  have hframes := IpCapsules.decode_datagram hidle ht hl (by rw [hlimit, length_append]; omega)
  have hdecode : (StreamDecoder.ip decoder requests).decode (t ++ l ++ (c ++ packet)) =
      .ok (.ip ⟨decoder.decoder.cleared capsuleDatagram⟩ requests, [.datagram (c ++ packet)]) := by
    rw [StreamDecoder.decode, hframes]
    rfl
  have hcount : r.receivedCapsuleBytes = 0 := by
    rw [h.counted, hqueue]
    rfl
  let streams := r.capsuleStreams.put stream
    ⟨.ip ⟨decoder.decoder.cleared capsuleDatagram⟩ requests, config.tunMtu⟩
  have hreceive := receiveCapsule_packet (r := { r with capsuleStreams := streams }) hqueue hcount
    (h.requestStream stream _ hstream) hc hmtu
  obtain ⟨datagram, hdatagram, hreceive⟩ := hreceive
  refine ⟨streams, datagram, hdatagram, ?_⟩
  have hframes : readFrames stream config.tunMtu { r with capsuleStreams := streams }
      [.datagram (c ++ packet)] = ({ r with
        capsuleStreams := streams
        receivedCapsules := [⟨stream, datagram⟩]
        receivedCapsuleBytes := datagram.length }, false) := by
    rw [readFrames, readFrame, hreceive]
    rfl
  unfold readBody
  rw [hstream]
  simp only
  rw [hdecode]
  change (if (readFrames stream config.tunMtu { r with capsuleStreams := streams }
    [.datagram (c ++ packet)]).2 = true ∨ false = true then _ else
      (readFrames stream config.tunMtu { r with capsuleStreams := streams }
        [.datagram (c ++ packet)]).1) = _
  rw [hframes]
  rfl

end Http3Relay

namespace Http2Ip

variable {config : IngressConfig} {lease : List IpAddr} {t : Http2Ip}

lemma readChunk_packet (h : t.Sound config lease) (hopen : t.ended = false)
    (hidle : t.decoder.isPartial = false) {value packet wire : Bytes}
    (hwire : Framed value wire) (hvalue : value.length ≤ datagramLimit config t.capsuleMode)
    (hpacket : t.capsuleMode.decodePacket value = .ok (some packet))
    (hlen : packet.length ≤ maxIpPacket config) :
    (t.readChunk config wire none).2 =
      if config.tun = true ∧ Admissible config.ipPolicy lease packet then [packet] else [] := by
  obtain ⟨ty, l, rfl, hty, hl⟩ := hwire
  have hdecode := IpCapsules.decode_datagram hidle hty hl (by rw [h.limit]; exact hvalue)
  unfold readChunk
  rw [hopen, if_neg (by simp), hdecode]
  simp only [getD_none, length_cons, length_nil, take_succ_cons, take_nil,
    readFrames, readFrame, hpacket, h.leased]
  by_cases hadm : Admissible config.ipPolicy lease packet <;> by_cases htun : config.tun = true <;>
    simp [admits_iff hlen, hadm, htun]

end Http2Ip

namespace Ingress

variable {config : IngressConfig} {s : Ingress} {owner : TunnelOwner} {lease : List IpAddr}
  {packet : Bytes}

def delivered (config : IngressConfig) (owner : TunnelOwner) (lease : List IpAddr)
    (packet : Bytes) : List (TunnelOwner × Bytes) :=
  if config.tun = true ∧ Admissible config.ipPolicy lease packet then [(owner, packet)] else []

lemma Safe.tunnel (h : s.Safe config) (hlease : s.leases.get owner = some lease) {r : Http3Relay}
    (hr : s.http3.get owner.connId = some r) (hip : r.ipTunnels.contains owner.streamId = true) :
    r.ipTunnels.get owner.streamId = some lease := by
  obtain ⟨lease', hget⟩ := Table.contains_iff.mp hip
  have hleased := (h.http3 owner.connId r hr).leased owner.streamId lease' hget
  rw [hlease, some.injEq] at hleased
  rw [hget, hleased]

lemma relay_delivers {r : Http3Relay} {native : Option NativeDatagram}
    (hr : s.http3.get owner.connId = some r) (hopen : r.closed = false)
    (hrelay : (r.relay config native).2 =
      if config.tun = true ∧ Admissible config.ipPolicy lease packet then
        some (owner.streamId, packet) else none) :
    ∃ s', s.step config (.relay owner.connId native) = some s' ∧
      s'.staged = s.staged ++ delivered config owner lease packet := by
  refine ⟨_, by simp only [step, hr, hopen]; rfl, ?_⟩
  simp only [hrelay, delivered]
  split_ifs <;> simp

lemma chunk_delivers {t : Http2Ip} {wire : Bytes} (ht : s.http2.get owner = some t)
    (hread : (t.readChunk config wire none).2 =
      if config.tun = true ∧ Admissible config.ipPolicy lease packet then [packet] else []) :
    ∃ s', s.step config (.chunk owner wire none) = some s' ∧
      s'.staged = s.staged ++ delivered config owner lease packet := by
  refine ⟨_, by simp only [step, ht]; rfl, ?_⟩
  simp only [hread, delivered]
  split_ifs <;> simp

lemma run_single {e : IngressEvent} {s' : Ingress} (h : s.step config e = some s') :
    run (step config) s [e] = some s' := by
  rw [run_cons, h, bind_some, run_nil]

theorem sends_delivers (h : s.Safe config) (hlease : s.leases.get owner = some lease)
    (hmtu : packet.length ≤ config.tunMtu) (hlimit : packet.length ≤ config.http2MaxDatagram)
    {events : List IngressEvent} (hsends : s.Sends owner packet events) :
    ∃ s', run (step config) s events = some s' ∧
      s'.staged = s.staged ++ delivered config owner lease packet := by
  have hmax : packet.length ≤ maxIpPacket config := le_min hmtu hlimit
  cases hsends with
  | native hr hopen hqueue htunnel hq hc =>
    rename_i r q c
    have hsound := h.http3 owner.connId r hr
    have hip := h.tunnel hlease hr htunnel
    obtain ⟨decoder, requests, hcs, -⟩ := hsound.ipStream owner.streamId lease hip
    have hstream := hsound.requestStream owner.streamId _ hcs
    have hquarter : owner.streamId / 4 * 4 = owner.streamId := by
      have hmod := hstream.1
      omega
    have hdatagram := HttpDatagram.decode_append (p := packet) hq hstream.quarter_le hc
    rw [hquarter] at hdatagram
    obtain ⟨s', hstep, hstaged⟩ := relay_delivers hr hopen
      (Http3Relay.relay_native hsound hip hqueue hdatagram)
    exact ⟨s', run_single hstep, hstaged⟩
  | capsule hr hopen hqueue htunnel hstream hidle hc hwire =>
    rename_i r decoder requests maxPayload c wire
    have hsound := h.http3 owner.connId r hr
    have hip := h.tunnel hlease hr htunnel
    obtain ⟨streams, datagram, hdatagram, hbody⟩ :=
      Http3Relay.readBody_packet hsound hip hqueue hstream hidle hc hwire hmtu
    have hread := Http3Relay.readBody_sound hsound owner.streamId wire none
    rw [hbody] at hread
    have hrelay := Http3Relay.relay_received hread hip rfl hdatagram none
    rw [← hbody] at hrelay
    have hget : (s.setRelay owner.connId (r.readBody owner.streamId wire none)).http3.get
        owner.connId = some (r.readBody owner.streamId wire none) := by
      simp [setRelay]
    obtain ⟨s', hstep, hstaged⟩ := relay_delivers hget (by rw [hbody]; exact hopen) hrelay
    refine ⟨s', ?_, hstaged⟩
    rw [run_cons, step, hr, map_some, bind_some]
    exact run_single hstep
  | standard ht hopen hmode hidle hc hwire =>
    rename_i t c wire
    obtain ⟨lease', hlease', hsound⟩ := h.http2 owner t ht
    rw [hlease, some.injEq] at hlease'
    subst hlease'
    have hbounds := Varint.decode_bounds hc
    have hpacket : t.capsuleMode.decodePacket (c ++ packet) = .ok (some packet) := by
      rw [hmode, IpCapsuleMode.decodePacket, Varint.decode_append hc packet]
      simp
    have hvalue : (c ++ packet).length ≤ Http2Ip.datagramLimit config t.capsuleMode := by
      rw [hmode, length_append, Http2Ip.datagramLimit, if_pos rfl]
      omega
    obtain ⟨s', hstep, hstaged⟩ := chunk_delivers ht
      (Http2Ip.readChunk_packet hsound hopen hidle hwire hvalue hpacket hmax)
    exact ⟨s', run_single hstep, hstaged⟩
  | cloudflare ht hopen hmode hidle hwire =>
    rename_i t wire
    obtain ⟨lease', hlease', hsound⟩ := h.http2 owner t ht
    rw [hlease, some.injEq] at hlease'
    subst hlease'
    have hpacket : t.capsuleMode.decodePacket packet = .ok (some packet) := by
      rw [hmode, IpCapsuleMode.decodePacket]
    have hvalue : packet.length ≤ Http2Ip.datagramLimit config t.capsuleMode := by
      rw [Http2Ip.datagramLimit]
      omega
    obtain ⟨s', hstep, hstaged⟩ := chunk_delivers ht
      (Http2Ip.readChunk_packet hsound hopen hidle hwire hvalue hpacket hmax)
    exact ⟨s', run_single hstep, hstaged⟩

/-- Over every run, a packet staged for the TUN device has a source leased to its own tunnel,
an allowed destination and safe routing. A packet with context zero that is within the limits
of both transports is staged, in whichever framing it is sent, exactly if it is admissible for
the lease of its tunnel. -/
theorem tunIngress_admissible (config : IngressConfig) {es : List IngressEvent} {s : Ingress}
    (hrun : run (step config) start es = some s) :
    (∀ owner packet, (owner, packet) ∈ s.staged → ∃ lease header,
      s.leases.get owner = some lease ∧ parse packet = .ok header ∧ header.src ∈ lease ∧
        config.ipPolicy.isAllowed header.dst = true ∧ hasSafeRouting packet = some true) ∧
      ∀ owner lease packet events, s.leases.get owner = some lease →
        packet.length ≤ config.tunMtu → packet.length ≤ config.http2MaxDatagram →
        s.Sends owner packet events →
        ∃ s', run (step config) s events = some s' ∧
          s'.staged = s.staged ++ delivered config owner lease packet := by
  have hsafe : s.Safe config := run_preserves (fun _ _ _ h => step_safe h) start_safe hrun
  refine ⟨fun owner packet hmem => ?_, ?_⟩
  · obtain ⟨lease, hlease, header, hparse, hadmissible⟩ := hsafe.staged owner packet hmem
    exact ⟨lease, header, hlease, hparse, hadmissible⟩
  · intro owner lease packet events hlease hmtu hlimit hsends
    exact sends_delivers hsafe hlease hmtu hlimit hsends

def documentationIngress : IngressConfig where
  tunMtu := 1280
  http2MaxDatagram := 1200
  ipPolicy := ⟨[.v4 ⟨0xc0000200, 24, by decide⟩], [], none⟩
  tun := true
  tunMtu_le := by decide
  http2MaxDatagram_le := by decide

def echoPacket : Bytes :=
  [0x45, 0, 0, 20, 0, 0, 0, 0, 64, 17, 0, 0, 10, 0, 0, 2, 192, 0, 2, 1]

def spoofingTunnel : Option Ingress :=
  run (step documentationIngress) start
    [.connect 1, .openIp ⟨1, 0⟩ [.v4 0x0a000002], .serve ⟨2, 1⟩ .standard [.v4 0x0a000003],
      .chunk ⟨2, 1⟩ ([0, 21, 0] ++ echoPacket) none]

def spoofingTunnelEnd : Ingress := spoofingTunnel.get (by decide)

/-- There, nothing is staged until the HTTP/3 tunnel sends the packet itself. -/
theorem tunIngress_admissible_spoofed :
    spoofingTunnel = some spoofingTunnelEnd ∧ spoofingTunnelEnd.staged = [] ∧
    ∃ s', run (step documentationIngress) spoofingTunnelEnd
        [.body ⟨1, 0⟩ ([0, 21, 0] ++ echoPacket) none, .relay 1 none] = some s' ∧
      s'.staged = [(⟨1, 0⟩, echoPacket)] := by
  have hrun : spoofingTunnel = some spoofingTunnelEnd := (some_get _).symm
  have hsends : spoofingTunnelEnd.Sends ⟨1, 0⟩ echoPacket
      [.body ⟨1, 0⟩ ([0, 21, 0] ++ echoPacket) none, .relay 1 none] :=
    .capsule rfl rfl rfl rfl rfl rfl (rfl : Varint.decode [0] = .ok (0, 1))
      ⟨[0], [21], rfl, rfl, rfl⟩
  obtain ⟨s', hs', hstaged⟩ := (tunIngress_admissible documentationIngress hrun).2 ⟨1, 0⟩
    [.v4 0x0a000002] echoPacket _ rfl (by decide) (by decide) hsends
  refine ⟨hrun, by decide, s', hs', ?_⟩
  rw [hstaged]
  decide

end Ingress

end MasqueServer
