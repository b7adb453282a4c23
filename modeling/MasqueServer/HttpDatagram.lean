import MasqueServer.Varint

/-!
# HTTP Datagrams

A datagram starts with the quarter of its request stream's identifier and a context
identifier; the rest is the payload. Request streams are client-initiated and bidirectional,
so their identifiers are the multiples of four below `2 ^ 62`.
-/
namespace MasqueServer

open List

def maxQuarterStreamId : ℕ := 2 ^ 60 - 1

inductive DatagramError
  | tooShort
  | missingQuarterStreamId
  | invalidQuarterStreamId (id : ℕ)
  | invalidStreamId (id : ℕ)
  deriving DecidableEq, Repr

def DatagramError.isConnectionError : DatagramError → Bool
  | .missingQuarterStreamId => true
  | .invalidQuarterStreamId _ => true
  | _ => false

structure HttpDatagram where
  streamId : ℕ
  contextId : ℕ
  payload : Bytes
  deriving DecidableEq

def HttpDatagram.decode (buf : Bytes) : Except DatagramError HttpDatagram :=
  match Varint.decode buf with
  | .error _ => .error .missingQuarterStreamId
  | .ok (qsid, qlen) =>
    if maxQuarterStreamId < qsid then .error (.invalidQuarterStreamId qsid)
    else
      match Varint.decode (buf.drop qlen) with
      | .error _ => .error .tooShort
      | .ok (contextId, clen) => .ok ⟨qsid * 4, contextId, buf.drop (qlen + clen)⟩

def IsRequestStream (streamId : ℕ) : Prop := streamId % 4 = 0 ∧ streamId < 2 ^ 62

/-- The wire form a DATAGRAM capsule's payload is rebuilt into: its stream's quarter in front. -/
def rebuild (streamId : ℕ) (payload : Bytes) : Option Bytes :=
  match Varint.encodeToVec (streamId / 4) [] with
  | (quarter, .ok _) => some (quarter ++ payload)
  | (_, .error _) => none

lemma IsRequestStream.quarter_le {streamId : ℕ} (h : IsRequestStream streamId) :
    streamId / 4 ≤ maxQuarterStreamId := by
  have hlt := h.2
  unfold maxQuarterStreamId
  omega

lemma IsRequestStream.rebuild_eq {streamId : ℕ} (h : IsRequestStream streamId)
    (payload : Bytes) :
    ∃ len, Varint.encodedLen (streamId / 4) = .ok len ∧
      rebuild streamId payload = some (Varint.octets (streamId / 4) len ++ payload) := by
  have hle : streamId / 4 ≤ Varint.maxValue := by
    have hlt := h.2
    unfold Varint.maxValue
    omega
  obtain ⟨len, hlen⟩ := Varint.encodedLen_ok hle
  refine ⟨len, hlen, ?_⟩
  rw [rebuild, Varint.encodeToVec_eq hlen, nil_append]

lemma HttpDatagram.decode_append {q c p : Bytes} {qsid contextId : ℕ}
    (hq : Varint.decode q = .ok (qsid, q.length)) (hqsid : qsid ≤ maxQuarterStreamId)
    (hc : Varint.decode c = .ok (contextId, c.length)) :
    HttpDatagram.decode (q ++ c ++ p) = .ok ⟨qsid * 4, contextId, p⟩ := by
  have hfirst : Varint.decode (q ++ c ++ p) = .ok (qsid, q.length) := by
    rw [append_assoc]
    exact Varint.decode_append hq (c ++ p)
  have hsecond : Varint.decode ((q ++ c ++ p).drop q.length) = .ok (contextId, c.length) := by
    rw [append_assoc, drop_left]
    exact Varint.decode_append hc p
  unfold HttpDatagram.decode
  rw [hfirst]
  simp only
  rw [if_neg (Nat.not_lt.mpr hqsid), hsecond]
  simp only
  rw [← length_append, drop_left]

lemma HttpDatagram.decode_rebuild {streamId : ℕ} (h : IsRequestStream streamId)
    {payload wire : Bytes} (hwire : rebuild streamId payload = some wire) {d : HttpDatagram}
    (hd : HttpDatagram.decode wire = .ok d) : d.streamId = streamId := by
  obtain ⟨len, hlen, hrebuild⟩ := h.rebuild_eq payload
  rw [hrebuild, Option.some.injEq] at hwire
  subst hwire
  unfold HttpDatagram.decode at hd
  rw [Varint.decode_octets hlen payload] at hd
  simp only at hd
  rw [if_neg (Nat.not_lt.mpr h.quarter_le)] at hd
  split at hd
  · cases hd
  · cases hd
    have hmod := h.1
    simp only
    omega

end MasqueServer
