import MasqueServer.HttpDatagram

/-!
# The HTTP Datagram codec

Datagrams are written by the general encoder, or behind a header that a tunnel encodes once
for its stream and context zero. Both give the same octets, and reading them gives the
datagram back.
-/
namespace MasqueServer

open List

/-- `encode`. The two length computations size the buffer and can fail before anything is
written. -/
def HttpDatagram.encode (dgram : HttpDatagram) : Except DatagramError Bytes := do
  if dgram.streamId % 4 ≠ 0 ∨ Varint.maxValue < dgram.streamId then
    throw (.invalidStreamId dgram.streamId)
  let qsid := dgram.streamId / 4
  let _ ← (Varint.encodedLen qsid).mapError fun _ => .invalidStreamId dgram.streamId
  let _ ← (Varint.encodedLen dgram.contextId).mapError fun _ => .tooShort
  let buf ← (Varint.appendTo qsid []).mapError fun _ => .invalidStreamId dgram.streamId
  let buf ← (Varint.appendTo dgram.contextId buf).mapError fun _ => .tooShort
  return buf ++ dgram.payload

variable {len : ℕ} {buf : Bytes} {streamId : ℕ} {dgram : HttpDatagram}

lemma Varint.encode_eq {value : ℕ} (h : Varint.encodedLen value = .ok len)
    (hfits : len ≤ buf.length) :
    Varint.encode value buf = .ok (Varint.octets value len ++ buf.drop len, len) := by
  simp only [Varint.encode, h, bind, Except.bind]
  rw [if_neg (by omega)]

lemma Varint.length_encode {value : ℕ} {bytes : Bytes}
    (h : Varint.encode value buf = .ok (bytes, len)) :
    len ≤ 8 ∧ len ≤ bytes.length ∧ bytes.length = buf.length := by
  cases hlen : Varint.encodedLen value with
  | error e => simp [Varint.encode, hlen, bind, Except.bind] at h
  | ok n =>
    simp only [Varint.encode, hlen, bind, Except.bind] at h
    split_ifs at h with hshort
    cases h
    have hoctets := Varint.length_octets hlen
    have hb := Varint.decode_bounds (Varint.decode_octets hlen [])
    rw [length_append, length_drop, hoctets]
    omega

/-- The encoded quarter stream identifier and context zero of one stream, at the start of a
buffer of nine octets. -/
structure DatagramHeader where
  bytes : Bytes
  len : ℕ
  size_bytes : bytes.length = 9
  len_le : len ≤ bytes.length

def DatagramHeader.new (streamId : ℕ) : Except DatagramError DatagramHeader :=
  if streamId % 4 ≠ 0 ∨ Varint.maxValue < streamId then .error (.invalidStreamId streamId)
  else
    match h : Varint.encode (streamId / 4) (List.replicate 9 0) with
    | .error _ => .error (.invalidStreamId streamId)
    | .ok (bytes, qlen) =>
      have hsize : bytes.length = 9 := by
        have hlen := (Varint.length_encode h).2.2
        rwa [length_replicate] at hlen
      .ok ⟨bytes, (qlen + 1) % 256, hsize, by
        have hlen := (Varint.length_encode h).1
        omega⟩

def DatagramHeader.asBytes (header : DatagramHeader) : Bytes := header.bytes.take header.len

def DatagramHeader.encode (header : DatagramHeader) (payload : Bytes) : Bytes :=
  header.asBytes ++ payload

def DatagramHeader.encodeInto (header : DatagramHeader) (payload _buf : Bytes) :
    Bytes :=
  [] ++ header.asBytes ++ payload

def encodePayload (streamId : ℕ) (payload : Bytes) : Except DatagramError Bytes := do
  return (← DatagramHeader.new streamId).encode payload

def encodePayloadInto (streamId : ℕ) (payload buf : Bytes) :
    Except DatagramError Bytes := do
  return (← DatagramHeader.new streamId).encodeInto payload buf

/-! ### Writing -/

lemma IsRequestStream.encodable (h : IsRequestStream streamId) :
    ¬(streamId % 4 ≠ 0 ∨ Varint.maxValue < streamId) := by
  have hmod := h.1
  have hlt := h.2
  unfold Varint.maxValue
  omega

lemma isRequestStream_of_encodable (h : ¬(streamId % 4 ≠ 0 ∨ Varint.maxValue < streamId)) :
    IsRequestStream streamId := by
  unfold Varint.maxValue at h
  exact ⟨by omega, by omega⟩

lemma IsRequestStream.encodedLen_quarter (h : IsRequestStream streamId) :
    ∃ len, Varint.encodedLen (streamId / 4) = .ok len := by
  obtain ⟨len, hlen, -⟩ := h.rebuild_eq []
  exact ⟨len, hlen⟩

lemma HttpDatagram.encode_eq {qlen clen : ℕ} (hstream : IsRequestStream dgram.streamId)
    (hq : Varint.encodedLen (dgram.streamId / 4) = .ok qlen)
    (hc : Varint.encodedLen dgram.contextId = .ok clen) :
    dgram.encode = .ok (Varint.octets (dgram.streamId / 4) qlen ++
      Varint.octets dgram.contextId clen ++ dgram.payload) := by
  unfold HttpDatagram.encode
  rw [if_neg hstream.encodable]
  simp only [hq, hc, Varint.appendTo_eq hq, Varint.appendTo_eq hc, Except.mapError, bind,
    Except.bind, pure, Except.pure, nil_append]

lemma octets_zero : Varint.octets 0 1 = [0] := by decide

lemma DatagramHeader.new_eq (h : IsRequestStream streamId)
    (hlen : Varint.encodedLen (streamId / 4) = .ok len) :
    ∃ header, DatagramHeader.new streamId = .ok header ∧
      header.asBytes = Varint.octets (streamId / 4) len ++ [0] := by
  have hoctets := Varint.length_octets hlen
  have hle := (Varint.decode_bounds (Varint.decode_octets hlen [])).2.1
  have hencode : Varint.encode (streamId / 4) (List.replicate 9 0) = _ :=
    Varint.encode_eq hlen (by rw [length_replicate]; omega)
  unfold DatagramHeader.new
  rw [if_neg h.encodable]
  split
  next e he => rw [hencode] at he; cases he
  next bytes qlen hok =>
    rw [hencode] at hok
    cases hok
    refine ⟨_, rfl, ?_⟩
    obtain ⟨free, hfree⟩ : ∃ free, 9 - len = free + 1 := ⟨8 - len, by omega⟩
    show List.take ((len + 1) % 256) (Varint.octets (streamId / 4) len ++ _) = _
    rw [Nat.mod_eq_of_lt (by omega), drop_replicate, hfree, replicate_succ]
    generalize Varint.octets (streamId / 4) len = quarter at hoctets
    rw [← hoctets, take_length_add_append, take_succ_cons, take_zero]

lemma encodePayload_eq_encode (streamId : ℕ) (payload : Bytes) :
    (DatagramHeader.new streamId).map (·.encode payload) =
      HttpDatagram.encode ⟨streamId, 0, payload⟩ := by
  by_cases hbad : streamId % 4 ≠ 0 ∨ Varint.maxValue < streamId
  · unfold DatagramHeader.new HttpDatagram.encode
    rw [if_pos hbad, if_pos hbad]
    rfl
  · have hstream := isRequestStream_of_encodable hbad
    obtain ⟨len, hlen⟩ := hstream.encodedLen_quarter
    obtain ⟨header, hnew, hbytes⟩ := DatagramHeader.new_eq hstream hlen
    have hgeneral : HttpDatagram.encode ⟨streamId, 0, payload⟩ = _ :=
      HttpDatagram.encode_eq hstream hlen rfl
    rw [hnew, hgeneral, octets_zero, ← hbytes]
    rfl

/-! ### Reading -/

lemma HttpDatagram.decode_encode (hstream : IsRequestStream dgram.streamId)
    (hcontext : dgram.contextId ≤ Varint.maxValue) :
    ∃ wire, dgram.encode = .ok wire ∧ HttpDatagram.decode wire = .ok dgram := by
  obtain ⟨qlen, hq⟩ := hstream.encodedLen_quarter
  obtain ⟨clen, hc⟩ := Varint.encodedLen_ok hcontext
  refine ⟨_, HttpDatagram.encode_eq hstream hq hc, ?_⟩
  have hread (value len : ℕ) (h : Varint.encodedLen value = .ok len) :
      Varint.decode (Varint.octets value len) = .ok (value, (Varint.octets value len).length) := by
    rw [Varint.length_octets h]
    have hdec := Varint.decode_octets h []
    rwa [append_nil] at hdec
  rw [HttpDatagram.decode_append (hread _ _ hq) hstream.quarter_le (hread _ _ hc),
    Nat.div_mul_cancel (Nat.dvd_of_mod_eq_zero hstream.1)]

lemma HttpDatagram.isRequestStream_of_decode (h : HttpDatagram.decode buf = .ok dgram) :
    IsRequestStream dgram.streamId := by
  unfold HttpDatagram.decode maxQuarterStreamId at h
  split at h
  · cases h
  · split_ifs at h with hlarge
    split at h
    · cases h
    · cases h
      exact ⟨by simp, by simp only; omega⟩

/-- The quarter stream identifier is missing, cut short, or above its maximum. Nothing is asked
of the octets after it. -/
inductive QuarterFault : Bytes → Prop
  | missing : QuarterFault []
  | truncated (first : UInt8) (rest : Bytes) (short : rest.length + 1 < Varint.lengthOf first) :
      QuarterFault (first :: rest)
  | tooLarge (first : UInt8) (low rest : Bytes)
      (whole : low.length + 1 = Varint.lengthOf first)
      (large : 2 ^ 60 - 1 < Varint.ofBytes ((first &&& 0x3f) :: low)) :
      QuarterFault (first :: low ++ rest)

lemma HttpDatagram.decode_of_fault (h : QuarterFault buf) :
    ∃ e, HttpDatagram.decode buf = .error e ∧ e.isConnectionError = true := by
  cases h with
  | missing => exact ⟨_, rfl, rfl⟩
  | truncated first rest short =>
    refine ⟨.missingQuarterStreamId, ?_, rfl⟩
    unfold HttpDatagram.decode
    rw [Varint.decode_cons, if_pos short]
  | tooLarge first low rest whole large =>
    refine ⟨.invalidQuarterStreamId (Varint.ofBytes ((first &&& 0x3f) :: low)), ?_, rfl⟩
    unfold HttpDatagram.decode maxQuarterStreamId
    rw [cons_append, Varint.decode_cons, if_neg (by rw [length_append]; omega), ← whole,
      Nat.add_sub_cancel, take_left]
    simp only
    rw [if_pos large]

lemma HttpDatagram.fault_of_decode {e : DatagramError} (h : HttpDatagram.decode buf = .error e)
    (he : e.isConnectionError = true) :
    QuarterFault buf := by
  cases buf with
  | nil => exact .missing
  | cons first rest =>
    by_cases hshort : rest.length + 1 < Varint.lengthOf first
    · exact .truncated first rest hshort
    · unfold HttpDatagram.decode maxQuarterStreamId at h
      rw [Varint.decode_cons, if_neg hshort] at h
      simp only at h
      split_ifs at h with hlarge
      · have hb := Varint.lengthOf_bounds first
        have hsplit : first :: rest = first :: rest.take (Varint.lengthOf first - 1) ++
            rest.drop (Varint.lengthOf first - 1) := by
          rw [cons_append, take_append_drop]
        rw [hsplit]
        exact .tooLarge first _ _ (by rw [length_take]; omega) hlarge
      · split at h
        · cases h
          cases he
        · cases h

lemma HttpDatagram.decode_rebuilt {contextId : ℕ} {payload : Bytes}
    (hstream : IsRequestStream streamId) (hcontext : Varint.decode payload = .ok (contextId, len)) :
    ∃ wire, rebuild streamId payload = some wire ∧
      HttpDatagram.decode wire = .ok ⟨streamId, contextId, payload.drop len⟩ := by
  obtain ⟨qlen, hq, hrebuild⟩ := hstream.rebuild_eq payload
  refine ⟨_, hrebuild, ?_⟩
  have hoctets := Varint.length_octets hq
  unfold HttpDatagram.decode
  rw [Varint.decode_octets hq]
  simp only
  rw [if_neg (Nat.not_lt.mpr hstream.quarter_le), drop_left' hoctets, hcontext]
  simp only
  rw [← drop_drop, drop_left' hoctets,
    Nat.div_mul_cancel (Nat.dvd_of_mod_eq_zero hstream.1)]

/-- The codec as a whole: what is encoded is read back, the cached header writes what the
general encoder writes, the connection fails exactly on a bad quarter stream identifier, every
stream identifier that is read is in range, and a datagram from a capsule keeps its stream,
context and payload. -/
theorem httpDatagram_codec :
    (∀ dgram : HttpDatagram, IsRequestStream dgram.streamId →
      dgram.contextId ≤ Varint.maxValue →
      ∃ wire, dgram.encode = .ok wire ∧ HttpDatagram.decode wire = .ok dgram) ∧
    (∀ (streamId : ℕ) (payload buf : Bytes),
      let general := HttpDatagram.encode ⟨streamId, 0, payload⟩
      (DatagramHeader.new streamId).map (·.encode payload) = general ∧
      (DatagramHeader.new streamId).map (·.encodeInto payload buf) = general ∧
      encodePayload streamId payload = general ∧
      encodePayloadInto streamId payload buf = general) ∧
    (∀ buf : Bytes,
      (∃ e, HttpDatagram.decode buf = .error e ∧ e.isConnectionError = true) ↔
        QuarterFault buf) ∧
    (∀ (buf : Bytes) (dgram : HttpDatagram), HttpDatagram.decode buf = .ok dgram →
      IsRequestStream dgram.streamId ∧ dgram.streamId < 2 ^ 64) ∧
    (∀ (streamId contextId len : ℕ) (payload : Bytes), IsRequestStream streamId →
      Varint.decode payload = .ok (contextId, len) →
      ∃ wire, rebuild streamId payload = some wire ∧
        HttpDatagram.decode wire = .ok ⟨streamId, contextId, payload.drop len⟩) := by
  refine ⟨fun _ => HttpDatagram.decode_encode, fun streamId payload buf => ?_, fun buf => ?_,
    fun buf dgram h => ?_, fun _ _ _ _ => HttpDatagram.decode_rebuilt⟩
  · have hsame := encodePayload_eq_encode streamId payload
    refine ⟨hsame, ?_, ?_, ?_⟩
    · exact hsame
    · rw [← hsame, encodePayload]
      cases DatagramHeader.new streamId <;> rfl
    · rw [← hsame, encodePayloadInto]
      cases DatagramHeader.new streamId <;> rfl
  · exact ⟨fun ⟨_, h, he⟩ => HttpDatagram.fault_of_decode h he, HttpDatagram.decode_of_fault⟩
  · have hstream := HttpDatagram.isRequestStream_of_decode h
    exact ⟨hstream, hstream.2.trans (by decide)⟩

end MasqueServer
