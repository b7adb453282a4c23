import MasqueServer.ByteOrder
import MasqueServer.Runs

/-!
# Retry tokens

A Retry token is a sealed record of the time it was issued, the client's address, the address
the client sent to, and the connection identifier the client had chosen. Addresses are compared
in canonical form, so an IPv4-mapped address stands for its IPv4 address, and the client may
change its port.
-/
namespace MasqueServer

open List Option

abbrev ConnectionId := Bytes

inductive SocketAddr
  | v4 (ip : Ipv4Addr) (port : BitVec 16)
  | v6 (ip : Ipv6Addr) (port : BitVec 16) (flowinfo scopeId : BitVec 32)
  deriving DecidableEq

namespace SocketAddr

def ip : SocketAddr → IpAddr
  | .v4 ip _ => .v4 ip
  | .v6 ip _ _ _ => .v6 ip

def port : SocketAddr → BitVec 16
  | .v4 _ port => port
  | .v6 _ port _ _ => port

def flowinfo : SocketAddr → BitVec 32
  | .v4 _ _ => 0
  | .v6 _ _ flowinfo _ => flowinfo

def scopeId : SocketAddr → BitVec 32
  | .v4 _ _ => 0
  | .v6 _ _ _ scopeId => scopeId

lemma ext_iff {a b : SocketAddr} :
    a = b ↔ a.ip = b.ip ∧ a.port = b.port ∧ a.flowinfo = b.flowinfo ∧ a.scopeId = b.scopeId := by
  cases a <;> cases b <;> simp [ip, port, flowinfo, scopeId]

end SocketAddr

inductive QuicRetryMode
  | off
  | adaptive
  | always
  deriving DecidableEq

def tokenVersion : UInt8 := 1
def nonceLen : ℕ := 12
def tagLen : ℕ := 16
def maxConnIdLen : ℕ := 20
def minBodyLen : ℕ := 1 + 8 + (1 + 4) + (1 + 4 + 2 + 4) + 1 + 1
def maxBodyLen : ℕ := 1 + 8 + (1 + 16) + (1 + 16 + 2 + 4) + 1 + maxConnIdLen
def minTokenLen : ℕ := nonceLen + minBodyLen + tagLen
def maxTokenLen : ℕ := nonceLen + maxBodyLen + tagLen

def retryRequired (mode : QuicRetryMode) (activeConnections adaptiveThreshold : ℕ) : Bool :=
  match mode with
  | .off => false
  | .always => true
  | .adaptive => adaptiveThreshold ≤ activeConnections

/-! ### Addresses -/

def canonicalIp : IpAddr → IpAddr
  | .v6 ip => ((toIpv4Mapped ip).map .v4).getD (.v6 ip)
  | ip => ip

def canonicalSocket : SocketAddr → SocketAddr
  | .v4 ip port => .v4 ip port
  | .v6 ip port _ scopeId =>
    match toIpv4Mapped ip with
    | some ip => .v4 ip port
    | none => .v6 ip port 0 scopeId

def encodeIp : IpAddr → Bytes
  | .v4 ip => 4 :: toBeBytes 4 ip
  | .v6 ip => 6 :: toBeBytes 16 ip

def encodeSocket (address : SocketAddr) : Bytes :=
  encodeIp address.ip ++ toBeBytes 2 address.port ++ toBeBytes 4 address.scopeId

def takeBytes (len : ℕ) (bytes : Bytes) : Option (Bytes × Bytes) :=
  if len ≤ bytes.length then some (bytes.take len, bytes.drop len) else none

def takeOctet : Bytes → Option (UInt8 × Bytes)
  | [] => none
  | octet :: rest => some (octet, rest)

def takeWord (n : ℕ) (bytes : Bytes) : Option (BitVec (8 * n) × Bytes) :=
  (takeBytes n bytes).map fun (octets, rest) => (fromBeBytes (8 * n) octets, rest)

def decodeIp (bytes : Bytes) : Option (IpAddr × Bytes) :=
  (takeOctet bytes).bind fun (family, bytes) =>
    if family = 4 then (takeWord 4 bytes).map fun (ip, rest) => (.v4 ip, rest)
    else if family = 6 then (takeWord 16 bytes).map fun (ip, rest) => (.v6 ip, rest)
    else none

def decodeSocket (bytes : Bytes) : Option (SocketAddr × Bytes) :=
  (decodeIp bytes).bind fun (ip, bytes) =>
    (takeWord 2 bytes).bind fun (port, bytes) =>
      (takeWord 4 bytes).bind fun (scopeId, rest) =>
        match ip with
        | .v4 ip => if scopeId = 0 then some (.v4 ip port, rest) else none
        | .v6 ip => some (.v6 ip port 0 scopeId, rest)

/-! ### The codec -/

abbrev Nonce := { octets : Bytes // octets.length = nonceLen }

/-- Authenticated encryption under the codec's key. -/
structure RetryAead where
  sealBody : Nonce → Bytes → Bytes
  length_sealBody : ∀ nonce body, (sealBody nonce body).length = body.length + tagLen
  sealBody_injective : ∀ nonce, Function.Injective (sealBody nonce)

/-- The codec, with a record of everything it has sealed: what it did not seal does not open. -/
structure RetryTokenCodec where
  aead : RetryAead
  ttl : ℕ
  minted : List (Nonce × Bytes)

namespace RetryTokenCodec

def new (aead : RetryAead) (ttl : ℕ) : RetryTokenCodec := ⟨aead, ttl, []⟩

def tokenBody (issued : BitVec 64) (source localAddr : SocketAddr) (odcid : ConnectionId) :
    Bytes :=
  tokenVersion :: (toBeBytes 8 issued ++ (encodeIp (canonicalIp source.ip) ++
    (encodeSocket (canonicalSocket localAddr) ++ (UInt8.ofNat odcid.length :: odcid))))

/-- The token and the codec after it; there is none for an unusable identifier, or if the random
generator fails. -/
def mint (codec : RetryTokenCodec) (nonce : Option Nonce) (now : BitVec 64)
    (source localAddr : SocketAddr) (odcid : ConnectionId) : Option (Bytes × RetryTokenCodec) :=
  if 1 ≤ odcid.length ∧ odcid.length ≤ maxConnIdLen then
    nonce.map fun nonce =>
      let body := tokenBody now source localAddr odcid
      (nonce.val ++ codec.aead.sealBody nonce body,
        { codec with minted := (nonce, body) :: codec.minted })
  else none

def openBody (codec : RetryTokenCodec) (nonce ciphertext : Bytes) : Option Bytes :=
  (codec.minted.find? fun entry =>
    entry.1.val = nonce && codec.aead.sealBody entry.1 entry.2 = ciphertext).map Prod.snd

def validateBody (ttl : ℕ) (source localAddr : SocketAddr) (now : BitVec 64) (body : Bytes) :
    Option ConnectionId :=
  (takeOctet body).bind fun (version, body) =>
    if version ≠ tokenVersion then none
    else (takeWord 8 body).bind fun (issued, body) =>
      if now.toNat < issued.toNat ∨ ttl < now.toNat - issued.toNat then none
      else (decodeIp body).bind fun (ip, body) =>
        if ip ≠ canonicalIp source.ip then none
        else (decodeSocket body).bind fun (socket, body) =>
          if socket ≠ canonicalSocket localAddr then none
          else (takeOctet body).bind fun (odcidLen, body) =>
            if odcidLen.toNat < 1 ∨ maxConnIdLen < odcidLen.toNat then none
            else (takeBytes odcidLen.toNat body).bind fun (odcid, rest) =>
              if rest ≠ [] then none else some odcid

def validateAt (codec : RetryTokenCodec) (source localAddr : SocketAddr) (token : Bytes)
    (now : BitVec 64) : Option ConnectionId :=
  if token.length < minTokenLen ∨ maxTokenLen < token.length then none
  else (codec.openBody (token.take nonceLen) (token.drop nonceLen)).bind
    (validateBody codec.ttl source localAddr now)

end RetryTokenCodec

/-! ### Reading back what was written -/

variable {bytes rest : Bytes}

lemma takeBytes_eq_some {len : ℕ} {front : Bytes} :
    takeBytes len bytes = some (front, rest) ↔ front.length = len ∧ bytes = front ++ rest := by
  unfold takeBytes
  constructor
  · intro h
    split_ifs at h with hle
    cases h
    exact ⟨length_take_of_le hle, (take_append_drop len bytes).symm⟩
  · rintro ⟨rfl, rfl⟩
    simp

lemma takeOctet_eq_some {octet : UInt8} :
    takeOctet bytes = some (octet, rest) ↔ bytes = octet :: rest := by
  cases bytes <;> simp [takeOctet]

lemma takeWord_eq_some {n : ℕ} (hn : 1 ≤ n) {word : BitVec (8 * n)} :
    takeWord n bytes = some (word, rest) ↔ bytes = toBeBytes n word ++ rest := by
  unfold takeWord
  rw [map_eq_some_iff]
  constructor
  · rintro ⟨⟨octets, rest'⟩, htake, heq⟩
    obtain ⟨hlen, rfl⟩ := takeBytes_eq_some.mp htake
    cases heq
    rw [toBeBytes_fromBeBytes hn hlen]
  · rintro rfl
    refine ⟨(toBeBytes n word, rest), takeBytes_eq_some.mpr ⟨length_toBeBytes n word, rfl⟩, ?_⟩
    dsimp only
    rw [fromBeBytes_toBeBytes hn]

theorem decodeIp_eq_some {ip : IpAddr} :
    decodeIp bytes = some (ip, rest) ↔ bytes = encodeIp ip ++ rest := by
  unfold decodeIp
  constructor
  · intro h
    obtain ⟨⟨family, tail⟩, hfamily, h⟩ := bind_eq_some_iff.mp h
    rw [takeOctet_eq_some.mp hfamily]
    dsimp only at h
    split_ifs at h with h4 h6
    · obtain ⟨⟨word, rest'⟩, htake, heq⟩ := map_eq_some_iff.mp h
      cases heq
      rw [h4, encodeIp, cons_append, (takeWord_eq_some (by decide)).mp htake]
    · obtain ⟨⟨word, rest'⟩, htake, heq⟩ := map_eq_some_iff.mp h
      cases heq
      rw [h6, encodeIp, cons_append, (takeWord_eq_some (by decide)).mp htake]
  · rintro rfl
    cases ip with
    | v4 ip =>
      have hword : takeWord 4 (toBeBytes 4 ip ++ rest) = some (ip, rest) :=
        (takeWord_eq_some (by decide)).mpr rfl
      simp [encodeIp, takeOctet, hword]
    | v6 ip =>
      have hword : takeWord 16 (toBeBytes 16 ip ++ rest) = some (ip, rest) :=
        (takeWord_eq_some (by decide)).mpr rfl
      simp [encodeIp, takeOctet, hword]

theorem decodeSocket_eq_some {address : SocketAddr} :
    decodeSocket bytes = some (address, rest) ↔
      address.flowinfo = 0 ∧ bytes = encodeSocket address ++ rest := by
  unfold decodeSocket
  constructor
  · intro h
    obtain ⟨⟨ip, tail⟩, hip, h⟩ := bind_eq_some_iff.mp h
    obtain ⟨⟨port, tail'⟩, hport, h⟩ := bind_eq_some_iff.mp h
    obtain ⟨⟨scopeId, rest'⟩, hscope, h⟩ := bind_eq_some_iff.mp h
    rw [decodeIp_eq_some.mp hip, (takeWord_eq_some (by decide)).mp hport,
      (takeWord_eq_some (by decide)).mp hscope]
    cases ip with
    | v4 ip =>
      dsimp only at h
      split_ifs at h with hzero
      cases h
      subst hzero
      exact ⟨rfl, by simp [encodeSocket, SocketAddr.ip, SocketAddr.port, SocketAddr.scopeId]⟩
    | v6 ip =>
      cases h
      exact ⟨rfl, by simp [encodeSocket, SocketAddr.ip, SocketAddr.port, SocketAddr.scopeId]⟩
  · rintro ⟨hflow, rfl⟩
    have hip : decodeIp (encodeSocket address ++ rest) =
        some (address.ip, toBeBytes 2 address.port ++ (toBeBytes 4 address.scopeId ++ rest)) := by
      rw [decodeIp_eq_some, encodeSocket, append_assoc, append_assoc]
    have hport : takeWord 2 (toBeBytes 2 address.port ++ (toBeBytes 4 address.scopeId ++ rest)) =
        some (address.port, toBeBytes 4 address.scopeId ++ rest) :=
      (takeWord_eq_some (by decide)).mpr rfl
    have hscope : takeWord 4 (toBeBytes 4 address.scopeId ++ rest) = some (address.scopeId, rest) :=
      (takeWord_eq_some (by decide)).mpr rfl
    rw [hip, bind_some]
    dsimp only
    rw [hport, bind_some]
    dsimp only
    rw [hscope, bind_some]
    cases address with
    | v4 ip port => rfl
    | v6 ip port flowinfo scopeId =>
      rw [show flowinfo = 0 from hflow]
      rfl

@[simp] lemma flowinfo_canonicalSocket (address : SocketAddr) :
    (canonicalSocket address).flowinfo = 0 := by
  cases address with
  | v4 ip port => rfl
  | v6 ip port flowinfo scopeId =>
    simp only [canonicalSocket]
    cases toIpv4Mapped ip <;> rfl

lemma length_encodeIp (ip : IpAddr) : 5 ≤ (encodeIp ip).length ∧ (encodeIp ip).length ≤ 17 := by
  cases ip <;> simp [encodeIp]

namespace RetryTokenCodec

variable {codec : RetryTokenCodec} {source source' localAddr localAddr' : SocketAddr}
  {now issued issued' : BitVec 64} {odcid odcid' : ConnectionId} {ttl : ℕ} {body : Bytes}

/-- A body passes the checks exactly if it is, to its last octet, the record of a usable
identifier for these addresses, issued within the lifetime. -/
theorem validateBody_eq_some :
    validateBody ttl source localAddr now body = some odcid ↔
      ∃ issued : BitVec 64, issued.toNat ≤ now.toNat ∧ now.toNat ≤ issued.toNat + ttl ∧
        1 ≤ odcid.length ∧ odcid.length ≤ maxConnIdLen ∧
        body = tokenBody issued source localAddr odcid := by
  constructor
  · intro h
    unfold validateBody at h
    obtain ⟨⟨version, body₁⟩, hversion, h⟩ := bind_eq_some_iff.mp h
    obtain ⟨hv, h⟩ := ite_none_left_eq_some.mp h
    obtain ⟨⟨issued, body₂⟩, hissued, h⟩ := bind_eq_some_iff.mp h
    obtain ⟨htime, h⟩ := ite_none_left_eq_some.mp h
    obtain ⟨⟨ip, body₃⟩, hip, h⟩ := bind_eq_some_iff.mp h
    obtain ⟨hsource, h⟩ := ite_none_left_eq_some.mp h
    obtain ⟨⟨socket, body₄⟩, hsocket, h⟩ := bind_eq_some_iff.mp h
    obtain ⟨hlocal, h⟩ := ite_none_left_eq_some.mp h
    obtain ⟨⟨odcidLen, body₅⟩, hlen, h⟩ := bind_eq_some_iff.mp h
    obtain ⟨hbounds, h⟩ := ite_none_left_eq_some.mp h
    obtain ⟨⟨id, rest⟩, hid, h⟩ := bind_eq_some_iff.mp h
    obtain ⟨hrest, h⟩ := ite_none_left_eq_some.mp h
    cases h
    rw [not_not] at hv hsource hlocal hrest
    obtain ⟨hidLen, rfl⟩ := takeBytes_eq_some.mp hid
    refine ⟨issued, by omega, by omega, by omega, by omega, ?_⟩
    rw [takeOctet_eq_some.mp hversion, (takeWord_eq_some (by decide)).mp hissued,
      decodeIp_eq_some.mp hip, (decodeSocket_eq_some.mp hsocket).2, takeOctet_eq_some.mp hlen, hv,
      hsource, hlocal, hrest, append_nil, tokenBody, hidLen, UInt8.ofNat_toNat]
  · rintro ⟨issued, hissued, hnow, hpos, hmax, rfl⟩
    have hlen : (UInt8.ofNat odcid.length).toNat = odcid.length := by
      rw [UInt8.toNat_ofNat', Nat.mod_eq_of_lt]
      unfold maxConnIdLen at hmax
      omega
    have hword (rest : Bytes) : takeWord 8 (toBeBytes 8 issued ++ rest) = some (issued, rest) :=
      (takeWord_eq_some (by decide)).mpr rfl
    unfold validateBody tokenBody
    rw [takeOctet_eq_some.mpr rfl, bind_some]
    dsimp only
    rw [if_neg (by simp), hword, bind_some]
    dsimp only
    rw [if_neg (by omega), decodeIp_eq_some.mpr rfl, bind_some]
    dsimp only
    rw [if_neg (by simp), decodeSocket_eq_some.mpr ⟨flowinfo_canonicalSocket localAddr, rfl⟩,
      bind_some]
    dsimp only
    rw [if_neg (by simp), takeOctet_eq_some.mpr rfl, bind_some]
    dsimp only
    rw [hlen, if_neg (by omega), takeBytes_eq_some.mpr ⟨rfl, (append_nil odcid).symm⟩,
      bind_some]
    dsimp only
    rw [if_neg (by simp)]

lemma length_tokenBody : (tokenBody issued source localAddr odcid).length =
    17 + (encodeIp (canonicalIp source.ip)).length +
      (encodeIp (canonicalSocket localAddr).ip).length + odcid.length - 1 := by
  simp only [tokenBody, encodeSocket, length_cons, length_append, length_toBeBytes]
  omega

lemma tokenBody_inj (h : tokenBody issued source localAddr odcid =
      tokenBody issued' source' localAddr' odcid') :
    issued = issued' ∧ canonicalIp source.ip = canonicalIp source'.ip ∧
      canonicalSocket localAddr = canonicalSocket localAddr' ∧ odcid = odcid' := by
  have hissued := (takeWord_eq_some (by decide : 1 ≤ 8)).mpr (List.cons.inj h).2
  rw [(takeWord_eq_some (by decide)).mpr rfl, some.injEq, Prod.mk.injEq] at hissued
  have hip := decodeIp_eq_some.mpr hissued.2
  rw [decodeIp_eq_some.mpr rfl, some.injEq, Prod.mk.injEq] at hip
  have hsocket := decodeSocket_eq_some.mpr ⟨flowinfo_canonicalSocket localAddr', hip.2⟩
  rw [decodeSocket_eq_some.mpr ⟨flowinfo_canonicalSocket localAddr, rfl⟩, some.injEq,
    Prod.mk.injEq] at hsocket
  exact ⟨hissued.1, hip.1, hsocket.1, (List.cons.inj hsocket.2).2⟩

lemma openBody_eq_some {nonce ciphertext : Bytes} :
    codec.openBody nonce ciphertext = some body ↔
      ∃ n : Nonce, n.val = nonce ∧ codec.aead.sealBody n body = ciphertext ∧
        (n, body) ∈ codec.minted := by
  unfold openBody
  rw [map_eq_some_iff]
  constructor
  · rintro ⟨⟨n, body'⟩, hfind, rfl⟩
    have hmem := mem_of_find?_eq_some hfind
    have hprop := find?_some hfind
    rw [Bool.and_eq_true, decide_eq_true_eq, decide_eq_true_eq] at hprop
    exact ⟨n, hprop.1, hprop.2, hmem⟩
  · rintro ⟨n, rfl, rfl, hmem⟩
    cases hfind : codec.minted.find? fun entry =>
        entry.1.val = n.val && codec.aead.sealBody entry.1 entry.2 = codec.aead.sealBody n body with
    | none =>
      rw [find?_eq_none] at hfind
      exact absurd (by simp) (hfind (n, body) hmem)
    | some entry =>
      have hprop := find?_some hfind
      rw [Bool.and_eq_true, decide_eq_true_eq, decide_eq_true_eq] at hprop
      have hnonce : entry.1 = n := Subtype.ext hprop.1
      have hseal := hprop.2
      rw [hnonce] at hseal
      exact ⟨entry, rfl, codec.aead.sealBody_injective n hseal⟩

theorem validateAt_eq_some {token : Bytes} :
    codec.validateAt source localAddr token now = some odcid ↔
      ∃ (nonce : Nonce) (issued : BitVec 64),
        (nonce, tokenBody issued source localAddr odcid) ∈ codec.minted ∧
        token = nonce.val ++ codec.aead.sealBody nonce (tokenBody issued source localAddr odcid) ∧
        1 ≤ odcid.length ∧ odcid.length ≤ maxConnIdLen ∧
        issued.toNat ≤ now.toNat ∧ now.toNat ≤ issued.toNat + codec.ttl := by
  unfold validateAt
  rw [ite_none_left_eq_some, bind_eq_some_iff]
  constructor
  · rintro ⟨-, body, hopen, hvalid⟩
    obtain ⟨nonce, hnonce, hseal, hmem⟩ := openBody_eq_some.mp hopen
    obtain ⟨issued, hissued, hnow, hpos, hmax, rfl⟩ := validateBody_eq_some.mp hvalid
    refine ⟨nonce, issued, hmem, ?_, hpos, hmax, hissued, hnow⟩
    rw [hnonce, hseal, take_append_drop]
  · rintro ⟨nonce, issued, hmem, rfl, hpos, hmax, hissued, hnow⟩
    have hsource := length_encodeIp (canonicalIp source.ip)
    have hlocal := length_encodeIp (canonicalSocket localAddr).ip
    refine ⟨?_, tokenBody issued source localAddr odcid, ?_, ?_⟩
    · rw [length_append, codec.aead.length_sealBody, nonce.property, length_tokenBody]
      simp only [minTokenLen, maxTokenLen, minBodyLen, maxBodyLen, nonceLen, tagLen, maxConnIdLen]
        at hmax ⊢
      omega
    · rw [openBody_eq_some]
      exact ⟨nonce, (take_left' nonce.property).symm, (drop_left' nonce.property).symm, hmem⟩
    · exact validateBody_eq_some.mpr ⟨issued, hissued, hnow, hpos, hmax, rfl⟩

end RetryTokenCodec

/-- What a token is asked for. -/
structure MintRequest where
  nonce : Nonce
  now : BitVec 64
  source : SocketAddr
  localAddr : SocketAddr
  odcid : ConnectionId

namespace RetryTokenCodec

def mintStep (codec : RetryTokenCodec) (r : MintRequest) : Option RetryTokenCodec :=
  (codec.mint (some r.nonce) r.now r.source r.localAddr r.odcid).map Prod.snd

def tokenOf (aead : RetryAead) (r : MintRequest) : Bytes :=
  r.nonce.val ++ aead.sealBody r.nonce (tokenBody r.now r.source r.localAddr r.odcid)

/-- The codec's record is what it was asked for. -/
structure Issued (aead : RetryAead) (ttl : ℕ) (requests : List MintRequest)
    (codec : RetryTokenCodec) : Prop where
  aead_eq : codec.aead = aead
  ttl_eq : codec.ttl = ttl
  mem_minted : ∀ entry, entry ∈ codec.minted ↔
    ∃ r ∈ requests, entry = (r.nonce, tokenBody r.now r.source r.localAddr r.odcid)
  usable : ∀ r ∈ requests, 1 ≤ r.odcid.length ∧ r.odcid.length ≤ maxConnIdLen

variable {aead : RetryAead} {requests : List MintRequest} {ttl : ℕ} {codec : RetryTokenCodec}
  {source localAddr : SocketAddr} {now : BitVec 64} {odcid : ConnectionId}

lemma mintStep_issued {codec' : RetryTokenCodec} {r : MintRequest}
    (h : Issued aead ttl requests codec) (hstep : codec.mintStep r = some codec') :
    Issued aead ttl (requests ++ [r]) codec' := by
  unfold mintStep mint at hstep
  split_ifs at hstep with husable
  · cases hstep
    refine ⟨h.aead_eq, h.ttl_eq, fun entry => ?_, fun r' hr' => ?_⟩
    · simp only [mem_cons, h.mem_minted, mem_append, not_mem_nil, or_false]
      constructor
      · rintro (rfl | ⟨r', hr', rfl⟩)
        · exact ⟨r, .inr rfl, rfl⟩
        · exact ⟨r', .inl hr', rfl⟩
      · rintro ⟨r', hr' | rfl, rfl⟩
        · exact .inr ⟨r', hr', rfl⟩
        · exact .inl rfl
    · rw [mem_append, mem_singleton] at hr'
      obtain hr' | rfl := hr'
      · exact h.usable r' hr'
      · exact husable
  · cases hstep

lemma run_issued (hrun : run mintStep (new aead ttl) requests = some codec) :
    Issued aead ttl requests codec := by
  have hgeneral : ∀ requests done (codec₀ : RetryTokenCodec), Issued aead ttl done codec₀ →
      run mintStep codec₀ requests = some codec → Issued aead ttl (done ++ requests) codec := by
    intro requests
    induction requests with
    | nil =>
      intro done codec₀ h hrun
      cases hrun
      rwa [append_nil]
    | cons r requests ih =>
      intro done codec₀ h hrun
      obtain ⟨codec₁, hstep, hrun⟩ := bind_eq_some_iff.mp hrun
      rw [append_cons]
      exact ih (done ++ [r]) codec₁ (mintStep_issued h hstep) hrun
  have hnew : Issued aead ttl [] (new aead ttl) := ⟨rfl, rfl, by simp [new], by simp⟩
  simpa using hgeneral requests [] (new aead ttl) hnew hrun

lemma validateAt_tokenOf (h : Issued aead ttl requests codec) {r : MintRequest}
    (hr : r ∈ requests) :
    codec.validateAt source localAddr (tokenOf aead r) now = some r.odcid ↔
      canonicalIp r.source.ip = canonicalIp source.ip ∧
        canonicalSocket r.localAddr = canonicalSocket localAddr ∧
        r.now.toNat ≤ now.toNat ∧ now.toNat ≤ r.now.toNat + ttl := by
  rw [validateAt_eq_some, h.aead_eq, h.ttl_eq]
  constructor
  · rintro ⟨nonce, issued, -, htoken, -, -, hissued, hnow⟩
    obtain ⟨hnonce, hseal⟩ := append_inj htoken (by rw [r.nonce.property, nonce.property])
    rw [← Subtype.ext hnonce] at hseal
    obtain ⟨rfl, hsource, hlocal, -⟩ := tokenBody_inj (aead.sealBody_injective _ hseal)
    exact ⟨hsource, hlocal, hissued, hnow⟩
  · rintro ⟨hsource, hlocal, hissued, hnow⟩
    have hbody : tokenBody r.now source localAddr r.odcid =
        tokenBody r.now r.source r.localAddr r.odcid := by
      rw [tokenBody, tokenBody, hsource, hlocal]
    refine ⟨r.nonce, r.now, (h.mem_minted _).mpr ⟨r, hr, by rw [hbody]⟩, ?_, h.usable r hr |>.1,
      h.usable r hr |>.2, hissued, hnow⟩
    rw [hbody, tokenOf]

lemma exists_tokenOf_of_validateAt (h : Issued aead ttl requests codec) {token : Bytes}
    (hvalid : codec.validateAt source localAddr token now = some odcid) :
    ∃ r ∈ requests, token = tokenOf aead r ∧ odcid = r.odcid := by
  obtain ⟨nonce, issued, hmem, rfl, -⟩ := validateAt_eq_some.mp hvalid
  obtain ⟨r, hr, heq⟩ := (h.mem_minted _).mp hmem
  obtain ⟨rfl, hbody⟩ := Prod.mk.inj heq
  refine ⟨r, hr, ?_, (tokenBody_inj hbody).2.2.2⟩
  rw [tokenOf, hbody, h.aead_eq]

end RetryTokenCodec

end MasqueServer
