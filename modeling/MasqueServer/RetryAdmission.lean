import MasqueServer.ConnectionTables

/-!
# Address validation by Retry

A token stands for one address and one identifier during its lifetime, and nothing else passes
for it. While tokens are required, a shard holds no state for a source that has not presented
one, made out to the identifier that the server itself proposed.
-/
namespace MasqueServer

open Option

namespace Shard

variable {config : ShardConfig} {s s' s'' : Shard} {key : ConnectionId} {packet : Packet}

/-- The step has opened a connection: it has drawn an index, or there is a key more. -/
def Opens (s s' : Shard) : Prop :=
  s'.nextConnIndex ≠ s.nextConnIndex ∨
    ∃ key, s.connections.get key = none ∧ s'.connections.get key ≠ none

theorem not_opens_refl (s : Shard) : ¬Opens s s := by
  simp [Opens]

theorem not_opens_trans (h : ¬Opens s s') (h' : ¬Opens s' s'') : ¬Opens s s'' := by
  simp only [Opens, not_or, not_exists, not_and, not_not] at h h' ⊢
  exact ⟨h'.1.trans h.1, fun k hk => h'.2 k (h.2 k hk)⟩

theorem not_opens_put {client client' : ClientConnection}
    (hkey : s.connections.get key = some client) (hindex : s'.nextConnIndex = s.nextConnIndex)
    (hconnections : s'.connections = s.connections.put key client') : ¬Opens s s' := by
  rintro (hne | ⟨k, hk, hk'⟩)
  · exact hne hindex
  · rw [hconnections, Table.get_put] at hk'
    split_ifs at hk' with heq
    · simp [heq, hkey] at hk
    · exact hk' hk

theorem retireId_not_opens (id : ConnectionId) : ¬Opens s (s.retireId key id) := by
  unfold retireId
  split
  · exact not_opens_refl s
  · rename_i client hclient
    split_ifs
    · exact not_opens_put hclient rfl rfl
    · exact not_opens_refl s

theorem publishId_not_opens (id : ConnectionId) : ¬Opens s (publishId config key s id) := by
  unfold publishId
  split
  · exact not_opens_refl s
  · rename_i client hclient
    exact not_opens_put hclient rfl rfl

theorem issueIds_not_opens (draws : List Draw) : ¬Opens s (issueIds config key s draws) := by
  induction draws generalizing s with
  | nil => exact not_opens_refl s
  | cons draw draws ih =>
    unfold issueIds
    split
    · exact not_opens_refl s
    · dsimp only
      split_ifs
      · exact ih
      · exact not_opens_refl s
      · exact not_opens_trans (publishId_not_opens _) ih

theorem deliver_not_opens (h : s.deliver config packet key = some s') : ¬Opens s s' := by
  obtain ⟨client, hclient, rfl⟩ := map_eq_some_iff.mp h
  split_ifs
  · have hretired : ¬Opens s (packet.retired.foldl (retireId key) s) := by
      clear hclient h
      induction packet.retired generalizing s with
      | nil => exact not_opens_refl s
      | cons id ids ih => exact not_opens_trans (retireId_not_opens id) ih
    unfold syncConnectionIds
    dsimp only
    split_ifs
    · exact not_opens_trans hretired (issueIds_not_opens _)
    · exact hretired
  · exact not_opens_refl s

theorem validated_of_opens {output : Option PacketOutput}
    (h : s.handlePacket config packet = some (s', output)) (hopens : Opens s s')
    (hretry : retryRequired config.retryMode s.connections.size
      config.retryConnectionThreshold = true) :
    ∃ hdr, packet.header = some hdr ∧ s.Validated config packet hdr := by
  unfold handlePacket at h
  split at h
  · cases h
    exact absurd hopens (not_opens_refl s)
  · rename_i hdr hhdr
    have hselects := select_selects config s packet hdr
    split at h
    · obtain ⟨t, ht, heq⟩ := map_eq_some_iff.mp h
      cases heq
      exact absurd hopens (deliver_not_opens ht)
    · rename_i hselect
      rw [hselect] at hselects
      cases hselects with
      | derived hkey hcid hfree => simp [hfree] at hretry
      | validated hty hlookup hcid hvalid => exact ⟨hdr, hhdr, hvalid⟩
    · rename_i hselect
      cases h
      rw [hselect] at hselects
      cases hselects
      exact absurd hopens (not_opens_refl s)

end Shard

namespace RetryTokenCodec

variable {aead : RetryAead} {requests : List MintRequest} {ttl : ℕ} {codec : RetryTokenCodec}

lemma mint_eq_tokenOf (h : Issued aead ttl requests codec) {r : MintRequest}
    (hpos : 1 ≤ r.odcid.length) (hmax : r.odcid.length ≤ maxConnIdLen) :
    (codec.mint (some r.nonce) r.now r.source r.localAddr r.odcid).map Prod.fst =
      some (tokenOf aead r) := by
  simp [mint, tokenOf, hpos, hmax, h.aead_eq]

lemma canonicalSocket_eq_iff {a b : SocketAddr} :
    canonicalSocket a = canonicalSocket b ↔
      (canonicalSocket a).ip = (canonicalSocket b).ip ∧
        (canonicalSocket a).port = (canonicalSocket b).port ∧
        (canonicalSocket a).scopeId = (canonicalSocket b).scopeId := by
  rw [SocketAddr.ext_iff, flowinfo_canonicalSocket, flowinfo_canonicalSocket]
  simp

/-- A token is minted for every usable identifier. It validates exactly for its addresses during
its lifetime, nothing else validates, and a body is read to its end. Where tokens are required, a
packet that opens a connection has brought one. -/
theorem retryValidation_exact
    (hrun : run mintStep (new aead ttl) requests = some codec) :
    (∀ r : MintRequest, 1 ≤ r.odcid.length → r.odcid.length ≤ maxConnIdLen →
      (codec.mint (some r.nonce) r.now r.source r.localAddr r.odcid).map Prod.fst =
        some (tokenOf aead r)) ∧
    (∀ r ∈ requests, ∀ source localAddr now,
      codec.validateAt source localAddr (tokenOf aead r) now = some r.odcid ↔
        canonicalIp r.source.ip = canonicalIp source.ip ∧
          ((canonicalSocket r.localAddr).ip = (canonicalSocket localAddr).ip ∧
            (canonicalSocket r.localAddr).port = (canonicalSocket localAddr).port ∧
            (canonicalSocket r.localAddr).scopeId = (canonicalSocket localAddr).scopeId) ∧
          r.now.toNat ≤ now.toNat ∧ now.toNat ≤ r.now.toNat + ttl) ∧
    (∀ source localAddr token now odcid,
      codec.validateAt source localAddr token now = some odcid →
        ∃ r ∈ requests, token = tokenOf aead r ∧ odcid = r.odcid) ∧
    (∀ source localAddr now body odcid,
      validateBody ttl source localAddr now body = some odcid →
        ∃ issued, body = tokenBody issued source localAddr odcid) ∧
    (∀ (config : ShardConfig) (s s' : Shard) (packet : Packet) (output : Option PacketOutput),
      s.handlePacket config packet = some (s', output) →
      retryRequired config.retryMode s.connections.size config.retryConnectionThreshold = true →
      s.Opens s' →
        ∃ hdr odcid, packet.header = some hdr ∧
          s.retryTokens.validateAt packet.source packet.localAddr (hdr.token.getD []) packet.now =
            some odcid ∧
          config.deriveConnectionId odcid = hdr.dcid) := by
  have hissued := run_issued hrun
  refine ⟨fun r => mint_eq_tokenOf hissued, fun r hr source localAddr now => ?_,
    fun source localAddr token now odcid => exists_tokenOf_of_validateAt hissued,
    fun source localAddr now body odcid hbody => ?_,
    fun config s s' packet output hstep hretry hopens => ?_⟩
  · rw [validateAt_tokenOf hissued hr, canonicalSocket_eq_iff]
  · obtain ⟨issued, -, -, -, -, hbody⟩ := validateBody_eq_some.mp hbody
    exact ⟨issued, hbody⟩
  · obtain ⟨hdr, hhdr, odcid, hvalid, hderived⟩ := Shard.validated_of_opens hstep hopens hretry
    exact ⟨hdr, odcid, hhdr, hvalid, hderived⟩

def request : MintRequest :=
  ⟨Shard.Replay.nonce, 5, Shard.Replay.client, Shard.Replay.listener, Shard.Replay.odcid⟩

/-- It still passes at the end of its lifetime, from another port of an address that maps to the
same one, and no longer. -/
theorem retryValidation_exact_mapped :
    ∃ codec, run mintStep (new Shard.Replay.aead 30) [request] = some codec ∧
      codec.validateAt (.v6 0xFFFFC0000201#128 6000#16 0 3) Shard.Replay.listener
        (tokenOf Shard.Replay.aead request) 35 = some Shard.Replay.odcid ∧
      codec.validateAt (.v6 0xFFFFC0000201#128 6000#16 0 3) Shard.Replay.listener
        (tokenOf Shard.Replay.aead request) 36 ≠ some Shard.Replay.odcid := by
  have hsome : (run mintStep (new Shard.Replay.aead 30) [request]).isSome = true := by decide
  have hexact := (retryValidation_exact (some_get hsome).symm).2.1 request (by simp)
  refine ⟨_, (some_get hsome).symm, (hexact _ _ _).mpr (by decide), fun hlate => ?_⟩
  exact absurd ((hexact _ _ _).mp hlate) (by decide)

end RetryTokenCodec

end MasqueServer
