import MasqueServer.ShardPackets

/-!
# Consistency of the connection tables

The tables of a shard describe one set of connections: by key, by index, by alias, and by the
identifiers published for the other shards. Accepting, retiring, issuing and reaping keep them in
agreement as long as an accepted connection gets a key of its own.
-/
namespace MasqueServer

open Option

namespace Shard

variable {config : ShardConfig} {s s' : Shard} {key id : ConnectionId}

/-- The tables agree on the connections of the shard and on their identifiers. -/
structure Consistent (config : ShardConfig) (s : Shard) : Prop where
  indexed : ∀ index key, s.connByIndex.get index = some key →
    ∃ client, s.connections.get key = some client ∧ client.index = index
  listed : ∀ key client, s.connections.get key = some client →
    s.connByIndex.get client.index = some key ∧ client.index < s.nextConnIndex
  aliased : ∀ id key, s.connectionIdAliases.get id = some key →
    ∃ client, s.connections.get key = some client ∧ id ∈ client.serverConnectionIds
  owned : ∀ id, s.cidShard.get id = some config.index ↔
    ∃ key client, s.connections.get key = some client ∧ id ∈ client.serverConnectionIds
  disjoint : ∀ key key' client client' id, s.connections.get key = some client →
    s.connections.get key' = some client' → id ∈ client.serverConnectionIds →
    id ∈ client'.serverConnectionIds → key = key'

theorem new_consistent (config : ShardConfig) (retryTokens : RetryTokenCodec) :
    (new retryTokens).Consistent config := by
  constructor <;> simp [new]

/-! ### Operations on the tables -/

variable (h : s.Consistent config)
include h

theorem entered_consistent (hkey : s.connections.get key = none) (hcid : s.cidShard.get key = none)
    : (s.entered config key).Consistent config := by
  have hfresh : ∀ k client, s.connections.get k = some client →
      key ∉ client.serverConnectionIds := by
    intro k client hk hmem
    have := (h.owned key).mpr ⟨k, client, hk, hmem⟩
    simp [hcid] at this
  constructor
  · intro index k hk
    simp only [entered, Table.get_put] at hk ⊢
    split_ifs at hk with hindex
    · cases hk
      exact ⟨_, if_pos rfl, hindex.symm⟩
    · obtain ⟨client, hclient, rfl⟩ := h.indexed index k hk
      have hne : k ≠ key := by grind
      exact ⟨client, by rw [if_neg hne, hclient], rfl⟩
  · intro k client hk
    simp only [entered, Table.get_put] at hk ⊢
    split_ifs at hk with hkk
    · cases hk
      simp [ClientConnection.new, hkk]
    · obtain ⟨hindex, hlt⟩ := h.listed k client hk
      refine ⟨by rw [if_neg (by omega), hindex], by omega⟩
  · intro i k hi
    obtain ⟨client, hclient, hmem⟩ := h.aliased i k hi
    have hne : k ≠ key := by grind
    exact ⟨client, by simpa [entered, hne] using hclient, hmem⟩
  · intro i
    simp only [entered, Table.get_put]
    by_cases hi : i = key
    · refine iff_of_true (if_pos hi) ⟨key, _, if_pos rfl, ?_⟩
      simp [ClientConnection.new, hi]
    · rw [if_neg hi, h.owned]
      constructor
      · rintro ⟨k, client, hk, hmem⟩
        exact ⟨k, client, by grind, hmem⟩
      · rintro ⟨k, client, hk, hmem⟩
        split_ifs at hk with hkk
        · cases hk
          simp [ClientConnection.new, hi] at hmem
        · exact ⟨k, client, hk, hmem⟩
  · intro k k' client client' i hk hk' hmem hmem'
    simp only [entered, Table.get_put] at hk hk'
    split_ifs at hk hk' with h₁ h₂ h₂
    · rw [h₁, h₂]
    · cases hk
      obtain rfl : i = key := by simpa [ClientConnection.new] using hmem
      exact absurd hmem' (hfresh k' client' hk')
    · cases hk'
      obtain rfl : i = key := by simpa [ClientConnection.new] using hmem'
      exact absurd hmem (hfresh k client hk)
    · exact h.disjoint k k' client client' i hk hk' hmem hmem'

theorem retireId_consistent : (s.retireId key id).Consistent config := by
  unfold retireId
  split
  · exact h
  · rename_i client hclient
    split_ifs with hid
    · constructor
      · intro index k hk
        obtain ⟨c, hc, hindex⟩ := h.indexed index k hk
        simp only [Table.get_put]
        grind [ClientConnection.retireConnectionId]
      · intro k c hk
        simp only [Table.get_put] at hk
        grind [ClientConnection.retireConnectionId, h.listed]
      · intro i k hi
        simp only [Table.get_remove, Table.get_put] at hi ⊢
        have := h.aliased i k
        grind [ClientConnection.retireConnectionId]
      · intro i
        simp only [Table.get_remove, Table.get_put]
        have := h.owned i
        have := h.disjoint
        grind [ClientConnection.retireConnectionId]
      · intro k k' c c' i hk hk' hmem hmem'
        simp only [Table.get_put] at hk hk'
        have := h.disjoint
        grind [ClientConnection.retireConnectionId]
    · exact h

theorem publishId_consistent (hid : s.cidShard.get id = none) :
    (publishId config key s id).Consistent config := by
  unfold publishId
  split
  · exact h
  · rename_i client hclient
    have hfresh : ∀ k c, s.connections.get k = some c → id ∉ c.serverConnectionIds := by
      intro k c hk hmem
      have := (h.owned id).mpr ⟨k, c, hk, hmem⟩
      simp [hid] at this
    constructor
    · intro index k hk
      obtain ⟨c, hc, hindex⟩ := h.indexed index k hk
      simp only [Table.get_put]
      grind [ClientConnection.publishConnectionId]
    · intro k c hk
      simp only [Table.get_put] at hk
      grind [ClientConnection.publishConnectionId, h.listed]
    · intro i k hi
      simp only [Table.get_put] at hi ⊢
      have := h.aliased i k
      grind [ClientConnection.publishConnectionId]
    · intro i
      simp only [Table.get_put]
      have := h.owned i
      grind [ClientConnection.publishConnectionId]
    · intro k k' c c' i hk hk' hmem hmem'
      simp only [Table.get_put] at hk hk'
      have := h.disjoint
      grind [ClientConnection.publishConnectionId]

theorem issueIds_consistent {draws : List Draw} :
    (issueIds config key s draws).Consistent config := by
  induction draws generalizing s with
  | nil => exact h
  | cons draw draws ih =>
    unfold issueIds
    split
    · exact h
    · dsimp only
      split_ifs with howned htaken
      · exact ih h
      · exact h
      · rw [Bool.not_eq_true, Table.contains_eq_false] at howned
        exact ih (publishId_consistent h howned)

theorem syncConnectionIds_consistent {packet : Packet} :
    (s.syncConnectionIds config packet key).Consistent config := by
  have hretired : (packet.retired.foldl (retireId key) s).Consistent config := by
    induction packet.retired generalizing s with
    | nil => exact h
    | cons id ids ih => exact ih (retireId_consistent h)
  unfold syncConnectionIds
  dsimp only
  split_ifs with hestablished
  · exact issueIds_consistent hretired
  · exact hretired

theorem deliver_consistent {packet : Packet} (hs' : s.deliver config packet key = some s') :
    s'.Consistent config := by
  obtain ⟨client, hclient, rfl⟩ := map_eq_some_iff.mp hs'
  split_ifs with hreceived
  · exact syncConnectionIds_consistent h
  · exact h

theorem reap_consistent {index : ℕ} {isClosed : Bool} :
    (s.reap index isClosed).Consistent config := by
  unfold reap
  split
  · exact h
  · rename_i k hk
    split
    · exact h
    · rename_i client hclient
      split_ifs with hclosed
      · have hdisjoint := h.disjoint
        constructor
        · intro i k' hi
          simp only [Table.get_remove] at hi ⊢
          have := h.indexed i k'
          grind [h.listed]
        · intro k' c hk'
          simp only [Table.get_remove] at hk' ⊢
          have := h.listed k' c
          have := h.listed k client hclient
          grind
        · intro i k' hi
          simp only [Table.get_foldl_remove, Table.get_remove] at hi ⊢
          have := h.aliased i k'
          grind
        · intro i
          simp only [Table.get_foldl_remove, Table.get_remove]
          have := h.owned i
          grind
        · intro k₁ k₂ c₁ c₂ i h₁ h₂ hmem₁ hmem₂
          simp only [Table.get_remove] at h₁ h₂
          grind
      · exact h

omit h

/-! ### The connection of a packet -/

/-- The token was minted for the address it comes from, and for an identifier that derives the
packet's own. -/
def Validated (config : ShardConfig) (s : Shard) (packet : Packet) (hdr : QuicHeader) : Prop :=
  ∃ odcid, s.retryTokens.validateAt packet.source packet.localAddr (hdr.token.getD []) packet.now =
    some odcid ∧ config.deriveConnectionId odcid = hdr.dcid

/-- What selecting a connection can come to. A connection is accepted for a first packet whose
identifier leads nowhere, under a derived identifier that nobody has or under the packet's own,
validated one; short of that, only a token may be minted. -/
inductive Selects (config : ShardConfig) (s : Shard) (packet : Packet) (hdr : QuicHeader) :
    Selection → Prop
  | known {key : ConnectionId} (hlookup : s.lookup hdr.dcid = some key) :
      Selects config s packet hdr (.existing key)
  | repeated {key : ConnectionId} (hkey : s.connections.contains key = true) :
      Selects config s packet hdr (.existing key)
  | stopped (retryTokens : RetryTokenCodec) (output : Option PacketOutput) :
      Selects config s packet hdr (.stop { s with retryTokens } output)
  | derived {key : ConnectionId} (hkey : s.connections.get key = none)
      (hcid : s.cidShard.get key = none)
      (hretry : retryRequired config.retryMode s.connections.size
        config.retryConnectionThreshold = false) :
      Selects config s packet hdr (.accepted (s.entered config key) key)
  | validated (hty : hdr.ty = .initial) (hlookup : s.lookup hdr.dcid = none)
      (hcid : s.cidShard.get hdr.dcid = none) (hvalid : s.Validated config packet hdr) :
      Selects config s packet hdr (.accepted (s.entered config hdr.dcid) hdr.dcid)

theorem accept_cases (config : ShardConfig) (s : Shard) (packet : Packet) (scid : ConnectionId) :
    s.accept config packet scid = .accepted (s.entered config scid) scid ∨
      s.accept config packet scid = .stop s none := by
  unfold accept
  split_ifs <;> simp

variable {hdr : QuicHeader}

theorem selectNew_selects {packet : Packet} {derived : ConnectionId} (hty : hdr.ty = .initial)
    (hlookup : s.lookup hdr.dcid = none) (hcid : s.cidShard.get hdr.dcid = none)
    (hderived : s.connections.get derived = none) (hcid' : s.cidShard.get derived = none) :
    Selects config s packet hdr (s.selectNew config packet hdr derived) := by
  unfold selectNew
  dsimp only
  split_ifs with hretry hunvalidated
  · split
    · exact .stopped s.retryTokens none
    · exact .stopped _ _
  · have hfree : retryRequired config.retryMode s.connections.size
        config.retryConnectionThreshold = false := by
      rcases hunvalidated with htoken | hoff
      · simpa [htoken] using hretry
      · rw [hoff]
        rfl
    obtain haccept | haccept := accept_cases config s packet derived
    · rw [haccept]
      exact .derived hderived hcid' hfree
    · rw [haccept]
      exact .stopped s.retryTokens none
  · split
    · exact .stopped s.retryTokens none
    · rename_i odcid hvalid
      split_ifs with hodcid
      · exact .stopped s.retryTokens none
      · obtain haccept | haccept := accept_cases config s packet hdr.dcid
        · rw [haccept]
          exact .validated hty hlookup hcid ⟨odcid, hvalid, not_not.mp hodcid⟩
        · rw [haccept]
          exact .stopped s.retryTokens none

theorem select_selects (config : ShardConfig) (s : Shard) (packet : Packet) (hdr : QuicHeader) :
    Selects config s packet hdr (s.select config packet hdr) := by
  unfold select
  split
  · rename_i key hlookup
    exact .known hlookup
  · rename_i hlookup
    split
    · exact .stopped s.retryTokens _
    · rename_i hcid
      split_ifs with hty hlength hversion
      · exact .stopped s.retryTokens none
      · exact .stopped s.retryTokens none
      · exact .stopped s.retryTokens _
      · unfold selectInitial
        dsimp only
        split_ifs with hderived
        · exact .repeated hderived
        · rw [Bool.not_eq_true, Table.contains_eq_false] at hderived
          split
          · exact .stopped s.retryTokens _
          · rename_i hcid'
            exact selectNew_selects (not_not.mp hty) hlookup hcid hderived hcid'

theorem exists_of_lookup (h : s.Consistent config) {dcid : ConnectionId}
    (hlookup : s.lookup dcid = some key) : ∃ client, s.connections.get key = some client := by
  unfold lookup at hlookup
  have := h.aliased dcid key
  grind

theorem consistent_retryTokens (h : s.Consistent config) (retryTokens : RetryTokenCodec) :
    { s with retryTokens }.Consistent config :=
  ⟨h.indexed, h.listed, h.aliased, h.owned, h.disjoint⟩

/-- A first packet presents a valid token for the key of a connection which no longer answers to
that key. -/
def replaysRetired (config : ShardConfig) (s : Shard) (packet : Packet) : Bool :=
  match packet.header with
  | none => false
  | some hdr =>
    match s.connections.get hdr.dcid,
      s.retryTokens.validateAt packet.source packet.localAddr (hdr.token.getD []) packet.now with
    | some client, some odcid =>
      hdr.ty = .initial && !client.primaryConnectionIdActive &&
        config.deriveConnectionId odcid = hdr.dcid
    | _, _ => false

theorem get_eq_none_of_validated {packet : Packet}
    (hreplay : s.replaysRetired config packet = false) (hhdr : packet.header = some hdr)
    (hty : hdr.ty = .initial) (hlookup : s.lookup hdr.dcid = none)
    (hvalid : s.Validated config packet hdr) : s.connections.get hdr.dcid = none := by
  obtain ⟨odcid, hodcid, hderived⟩ := hvalid
  by_contra hlive
  obtain ⟨client, hclient⟩ := ne_none_iff_exists'.mp hlive
  have hactive : client.primaryConnectionIdActive = true := by
    simpa [replaysRetired, hhdr, hclient, hodcid, hty, hderived] using hreplay
  simp [lookup, hclient, hactive] at hlookup

theorem get_eq_none_of_accepted {packet : Packet} (hreplay : s.replaysRetired config packet = false)
    (hhdr : packet.header = some hdr) (h : s.select config packet hdr = .accepted s' key) :
    s' = s.entered config key ∧ s.connections.get key = none ∧ s.cidShard.get key = none := by
  have hselects := select_selects config s packet hdr
  rw [h] at hselects
  cases hselects with
  | derived hkey hcid hretry => exact ⟨rfl, hkey, hcid⟩
  | validated hty hlookup hcid hvalid =>
    exact ⟨rfl, get_eq_none_of_validated hreplay hhdr hty hlookup hvalid, hcid⟩

theorem exists_of_existing (h : s.Consistent config) {packet : Packet}
    (hselect : s.select config packet hdr = .existing key) :
    ∃ client, s.connections.get key = some client := by
  have hselects := select_selects config s packet hdr
  rw [hselect] at hselects
  cases hselects with
  | known hlookup => exact exists_of_lookup h hlookup
  | repeated hkey => exact Table.contains_iff.mp hkey

theorem handlePacket_ne_none (h : s.Consistent config) (packet : Packet) :
    s.handlePacket config packet ≠ none := by
  unfold handlePacket
  split
  · simp
  · rename_i hdr hhdr
    split
    · rename_i key hselect
      obtain ⟨client, hclient⟩ := exists_of_existing h hselect
      simp [deliver, hclient]
    · rename_i t key hselect
      have hselects := select_selects config s packet hdr
      rw [hselect] at hselects
      cases hselects <;> simp [deliver, entered]
    · simp

theorem handlePacket_consistent (h : s.Consistent config) {packet : Packet}
    (hreplay : s.replaysRetired config packet = false) {output : Option PacketOutput}
    (hs' : s.handlePacket config packet = some (s', output)) : s'.Consistent config := by
  unfold handlePacket at hs'
  split at hs'
  · cases hs'
    exact h
  · rename_i hdr hhdr
    split at hs'
    · obtain ⟨t, ht, heq⟩ := map_eq_some_iff.mp hs'
      cases heq
      exact deliver_consistent h ht
    · rename_i r key hselect
      obtain ⟨t, ht, heq⟩ := map_eq_some_iff.mp hs'
      cases heq
      obtain ⟨rfl, hkey, hcid⟩ := get_eq_none_of_accepted hreplay hhdr hselect
      exact deliver_consistent (entered_consistent h hkey hcid) ht
    · rename_i hselect
      cases hs'
      have hselects := select_selects config s packet hdr
      rw [hselect] at hselects
      cases hselects
      exact consistent_retryTokens h _

/-- No packet presents a token again for a key that its connection has retired. -/
def NoReplay (config : ShardConfig) (s : Shard) : TableEvent → Prop
  | .packet packet => s.replaysRetired config packet = false
  | _ => True

instance : ∀ s e, Decidable (NoReplay config s e)
  | s, .packet packet => inferInstanceAs (Decidable (s.replaysRetired config packet = false))
  | _, .reap _ _ => isTrue trivial
  | _, .publish _ _ => isTrue trivial
  | _, .withdraw _ => isTrue trivial
  | _, .takeIndex => isTrue trivial
  | _, .mint _ => isTrue trivial

theorem step_consistent {e : TableEvent} (h : s.Consistent config) (hallowed : NoReplay config s e)
    (hstep : s.step config e = some s') : s'.Consistent config := by
  cases e with
  | packet packet =>
    obtain ⟨⟨t, output⟩, ht, rfl⟩ := map_eq_some_iff.mp hstep
    exact handlePacket_consistent h hallowed ht
  | reap index isClosed =>
    cases hstep
    exact reap_consistent h
  | publish id owner =>
    obtain ⟨hfree, heq⟩ := ite_none_left_eq_some.mp hstep
    cases heq
    rw [not_or, Bool.not_eq_true, Table.contains_eq_false] at hfree
    refine ⟨h.indexed, h.listed, h.aliased, fun i => ?_, h.disjoint⟩
    have := h.owned i
    simp only [Table.get_put]
    grind
  | withdraw id =>
    obtain ⟨hforeign, heq⟩ := ite_none_left_eq_some.mp hstep
    cases heq
    refine ⟨h.indexed, h.listed, h.aliased, fun i => ?_, h.disjoint⟩
    have := h.owned i
    simp only [Table.get_remove]
    grind
  | takeIndex =>
    cases hstep
    exact ⟨h.indexed, fun k client hk => ⟨(h.listed k client hk).1,
      Nat.lt_succ_of_lt (h.listed k client hk).2⟩, h.aliased, h.owned, h.disjoint⟩
  | mint request =>
    obtain ⟨retryTokens, -, rfl⟩ := map_eq_some_iff.mp hstep
    exact consistent_retryTokens h retryTokens

/-- In every run in which no token is replayed for a retired key, the tables agree after every
step, a packet finds its connection, and an accepted connection replaces none. -/
theorem connectionTables_consistent {retryTokens : RetryTokenCodec} {events : List TableEvent}
    (hrun : run (step config) (new retryTokens) events = some s)
    (hreplay : Meets (NoReplay config) (step config) (new retryTokens) events) :
    s.Consistent config ∧ (∀ packet, s.handlePacket config packet ≠ none) ∧
      ∀ packet hdr t key, NoReplay config s (.packet packet) → packet.header = some hdr →
        s.select config packet hdr = .accepted t key → s.connections.get key = none := by
  have hs : s.Consistent config :=
    run_invariant (fun _ _ _ h => step_consistent h) (new_consistent config retryTokens)
      hreplay hrun
  refine ⟨hs, handlePacket_ne_none hs, fun packet hdr t key hallowed hhdr hselect => ?_⟩
  exact (get_eq_none_of_accepted hallowed hhdr hselect).2.1

/-! ### A token presented again -/

namespace Replay

def aead : RetryAead where
  sealBody _ body := body ++ List.replicate tagLen 0
  length_sealBody := by simp
  sealBody_injective _ _ _ h := List.append_cancel_right h

def server : ShardConfig where
  index := 0
  reuseportIndex := none
  retryMode := .always
  retryConnectionThreshold := 0
  maxConnections := 4
  hmac dcid := List.replicate connIdLen (UInt8.ofNat dcid.length)
  versionIsSupported _ := true

def start : Shard := .new (.new aead 30)

def client : SocketAddr := .v4 0xC0000201#32 5000#16

def listener : SocketAddr := .v4 0xC6336401#32 443#16

def nonce : Nonce := ⟨List.replicate nonceLen 7, rfl⟩

def odcid : ConnectionId := [1, 2, 3, 4, 5, 6, 7, 8]

def primary : ConnectionId := server.deriveConnectionId odcid

def spare : ConnectionId := List.replicate connIdLen 99

def token : Bytes :=
  nonce.val ++ aead.sealBody nonce (RetryTokenCodec.tokenBody 0 client listener odcid)

def packet (ty : PacketType) (dcid : ConnectionId) (token : Bytes)
    (retired : List ConnectionId) (draws : List Draw) : Packet where
  header := some ⟨ty, 1, dcid, some token⟩
  length := 1200
  source := client
  localAddr := listener
  now := 0
  nonce := some nonce
  admitted := true
  accepted := true
  received := true
  pathsKept := true
  retired := retired
  established := true
  draws := draws

/-- The client validates its address, gets a spare identifier and retires the first one. -/
def migration : List TableEvent :=
  [.packet (packet .initial odcid [] [] []),
    .packet (packet .initial primary token [] []),
    .packet (packet .short primary [] [] [⟨some spare, true⟩]),
    .packet (packet .short spare [] [primary] [])]

def replayed : Packet := packet .initial primary token [] []

end Replay

/-- The replayed first packet replaces the connection that the client still uses. Once the new
one is reaped, a packet for the old one finds no connection. -/
theorem connection_replaced_by_replay :
    ∃ s t u, run (step Replay.server) Replay.start Replay.migration = some s ∧
      s.connections.contains Replay.primary = true ∧
      s.step Replay.server (.packet Replay.replayed) = some t ∧ ¬t.Consistent Replay.server ∧
      t.step Replay.server (.reap 1 true) = some u ∧
      u.handlePacket Replay.server (Replay.packet .short Replay.spare [] [] []) = none := by
  let s := (run (step Replay.server) Replay.start Replay.migration).get (by decide +kernel)
  let t := (s.step Replay.server (.packet Replay.replayed)).get (by decide +kernel)
  let u := (t.step Replay.server (.reap 1 true)).get (by decide +kernel)
  refine ⟨s, t, u, (some_get _).symm, by decide +kernel, (some_get _).symm,
    fun ht => ?_, (some_get _).symm, by decide +kernel⟩
  have hindex : t.connByIndex.get 0 = some Replay.primary := by decide +kernel
  obtain ⟨client, hclient, hzero⟩ := ht.indexed 0 Replay.primary hindex
  have hone : (t.connections.get Replay.primary).map ClientConnection.index = some 1 := by
    decide +kernel
  simp [hclient, hzero] at hone

/-- Without the replay, the same client leaves the tables in agreement. -/
theorem connectionTables_consistent_of_migration :
    ∃ s, run (step Replay.server) Replay.start Replay.migration = some s ∧
      s.Consistent Replay.server := by
  have hsome : (run (step Replay.server) Replay.start Replay.migration).isSome = true := by
    decide +kernel
  refine ⟨_, (some_get hsome).symm, ?_⟩
  have hreplay : Meets (NoReplay Replay.server) (step Replay.server) Replay.start
      Replay.migration := by
    decide +kernel
  exact (connectionTables_consistent (some_get hsome).symm hreplay).1

end Shard

end MasqueServer
