import MasqueServer.RosterProtocol

/-!
# What a worker applied binds its connections

The invariant of the roster protocol: a worker that recorded generation `g` as applied has no
open connection whose identity is missing from every roster numbered `g` or later, except
between recording and checking. What carries it is the order of the reads: a roster loaded
after a generation was read is at least as new as that generation.
-/
namespace MasqueServer

open Bool Option Table

/-- The identity is present and unchanged in some roster numbered `g` or later. -/
def Authorized (roster : SharedRoster) (g : ℕ) (identity : ClientIdentity) : Prop :=
  roster.Since g fun registry => registry.lookupKey identity.key = some identity

lemma authorized_load {roster : SharedRoster} {g : ℕ} {identity : ClientIdentity}
    (hg : g ≤ roster.generation) (h : roster.load.stillAuthorizes identity = true) :
    Authorized roster g identity :=
  VersionedCell.since_load hg (ClientRegistry.stillAuthorizes_iff.mp h)

/-! ### Sweeps -/

/-- A worker's sweep state against the identities of its open connections. -/
structure Sweep.Sound (roster : SharedRoster) (live : ClientIdentity → Prop) (sweep : Sweep) :
    Prop where
  applied_le : sweep.applied ≤ roster.generation
  read_le : ∀ g, sweep.phase = .read g → g ≤ roster.generation
  authorized : sweep.phase ≠ .recorded → ∀ identity, live identity →
    Authorized roster sweep.applied identity

namespace Sweep

variable {roster roster' : SharedRoster} {live live' : ClientIdentity → Prop} {sweep sweep' : Sweep}

lemma sound_idle (live : ClientIdentity → Prop) (hlive : ∀ identity, live identity →
    Authorized roster roster.generation identity) : Sound roster live ⟨roster.generation, .idle⟩ :=
  ⟨le_rfl, by simp, fun _ => hlive⟩

lemma Sound.later (h : Sound roster live sweep) (hlater : roster.Later roster') :
    Sound roster' live sweep :=
  ⟨h.applied_le.trans hlater.counted, fun g hg => (h.read_le g hg).trans hlater.counted,
    fun hphase identity hlive => (h.authorized hphase identity hlive).later hlater⟩

lemma Sound.admit (h : Sound roster live sweep) (hphase : sweep.phase ≠ .recorded)
    (hlive : ∀ identity, live' identity →
      live identity ∨ roster.load.stillAuthorizes identity = true) : Sound roster live' sweep := by
  refine ⟨h.applied_le, h.read_le, fun _ identity hidentity => ?_⟩
  rcases hlive identity hidentity with hold | hnew
  · exact h.authorized hphase identity hold
  · exact authorized_load h.applied_le hnew

lemma Sound.step (h : Sound roster live sweep) {e : SweepEvent}
    (hstep : sweep.step roster.generation e = some sweep')
    (hlive : ∀ identity, live' identity → live identity)
    (hcheck : e = .enforce → ∀ identity, live' identity →
      roster.load.stillAuthorizes identity = true) : Sound roster live' sweep' := by
  cases e with
  | begin =>
    simp only [Sweep.step] at hstep
    split_ifs at hstep with hidle
    cases hstep
    refine ⟨h.applied_le, ?_, fun _ identity hidentity => ?_⟩
    · intro g hg
      cases hg
      exact le_rfl
    · exact h.authorized (by simp [hidle]) identity (hlive identity hidentity)
  | record =>
    simp only [Sweep.step] at hstep
    split at hstep
    · rename_i g hread
      split_ifs at hstep with hne
      · cases hstep
        exact ⟨h.read_le g hread, by simp, by simp⟩
      · cases hstep
        refine ⟨h.applied_le, by simp, fun _ identity hidentity => ?_⟩
        exact h.authorized (by simp [hread]) identity (hlive identity hidentity)
    · cases hstep
  | enforce =>
    simp only [Sweep.step] at hstep
    split_ifs at hstep with hrecorded
    cases hstep
    refine ⟨h.applied_le, by simp, fun _ identity hidentity => ?_⟩
    exact authorized_load h.applied_le (hcheck rfl identity hidentity)

end Sweep

/-! ### HTTP/3 shards -/

namespace Http3Client

@[simp] theorem upgrade_identity (client : Http3Client) (report : QuicReport) :
    (client.upgrade report).identity = client.identity := by
  unfold upgrade
  split_ifs <;> rfl

@[simp] theorem upgrade_closed (client : Http3Client) (report : QuicReport) :
    (client.upgrade report).closed = client.closed := by
  unfold upgrade
  split_ifs <;> rfl

lemma upgrade_h3 {client : Http3Client} {report : QuicReport}
    (h : (client.upgrade report).h3 = true) : client.h3 = true ∨ report.established = true := by
  unfold upgrade at h
  split_ifs at h with hcond
  · simp only [and_eq_true] at hcond
    exact .inr hcond.1.1.2
  · exact .inl h

variable {codec : ClientCodec} {clientCerts : Bool} {registry : ClientRegistry}
  {client : Http3Client} {report : QuicReport} {identity : ClientIdentity}

lemma finishHandshake_identity
    (hopen : (client.finishHandshake codec clientCerts registry report).closed = false)
    (h : (client.finishHandshake codec clientCerts registry report).identity = some identity) :
    client.closed = false ∧
      (client.identity = some identity ∨ registry.stillAuthorizes identity = true) := by
  unfold finishHandshake at hopen h
  split_ifs at hopen h with hcond
  · split at hopen <;> rename_i hcert
    · rw [hcert] at h
      simp only [upgrade_identity, upgrade_closed, some.injEq] at hopen h
      subst h
      obtain ⟨der, -, hder⟩ := map_eq_some_iff.mp hcert
      exact ⟨hopen, .inr (ClientRegistry.identify_authorizes hder)⟩
    · cases hopen
  · rw [upgrade_identity] at h
    rw [upgrade_closed] at hopen
    exact ⟨hopen, .inl h⟩

lemma finishHandshake_named (hnamed : client.h3 = true → client.identity.isSome = true)
    (hh3 : (client.finishHandshake codec true registry report).h3 = true) :
    (client.finishHandshake codec true registry report).identity.isSome = true := by
  unfold finishHandshake at hh3 ⊢
  split_ifs at hh3 ⊢ with hcond
  · split at hh3 <;> rename_i hcert
    · simp
    · rw [hnamed hh3]
  · rw [upgrade_identity]
    rcases upgrade_h3 hh3 with hh3 | hestablished
    · exact hnamed hh3
    · simpa [hestablished, isSome_iff_ne_none] using hcond

end Http3Client

namespace Http3Shard

variable {codec : ClientCodec} {registry : ClientRegistry} {shard shard' : Http3Shard}

def Live (shard : Http3Shard) (identity : ClientIdentity) : Prop :=
  shard.clientCerts = true ∧ ∃ conn client, shard.connections.get conn = some client ∧
    client.closed = false ∧ client.identity = some identity

/-- With client certificates, every upgraded connection is identified. -/
def Named (shard : Http3Shard) : Prop :=
  shard.clientCerts = true → ∀ conn client, shard.connections.get conn = some client →
    client.h3 = true → client.identity.isSome = true

/-- What a step outside the sweep can do to one connection. -/
inductive ClientStep (codec : ClientCodec) (clientCerts : Bool) (registry : ClientRegistry) :
    Option Http3Client → Http3Client → Prop
  | kept (client) : ClientStep codec clientCerts registry (some client) client
  | accepted : ClientStep codec clientCerts registry none .accepted
  | packet (client report) : ClientStep codec clientCerts registry (some client)
      (client.finishHandshake codec clientCerts registry report)
  | closed (client : Http3Client) :
      ClientStep codec clientCerts registry (some client) { client with closed := true }

lemma ClientStep.of_setClient {conn other : ℕ} {client client' : Http3Client}
    (h : ClientStep codec shard.clientCerts registry (shard.connections.get conn) client)
    (hget : (shard.setClient conn client).connections.get other = some client') :
    ClientStep codec shard.clientCerts registry (shard.connections.get other) client' := by
  rw [setClient, get_put] at hget
  split_ifs at hget with heq
  · cases hget
    rw [heq]
    exact h
  · rw [hget]
    exact .kept client'

variable {e : ShardEvent} {identity : ClientIdentity}

variable (h : shard.step codec registry e = some shard')
include h

lemma step_spec : shard.sweep.phase = .idle ∧ shard'.sweep = shard.sweep ∧
      shard'.clientCerts = shard.clientCerts ∧
      ∀ conn client', shard'.connections.get conn = some client' →
        ClientStep codec shard.clientCerts registry (shard.connections.get conn) client' := by
  unfold step at h
  split_ifs at h with hidle
  refine ⟨hidle, ?_⟩
  cases e with
  | accept conn =>
    simp only at h
    split_ifs at h with hnew
    cases h
    refine ⟨rfl, rfl, fun other client' hget => .of_setClient ?_ hget⟩
    rw [contains_eq_false.mp (eq_false_iff.mpr hnew)]
    exact .accepted
  | packet conn report =>
    obtain ⟨client, hclient, rfl⟩ := map_eq_some_iff.mp h
    refine ⟨rfl, rfl, fun other client' hget => .of_setClient ?_ hget⟩
    rw [hclient]
    exact .packet client report
  | close conn =>
    obtain ⟨client, hclient, rfl⟩ := map_eq_some_iff.mp h
    refine ⟨rfl, rfl, fun other client' hget => .of_setClient ?_ hget⟩
    rw [hclient]
    exact .closed client
  | reap conn =>
    simp only at h
    split at h
    · split_ifs at h
      cases h
      refine ⟨rfl, rfl, fun other client' hget => ?_⟩
      rw [Table.get_remove] at hget
      split_ifs at hget
      rw [hget]
      exact .kept client'
    · cases h

lemma step_live (hlive : shard'.Live identity) :
    shard.Live identity ∨ registry.stillAuthorizes identity = true := by
  obtain ⟨-, -, hcerts, hclients⟩ := step_spec h
  obtain ⟨hcerts', conn, client', hget, hopen, hidentity⟩ := hlive
  rw [hcerts] at hcerts'
  have hclient := hclients conn client' hget
  generalize hbefore : shard.connections.get conn = before at hclient
  cases hclient with
  | kept => exact .inl ⟨hcerts', conn, client', hbefore, hopen, hidentity⟩
  | accepted => cases hidentity
  | packet client report =>
    obtain ⟨hopen, hold | hnew⟩ := Http3Client.finishHandshake_identity hopen hidentity
    · exact .inl ⟨hcerts', conn, client, hbefore, hopen, hold⟩
    · exact .inr hnew
  | closed => cases hopen

lemma step_named (hnamed : shard.Named) : shard'.Named := by
  obtain ⟨-, -, hcerts, hclients⟩ := step_spec h
  intro hcerts' conn client' hget hh3
  rw [hcerts] at hcerts'
  have hclient := hclients conn client' hget
  have hall := hnamed hcerts' conn
  rw [hcerts'] at hclient
  generalize shard.connections.get conn = before at hclient hall
  cases hclient with
  | kept => exact hall client' rfl hh3
  | accepted => cases hh3
  | packet client report => exact Http3Client.finishHandshake_named (hall client rfl) hh3
  | closed client => exact hall client rfl hh3

omit h

lemma get_closeEach (connections : Table ℕ Http3Client) (conns : List ℕ) (conn : ℕ) :
    (closeEach connections conns).get conn = (connections.get conn).map fun client =>
      if conn ∈ conns then { client with closed := true } else client := by
  induction conns generalizing connections with
  | nil => simp [closeEach]
  | cons c conns ih =>
    rw [closeEach, List.foldl_cons, ← closeEach, ih]
    by_cases heq : conn = c
    · subst heq
      cases hget : connections.get conn <;> simp [hget]
    · cases hget : connections.get c <;> simp [heq]

lemma mem_revoked {conn : ℕ} {client : Http3Client}
    (hget : shard.connections.get conn = some client) (hidentity : client.identity = some identity)
    (hrefused : registry.stillAuthorizes identity = false) : conn ∈ shard.revoked registry := by
  refine List.mem_map.mpr ⟨⟨conn, client⟩, ?_, rfl⟩
  refine List.mem_filter.mpr ⟨mem_entries.mpr hget, ?_⟩
  simp [hidentity, hrefused]

lemma enforceRoster_live (hlive : (shard.enforceRoster registry).Live identity) :
    shard.Live identity ∧ registry.stillAuthorizes identity = true := by
  unfold enforceRoster at hlive
  split_ifs at hlive with hcerts
  · obtain ⟨-, conn, client', hget, hopen, hidentity⟩ := hlive
    rw [get_closeEach] at hget
    obtain ⟨client, hclient, rfl⟩ := map_eq_some_iff.mp hget
    split_ifs at hopen hidentity with hrevoked
    refine ⟨⟨hcerts, conn, client, hclient, hopen, hidentity⟩, ?_⟩
    by_contra hrefused
    exact hrevoked (mem_revoked hclient hidentity (eq_false_iff.mpr hrefused))
  · exact absurd hlive.1 hcerts

lemma enforceRoster_named (hnamed : shard.Named) : (shard.enforceRoster registry).Named := by
  unfold enforceRoster
  split_ifs with hcerts
  · intro _ conn client' hget hh3
    rw [get_closeEach] at hget
    obtain ⟨client, hclient, rfl⟩ := map_eq_some_iff.mp hget
    have hall := hnamed hcerts conn client hclient
    split_ifs at hh3 ⊢ <;> exact hall hh3
  · exact hnamed

lemma sweepStep_spec {roster : SharedRoster} {e : SweepEvent}
    (h : shard.sweepStep roster e = some shard') :
    shard.sweep.step roster.generation e = some shard'.sweep ∧
      (∀ identity, shard'.Live identity → shard.Live identity ∧
        (e = .enforce → roster.load.stillAuthorizes identity = true)) ∧
      (shard.Named → shard'.Named) := by
  obtain ⟨sweep, hsweep, rfl⟩ := map_eq_some_iff.mp h
  refine ⟨hsweep, ?_, ?_⟩
  · intro identity hlive
    by_cases he : e = .enforce
    · rw [if_pos he] at hlive
      have hchecked : shard.Live identity ∧ roster.load.stillAuthorizes identity = true :=
        enforceRoster_live hlive
      exact ⟨hchecked.1, fun _ => hchecked.2⟩
    · rw [if_neg he] at hlive
      exact ⟨hlive, fun henforce => absurd henforce he⟩
  · intro hnamed
    by_cases he : e = .enforce
    · rw [if_pos he]
      exact enforceRoster_named hnamed
    · rw [if_neg he]
      exact hnamed

end Http3Shard

/-! ### HTTP/2 connections -/

namespace Http2Connection

variable {codec : ClientCodec} {roster roster' : SharedRoster} {conn conn' : Http2Connection}

/-- An identity resolved between two equal reads of the generation is as new as both. -/
def StageSound (roster : SharedRoster) (clientCerts : Bool) : Http2Stage → Prop
  | .identifying => True
  | .loading before => before ≤ roster.generation
  | .comparing before identity => before ≤ roster.generation ∧
      ∀ client, identity = .ok client → Authorized roster before client
  | .serving identity sweep => (clientCerts = true → identity.isSome = true) ∧
      (identity.isSome = true → sweep.Sound roster fun client => identity = some client)
  | .closed => True

def Sound (roster : SharedRoster) (conn : Http2Connection) : Prop :=
  StageSound roster conn.clientCerts conn.stage

lemma Sound.later (h : conn.Sound roster) (hlater : roster.Later roster') : conn.Sound roster' := by
  unfold Sound at h ⊢
  cases hstage : conn.stage with
  | identifying => trivial
  | loading before =>
    rw [hstage] at h
    exact le_trans h hlater.counted
  | comparing before identity =>
    rw [hstage] at h
    exact ⟨h.1.trans hlater.counted, fun client hok => (h.2 client hok).later hlater⟩
  | serving identity sweep =>
    rw [hstage] at h
    exact ⟨h.1, fun hsome => (h.2 hsome).later hlater⟩
  | closed => trivial

lemma identifyStep_sound (h : conn.Sound roster) {stage : Http2Stage}
    (hstep : conn.identifyStep codec roster = some stage) :
    StageSound roster conn.clientCerts stage := by
  unfold identifyStep at hstep
  unfold Sound at h
  cases hstage : conn.stage with
  | identifying =>
    simp only [hstage] at hstep
    split_ifs at hstep with hcerts
    · split at hstep <;> cases hstep
      · exact le_rfl
      · trivial
    · cases hstep
      exact ⟨fun hc => absurd hc hcerts, by simp⟩
  | loading before =>
    simp only [hstage] at hstep h
    obtain ⟨der, -, rfl⟩ := map_eq_some_iff.mp hstep
    refine ⟨h, fun client hok => ?_⟩
    exact authorized_load h (ClientRegistry.identify_authorizes hok)
  | comparing before identity =>
    simp only [hstage] at hstep h
    split_ifs at hstep with hsame
    · split at hstep <;> cases hstep
      · rename_i client
        refine ⟨fun _ => rfl, fun _ => Sweep.sound_idle _ fun other hother => ?_⟩
        cases hother
        rw [← hsame]
        exact h.2 client rfl
      · trivial
    · cases hstep
      trivial
  | serving => simp [hstage] at hstep
  | closed => simp [hstage] at hstep

variable {e : Http2Event} {identity : Option ClientIdentity}

lemma step_sound (h : conn.Sound roster) (hstep : conn.step codec roster e = some conn') :
    conn'.Sound roster := by
  cases e with
  | identify =>
    obtain ⟨stage, hstage, rfl⟩ := map_eq_some_iff.mp hstep
    exact identifyStep_sound h hstage
  | close =>
    simp only [step] at hstep
    split at hstep
    · split_ifs at hstep
      cases hstep
      trivial
    · cases hstep
      trivial

lemma sweepStep_sound (h : conn.Sound roster) {e : SweepEvent}
    (hstep : conn.sweepStep roster e = some conn') : conn'.Sound roster := by
  unfold sweepStep at hstep
  split at hstep
  · rename_i identity sweep hstage
    obtain ⟨sweep', hsweep, rfl⟩ := map_eq_some_iff.mp hstep
    split_ifs with hrefused
    · trivial
    · unfold Sound at h
      rw [hstage] at h
      refine ⟨fun _ => rfl, fun _ => (h.2 rfl).step hsweep (fun _ hclient => hclient) ?_⟩
      intro he client hclient
      cases hclient
      by_contra hnot
      exact hrefused ⟨he, eq_false_iff.mpr hnot⟩
  · cases hstep

lemma step_of_serving {sweep : Sweep} (hstage : conn.stage = .serving identity sweep)
    (hstep : conn.step codec roster e = some conn') :
    conn'.stage = .closed := by
  cases e with
  | identify => simp [step, identifyStep, hstage] at hstep
  | close =>
    simp only [step, hstage] at hstep
    split_ifs at hstep
    cases hstep
    rfl

lemma sweepStep_of_serving {sweep : Sweep} {e : SweepEvent}
    (hstage : conn.stage = .serving identity sweep) (hstep : conn.sweepStep roster e = some conn') :
    conn'.stage = .closed ∨ ∃ sweep', conn'.stage = .serving identity sweep' ∧
      sweep.step roster.generation e = some sweep' := by
  unfold sweepStep at hstep
  rw [hstage] at hstep
  cases identity with
  | none => cases hstep
  | some identity =>
    obtain ⟨sweep', hsweep, rfl⟩ := map_eq_some_iff.mp hstep
    split_ifs
    · exact .inl rfl
    · exact .inr ⟨sweep', rfl, hsweep⟩

lemma step_of_closed (hstage : conn.stage = .closed) (hstep : conn.step codec roster e =
    some conn') : conn'.stage = .closed := by
  cases e with
  | identify => simp [step, identifyStep, hstage] at hstep
  | close =>
    simp only [step, hstage, some.injEq] at hstep
    rw [← hstep]

end Http2Connection

/-! ### The server -/

namespace Server

variable {codec : ClientCodec} {s s' : Server} {w : Worker}

structure Guarded (s : Server) : Prop where
  shards : ∀ i shard, s.shards.get i = some shard →
    shard.sweep.Sound s.roster shard.Live ∧ shard.Named
  http2 : ∀ j conn, s.http2.get j = some conn → conn.Sound s.roster

lemma start_guarded (registry : ClientRegistry) : (start registry).Guarded :=
  ⟨by simp [start], by simp [start]⟩

lemma Guarded.setShard (h : s.Guarded) {i : ℕ} {shard : Http3Shard}
    (hsound : shard.sweep.Sound s.roster shard.Live) (hnamed : shard.Named) :
    (s.setShard i shard).Guarded := by
  refine ⟨fun i' shard' hget => ?_, h.http2⟩
  rw [Server.setShard, get_put] at hget
  split_ifs at hget
  · cases hget
    exact ⟨hsound, hnamed⟩
  · exact h.shards i' shard' hget

lemma Guarded.setHttp2 (h : s.Guarded) {j : ℕ} {conn : Http2Connection}
    (hsound : conn.Sound s.roster) : (s.setHttp2 j conn).Guarded := by
  refine ⟨h.shards, fun j' conn' hget => ?_⟩
  rw [Server.setHttp2, get_put] at hget
  split_ifs at hget
  · cases hget
    exact hsound
  · exact h.http2 j' conn' hget

lemma Guarded.later (h : s.Guarded) {roster : SharedRoster} (hlater : s.roster.Later roster) :
    ({ s with roster } : Server).Guarded :=
  ⟨fun i shard hget => ⟨(h.shards i shard hget).1.later hlater, (h.shards i shard hget).2⟩,
    fun j conn hget => (h.http2 j conn hget).later hlater⟩

lemma step_guarded {e : ServerEvent} (h : s.Guarded) (hstep : s.step codec e = some s') :
    s'.Guarded := by
  cases e with
  | store registry =>
    cases hstep
    exact h.later (VersionedCell.store_later _ _)
  | advance =>
    obtain ⟨roster, hroster, rfl⟩ := map_eq_some_iff.mp hstep
    exact h.later (VersionedCell.advance_later hroster)
  | startShard i clientCerts =>
    simp only [step] at hstep
    split_ifs at hstep
    cases hstep
    refine h.setShard (Sweep.sound_idle _ fun identity hlive => ?_) ?_
    · obtain ⟨-, conn, client, hget, -⟩ := hlive
      cases hget
    · intro _ conn client hget
      cases hget
  | shard i e =>
    obtain ⟨shard, hshard, hstep⟩ := bind_eq_some_iff.mp hstep
    obtain ⟨shard', hshard', rfl⟩ := map_eq_some_iff.mp hstep
    obtain ⟨hsound, hnamed⟩ := h.shards i shard hshard
    obtain ⟨hidle, hsweep, -⟩ := Http3Shard.step_spec hshard'
    refine h.setShard ?_ (Http3Shard.step_named hshard' hnamed)
    rw [hsweep]
    exact hsound.admit (by simp [hidle]) fun identity hlive => Http3Shard.step_live hshard' hlive
  | connect j clientCerts peerCert =>
    simp only [step] at hstep
    split_ifs at hstep
    cases hstep
    exact h.setHttp2 trivial
  | http2 j e =>
    obtain ⟨conn, hconn, hstep⟩ := bind_eq_some_iff.mp hstep
    obtain ⟨conn', hconn', rfl⟩ := map_eq_some_iff.mp hstep
    exact h.setHttp2 (Http2Connection.step_sound (h.http2 j conn hconn) hconn')
  | sweep w e =>
    cases w with
    | http3 i =>
      obtain ⟨shard, hshard, hstep⟩ := bind_eq_some_iff.mp hstep
      obtain ⟨shard', hshard', rfl⟩ := map_eq_some_iff.mp hstep
      obtain ⟨hsound, hnamed⟩ := h.shards i shard hshard
      obtain ⟨hsweep, hlive, hnamed'⟩ := Http3Shard.sweepStep_spec hshard'
      refine h.setShard (hsound.step hsweep ?_ ?_) (hnamed' hnamed)
      · exact fun identity hidentity => (hlive identity hidentity).1
      · exact fun he identity hidentity => (hlive identity hidentity).2 he
    | http2 j =>
      obtain ⟨conn, hconn, hstep⟩ := bind_eq_some_iff.mp hstep
      obtain ⟨conn', hconn', rfl⟩ := map_eq_some_iff.mp hstep
      exact h.setHttp2 (Http2Connection.sweepStep_sound (h.http2 j conn hconn) hconn')

end Server

end MasqueServer
