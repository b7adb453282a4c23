import MasqueServer.RosterGuard

/-!
# Revoked clients are disconnected

One whole sweep, from the read of the generation to the next idle point, interleaved with
anything else the server does: it ends with the generation it read as applied, and it checks
the connections whenever that generation is new. With the invariant of the protocol, no
client revoked by that generation keeps a connection.
-/
namespace MasqueServer

open Option

namespace Sweep

def Reads (g : ℕ) (sweep : Sweep) : Prop :=
  sweep.phase = .read g ∨ sweep.applied = g ∧ ∀ g', sweep.phase ≠ .read g'

def Unchecked (g : ℕ) (sweep : Sweep) : Prop :=
  sweep.phase = .read g ∧ sweep.applied ≠ g ∨ sweep.phase = .recorded

end Sweep

namespace Server

variable {codec : ClientCodec} {s s' : Server} {w : Worker}

def SweepMove (generation : ℕ) (w : Worker) (e : ServerEvent) (sweep sweep' : Sweep) : Prop :=
  (∃ ev, e = .sweep w ev ∧ sweep.step generation ev = some sweep') ∨
    sweep' = sweep ∧ ∀ ev, e ≠ .sweep w ev

def Gone (s : Server) : Worker → Prop
  | .http3 _ => False
  | .http2 j => ∃ conn, s.http2.get j = some conn ∧ conn.stage = .closed

variable {sweep : Sweep} {e : ServerEvent} {P : Sweep → Prop}

lemma sweepOf_http3 {i : ℕ} : s.sweepOf (.http3 i) = some sweep ↔
    ∃ shard, s.shards.get i = some shard ∧ shard.sweep = sweep := by
  simp [sweepOf]

lemma sweepOf_http2 {j : ℕ} : s.sweepOf (.http2 j) = some sweep ↔
    ∃ conn identity, s.http2.get j = some conn ∧ conn.stage = .serving identity sweep := by
  simp only [sweepOf, bind_eq_some_iff, Http2Connection.sweep]
  refine exists_congr fun conn => ?_
  cases conn.stage <;> simp

variable (hstep : s.step codec e = some s')
include hstep

lemma step_shard {i : ℕ} {shard : Http3Shard} (hget : s.shards.get i = some shard) :
    ∃ shard', s'.shards.get i = some shard' ∧
      SweepMove s.roster.generation (.http3 i) e shard.sweep shard'.sweep := by
  have hkept (hshards : s'.shards.get i = s.shards.get i)
    (hother : ∀ ev, e ≠ .sweep (.http3 i) ev) :
      ∃ shard', s'.shards.get i = some shard' ∧
        SweepMove s.roster.generation (.http3 i) e shard.sweep shard'.sweep :=
    ⟨shard, hshards.trans hget, .inr ⟨rfl, hother⟩⟩
  cases e with
  | store registry =>
    cases hstep
    exact hkept rfl (by simp)
  | advance =>
    obtain ⟨roster, -, rfl⟩ := map_eq_some_iff.mp hstep
    exact hkept rfl (by simp)
  | startShard i' clientCerts =>
    simp only [step] at hstep
    split_ifs at hstep with hnew
    cases hstep
    have hne : i ≠ i' := by
      intro heq
      rw [← heq] at hnew
      exact hnew (Table.contains_iff.mpr ⟨shard, hget⟩)
    exact hkept (by simp [setShard, hne]) (by simp)
  | shard i' e =>
    obtain ⟨old, hold, hstep⟩ := bind_eq_some_iff.mp hstep
    obtain ⟨new, hnew, rfl⟩ := map_eq_some_iff.mp hstep
    by_cases heq : i = i'
    · subst heq
      rw [hget, some.injEq] at hold
      subst hold
      refine ⟨new, by simp [setShard], .inr ⟨(Http3Shard.step_spec hnew).2.1, by simp⟩⟩
    · exact hkept (by simp [setShard, heq]) (by simp)
  | connect j clientCerts peerCert =>
    simp only [step] at hstep
    split_ifs at hstep
    cases hstep
    exact hkept rfl (by simp)
  | http2 j e =>
    obtain ⟨conn, -, hstep⟩ := bind_eq_some_iff.mp hstep
    obtain ⟨conn', -, rfl⟩ := map_eq_some_iff.mp hstep
    exact hkept rfl (by simp)
  | sweep w' e =>
    cases w' with
    | http3 i' =>
      obtain ⟨old, hold, hstep⟩ := bind_eq_some_iff.mp hstep
      obtain ⟨new, hnew, rfl⟩ := map_eq_some_iff.mp hstep
      by_cases heq : i = i'
      · subst heq
        rw [hget, some.injEq] at hold
        subst hold
        exact ⟨new, by simp [setShard], .inl ⟨e, rfl, (Http3Shard.sweepStep_spec hnew).1⟩⟩
      · exact hkept (by simp [setShard, heq]) (by simp [Ne.symm heq])
    | http2 j =>
      obtain ⟨conn, -, hstep⟩ := bind_eq_some_iff.mp hstep
      obtain ⟨conn', -, rfl⟩ := map_eq_some_iff.mp hstep
      exact hkept rfl (by simp)

lemma step_http2 {j : ℕ} {conn : Http2Connection} (hget : s.http2.get j = some conn) :
    ∃ conn', s'.http2.get j = some conn' ∧
      (conn' = conn ∧ (∀ ev, e ≠ .sweep (.http2 j) ev) ∨
        (∃ ev, e = .http2 j ev ∧ conn.step codec s.roster ev = some conn') ∨
        ∃ ev, e = .sweep (.http2 j) ev ∧ conn.sweepStep s.roster ev = some conn') := by
  have hkept (hconns : s'.http2.get j = s.http2.get j) (hother : ∀ ev, e ≠ .sweep (.http2 j) ev) :
      ∃ conn', s'.http2.get j = some conn' ∧
        (conn' = conn ∧ (∀ ev, e ≠ .sweep (.http2 j) ev) ∨
          (∃ ev, e = .http2 j ev ∧ conn.step codec s.roster ev = some conn') ∨
          ∃ ev, e = .sweep (.http2 j) ev ∧ conn.sweepStep s.roster ev = some conn') :=
    ⟨conn, hconns.trans hget, .inl ⟨rfl, hother⟩⟩
  cases e with
  | store registry =>
    cases hstep
    exact hkept rfl (by simp)
  | advance =>
    obtain ⟨roster, -, rfl⟩ := map_eq_some_iff.mp hstep
    exact hkept rfl (by simp)
  | startShard i clientCerts =>
    simp only [step] at hstep
    split_ifs at hstep
    cases hstep
    exact hkept rfl (by simp)
  | shard i e =>
    obtain ⟨shard, -, hstep⟩ := bind_eq_some_iff.mp hstep
    obtain ⟨shard', -, rfl⟩ := map_eq_some_iff.mp hstep
    exact hkept rfl (by simp)
  | connect j' clientCerts peerCert =>
    simp only [step] at hstep
    split_ifs at hstep with hnew
    cases hstep
    have hne : j ≠ j' := by
      intro heq
      rw [← heq] at hnew
      exact hnew (Table.contains_iff.mpr ⟨conn, hget⟩)
    exact hkept (by simp [setHttp2, hne]) (by simp)
  | http2 j' e =>
    obtain ⟨old, hold, hstep⟩ := bind_eq_some_iff.mp hstep
    obtain ⟨new, hnew, rfl⟩ := map_eq_some_iff.mp hstep
    by_cases heq : j = j'
    · subst heq
      rw [hget, some.injEq] at hold
      subst hold
      exact ⟨new, by simp [setHttp2], .inr (.inl ⟨e, rfl, hnew⟩)⟩
    · exact hkept (by simp [setHttp2, heq]) (by simp)
  | sweep w' e =>
    cases w' with
    | http3 i =>
      obtain ⟨shard, -, hstep⟩ := bind_eq_some_iff.mp hstep
      obtain ⟨shard', -, rfl⟩ := map_eq_some_iff.mp hstep
      exact hkept rfl (by simp)
    | http2 j' =>
      obtain ⟨old, hold, hstep⟩ := bind_eq_some_iff.mp hstep
      obtain ⟨new, hnew, rfl⟩ := map_eq_some_iff.mp hstep
      by_cases heq : j = j'
      · subst heq
        rw [hget, some.injEq] at hold
        subst hold
        exact ⟨new, by simp [setHttp2], .inr (.inr ⟨e, rfl, hnew⟩)⟩
      · exact hkept (by simp [setHttp2, heq]) (by simp [Ne.symm heq])

lemma step_gone (hgone : s.Gone w) : s'.Gone w := by
  cases w with
  | http3 i => exact hgone
  | http2 j =>
    obtain ⟨conn, hget, hclosed⟩ := hgone
    obtain ⟨conn', hget', hsame | ⟨ev, -, hown⟩ | ⟨ev, -, hown⟩⟩ := step_http2 hstep hget
    · exact ⟨conn', hget', hsame.1 ▸ hclosed⟩
    · exact ⟨conn', hget', Http2Connection.step_of_closed hclosed hown⟩
    · simp [Http2Connection.sweepStep, hclosed] at hown

lemma step_sweepOf (hsweep : s.sweepOf w = some sweep) :
    s'.Gone w ∨ ∃ sweep', s'.sweepOf w = some sweep' ∧
      SweepMove s.roster.generation w e sweep sweep' := by
  cases w with
  | http3 i =>
    obtain ⟨shard, hget, rfl⟩ := sweepOf_http3.mp hsweep
    obtain ⟨shard', hget', hmove⟩ := step_shard hstep hget
    exact .inr ⟨shard'.sweep, sweepOf_http3.mpr ⟨shard', hget', rfl⟩, hmove⟩
  | http2 j =>
    obtain ⟨conn, identity, hget, hstage⟩ := sweepOf_http2.mp hsweep
    obtain ⟨conn', hget', ⟨rfl, hother⟩ | ⟨ev, -, hown⟩ | ⟨ev, rfl, hown⟩⟩ := step_http2 hstep hget
    · exact .inr ⟨sweep, sweepOf_http2.mpr ⟨conn', identity, hget', hstage⟩, .inr ⟨rfl, hother⟩⟩
    · exact .inl ⟨conn', hget', Http2Connection.step_of_serving hstage hown⟩
    · rcases Http2Connection.sweepStep_of_serving hstage hown with
        hclosed | ⟨sweep', hstage', hmove⟩
      · exact .inl ⟨conn', hget', hclosed⟩
      · exact .inr ⟨sweep', sweepOf_http2.mpr ⟨conn', identity, hget', hstage'⟩,
          .inl ⟨ev, rfl, hmove⟩⟩

omit hstep

lemma sweepOf_of_gone (h : s.Gone w) : s.sweepOf w = none := by
  cases w with
  | http3 i => exact h.elim
  | http2 j =>
    obtain ⟨conn, hget, hclosed⟩ := h
    simp [sweepOf, hget, Http2Connection.sweep, hclosed]

def SweepHolds (w : Worker) (P : Sweep → Prop) (s : Server) : Prop :=
  s.Gone w ∨ ∃ sweep, s.sweepOf w = some sweep ∧ P sweep

lemma run_sweep {allowed : ServerEvent → Prop}
    (hmove : ∀ g e sweep sweep', allowed e → SweepMove g w e sweep sweep' → P sweep → P sweep')
    {es : List ServerEvent} (hall : ∀ e ∈ es, allowed e) (hs : SweepHolds w P s)
    (hrun : run (step codec) s es = some s') : SweepHolds w P s' := by
  refine run_invariant (fun t e t' ht he hstep => ?_) hs (meets_of_forall_mem hall) hrun
  rcases ht with hgone | ⟨sweep, hsweep, hP⟩
  · exact .inl (step_gone hstep hgone)
  · rcases step_sweepOf hstep hsweep with hgone | ⟨sweep', hsweep', hm⟩
    · exact .inl hgone
    · exact .inr ⟨sweep', hsweep', hmove _ e sweep sweep' he hm hP⟩

lemma SweepHolds.elim (h : SweepHolds w P s) (hsweep : s.sweepOf w = some sweep) : P sweep := by
  rcases h with hgone | ⟨sweep', hsweep', hP⟩
  · rw [sweepOf_of_gone hgone] at hsweep
    cases hsweep
  · rw [hsweep, some.injEq] at hsweep'
    exact hsweep' ▸ hP

lemma reads_move {g generation : ℕ} {sweep' : Sweep} (he : e ≠ .sweep w .begin)
    (hmove : SweepMove generation w e sweep sweep') (h : Sweep.Reads g sweep) :
    Sweep.Reads g sweep' := by
  obtain ⟨ev, rfl, hstep⟩ | ⟨rfl, -⟩ := hmove
  · cases ev with
    | begin => exact absurd rfl he
    | record =>
      simp only [Sweep.step] at hstep
      split at hstep
      · rename_i g' hread
        rcases h with hphase | ⟨-, hnot⟩
        · rw [hread, SweepPhase.read.injEq] at hphase
          subst hphase
          split_ifs at hstep with hne
          · cases hstep
            exact .inr ⟨rfl, by simp⟩
          · cases hstep
            exact .inr ⟨(not_not.mp hne).symm, by simp⟩
        · exact absurd hread (hnot g')
      · cases hstep
    | enforce =>
      simp only [Sweep.step] at hstep
      split_ifs at hstep with hrecorded
      cases hstep
      rcases h with hphase | ⟨happlied, -⟩
      · rw [hrecorded] at hphase
        cases hphase
      · exact .inr ⟨happlied, by simp⟩
  · exact h

lemma unchecked_move {g generation : ℕ} {sweep' : Sweep}
    (he : e ≠ .sweep w .begin ∧ e ≠ .sweep w .enforce)
    (hmove : SweepMove generation w e sweep sweep') (h : Sweep.Unchecked g sweep) :
    Sweep.Unchecked g sweep' := by
  obtain ⟨ev, rfl, hstep⟩ | ⟨rfl, -⟩ := hmove
  · cases ev with
    | begin => exact absurd rfl he.1
    | record =>
      simp only [Sweep.step] at hstep
      rcases h with ⟨hphase, hne⟩ | hphase
      · rw [hphase] at hstep
        simp only [ne_eq, hne.symm, not_false_eq_true, if_true, some.injEq] at hstep
        exact .inr (by rw [← hstep])
      · simp [hphase] at hstep
    | enforce => exact absurd rfl he.2
  · exact h

/-- The identity of some open client-certificate connection the worker is responsible for. -/
def Live (s : Server) : Worker → ClientIdentity → Prop
  | .http3 i, identity => ∃ shard, s.shards.get i = some shard ∧ shard.Live identity
  | .http2 j, identity => ∃ conn sweep, s.http2.get j = some conn ∧
      conn.stage = .serving (some identity) sweep

/-- With client certificates, no connection is served without an identity. -/
structure Identified (s : Server) : Prop where
  http3 : ∀ i shard, s.shards.get i = some shard → shard.Named
  http2 : ∀ j conn identity sweep, s.http2.get j = some conn → conn.clientCerts = true →
    conn.stage = .serving identity sweep → identity.isSome = true

lemma Guarded.identified (h : s.Guarded) : s.Identified := by
  refine ⟨fun i shard hget => (h.shards i shard hget).2, ?_⟩
  intro j conn identity sweep hget hcerts hstage
  have hsound := h.http2 j conn hget
  rw [Http2Connection.Sound, hstage] at hsound
  exact hsound.1 hcerts

lemma Guarded.authorized (h : s.Guarded) (hsweep : s.sweepOf w = some sweep)
    (hidle : sweep.phase = .idle) {identity : ClientIdentity} (hlive : s.Live w identity) :
    Authorized s.roster sweep.applied identity := by
  have hphase : sweep.phase ≠ .recorded := by simp [hidle]
  cases w with
  | http3 i =>
    obtain ⟨shard, hget, hshard⟩ := hlive
    obtain ⟨shard', hget', rfl⟩ := sweepOf_http3.mp hsweep
    rw [hget, some.injEq] at hget'
    subst hget'
    exact (h.shards i shard hget).1.authorized hphase identity hshard
  | http2 j =>
    obtain ⟨conn, sweep', hget, hstage⟩ := hlive
    obtain ⟨conn', identity', hget', hstage'⟩ := sweepOf_http2.mp hsweep
    rw [hget, some.injEq] at hget'
    subst hget'
    rw [hstage', Http2Stage.serving.injEq] at hstage
    obtain ⟨rfl, rfl⟩ := hstage
    have hsound := h.http2 j conn hget
    rw [Http2Connection.Sound, hstage'] at hsound
    exact (hsound.2 rfl).authorized hphase identity rfl

lemma begin_sweep (hsweep : s.sweepOf w = some sweep)
    (hP : P { sweep with phase := .read s.roster.generation })
    (hstep : s.step codec (.sweep w .begin) = some s') : SweepHolds w P s' := by
  obtain hgone | ⟨sweep', hsweep', ⟨ev, he, hmove⟩ | ⟨-, hother⟩⟩ := step_sweepOf hstep hsweep
  · exact .inl hgone
  · cases he
    simp only [Sweep.step] at hmove
    split_ifs at hmove
    cases hmove
    exact .inr ⟨_, hsweep', hP⟩
  · exact absurd rfl (hother .begin)

section WholeSweep

variable {es : List ServerEvent} {sweep sweep' : Sweep}
  (hrun : run (step codec) s (.sweep w .begin :: es) = some s') (hone : .sweep w .begin ∉ es)
  (hsweep : s.sweepOf w = some sweep) (hsweep' : s'.sweepOf w = some sweep')
  (hidle : sweep'.phase = .idle)
include hrun hone hsweep hsweep' hidle

lemma sweep_applies : sweep'.applied = s.roster.generation := by
  obtain ⟨t, ht, hrest⟩ := bind_eq_some_iff.mp hrun
  have hbegun : SweepHolds w (Sweep.Reads s.roster.generation) t := begin_sweep hsweep (.inl rfl) ht
  have hends := run_sweep (fun g e _ _ he hm => reads_move he hm)
    (fun e he heq => hone (heq ▸ he)) hbegun hrest
  rcases hends.elim hsweep' with hread | ⟨happlied, -⟩
  · rw [hidle] at hread
    cases hread
  · exact happlied

lemma sweep_checks (hnew : sweep.applied ≠ s.roster.generation) : .sweep w .enforce ∈ es := by
  by_contra hnone
  obtain ⟨t, ht, hrest⟩ := bind_eq_some_iff.mp hrun
  have hbegun : SweepHolds w (Sweep.Unchecked s.roster.generation) t :=
    begin_sweep hsweep (.inl ⟨rfl, hnew⟩) ht
  have hends := run_sweep (fun g e _ _ he hm => unchecked_move he hm)
    (fun e he => ⟨fun heq => hone (heq ▸ he), fun heq => hnone (heq ▸ he)⟩) hbegun hrest
  rcases hends.elim hsweep' with ⟨hread, -⟩ | hrecorded
  · rw [hidle] at hread
    cases hread
  · rw [hidle] at hrecorded
    cases hrecorded

end WholeSweep

lemma run_guarded {es : List ServerEvent} (h : s.Guarded) (hrun : run (step codec) s es = some s') :
    s'.Guarded :=
  run_preserves (fun _ _ _ h => step_guarded h) h hrun

/-- Whenever a worker is not in the middle of a sweep, every open client-certificate connection
it is responsible for has an identity that is present and unchanged in some roster at least as
new as the generation the worker applied. A whole sweep that read generation `g` checks the
connections if a replacement up to `g` is not yet applied, and leaves nobody connected whose
entry is missing or different in every roster numbered `g` or later. -/
theorem rosterRevocation_enforced (codec : ClientCodec) (registry : ClientRegistry)
    {es : List ServerEvent} {s : Server} (hrun : run (step codec) (start registry) es = some s) :
    s.Identified ∧
      (∀ w sweep identity, s.sweepOf w = some sweep → sweep.phase = .idle → s.Live w identity →
        Authorized s.roster sweep.applied identity) ∧
      ∀ w es' s' sweep sweep', run (step codec) s (.sweep w .begin :: es') = some s' →
        .sweep w .begin ∉ es' → s.sweepOf w = some sweep → s'.sweepOf w = some sweep' →
        sweep'.phase = .idle →
        (∀ n, sweep.applied < n → n ≤ s.roster.generation → .sweep w .enforce ∈ es') ∧
          ∀ identity, (∀ n registry, s.roster.generation ≤ n →
              s'.roster.versions[n]? = some registry →
              registry.lookupKey identity.key ≠ some identity) →
            ¬s'.Live w identity := by
  have hguarded := run_guarded (start_guarded registry) hrun
  refine ⟨hguarded.identified, ?_, ?_⟩
  · intro w sweep identity hsweep hidle hlive
    exact hguarded.authorized hsweep hidle hlive
  · intro w es' s' sweep sweep' hrun' hone hsweep hsweep' hidle
    refine ⟨fun n hn hle => ?_, fun identity hrevoked hlive => ?_⟩
    · exact sweep_checks hrun' hone hsweep hsweep' hidle (by omega)
    · have hauth := (run_guarded hguarded hrun').authorized hsweep' hidle hlive
      rw [sweep_applies hrun' hone hsweep hsweep' hidle] at hauth
      obtain ⟨n, registry, hn, hversion, hlookup⟩ := hauth
      exact hrevoked n registry hn hversion hlookup

/-! ### A client removed while connected over both transports -/

def laptopCodec :
    ClientCodec := ⟨fun _ => some [1], fun _ => none, fun _ => none, some, fun _ => ""⟩

def laptop : ClientIdentity := ⟨"laptop", [1], none, none⟩

def laptopRoster : ClientRegistry :=
  (ClientRegistry.fromConfig laptopCodec [⟨"laptop", "AQ==", none, none⟩]).toOption.get (by decide)

def laptopConnects : List ServerEvent :=
  [.startShard 0 true, .shard 0 (.accept 7), .shard 0 (.packet 7 ⟨true, false, some [1], true⟩),
    .connect 3 true (some [1]), .http2 3 .identify, .http2 3 .identify, .http2 3 .identify]

def laptopRemoved : Server :=
  (run (step laptopCodec) (start laptopRoster)
    (laptopConnects ++ [.store .empty, .advance])).get (by decide)

def laptopSwept : Server :=
  (run (step laptopCodec) laptopRemoved [.sweep (.http3 0) .begin, .sweep (.http3 0) .record,
    .sweep (.http3 0) .enforce]).get (by decide)

theorem rosterRevocation_removed_laptop :
    laptopRemoved.Live (.http3 0) laptop ∧ laptopRemoved.Live (.http2 3) laptop ∧
      ¬laptopSwept.Live (.http3 0) laptop := by
  refine ⟨⟨_, rfl, rfl, 7, _, rfl, rfl, rfl⟩, ⟨_, _, rfl, rfl⟩, ?_⟩
  have hrun : run (step laptopCodec) (start laptopRoster)
      (laptopConnects ++ [.store .empty, .advance]) = some laptopRemoved := (some_get _).symm
  have hrun' : run (step laptopCodec) laptopRemoved [.sweep (.http3 0) .begin,
      .sweep (.http3 0) .record, .sweep (.http3 0) .enforce] = some laptopSwept :=
    (some_get _).symm
  refine ((rosterRevocation_enforced laptopCodec laptopRoster hrun).2.2 (.http3 0) _ laptopSwept
    ⟨0, .idle⟩ ⟨1, .idle⟩ hrun' (by simp) rfl rfl rfl).2 laptop ?_
  intro n registry hn hversion
  have hlt := (List.getElem?_eq_some_iff.mp hversion).1
  have hlen : laptopSwept.roster.versions.length = 2 := rfl
  have hgen : laptopRemoved.roster.generation = 1 := rfl
  have hone : n = 1 := by omega
  subst hone
  have hempty : registry = .empty := (some.inj hversion).symm
  simp [hempty, ClientRegistry.lookupKey, ClientRegistry.empty]

end Server

end MasqueServer
