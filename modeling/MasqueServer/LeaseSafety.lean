import MasqueServer.LeaseProtocol

/-!
# Safety of the lease and route protocol

One invariant ties the shared structures to the phases of the tasks, and every locked step
of every tunnel keeps it. The pool is balanced against the leases the tasks hold; a route
names a task that leased its address and has not finished its teardown; the two maps hold
exactly the tunnels that are in them by their phase; a dynamic tunnel owns the route of each
address it has routed, because nobody else can hold a lease on it.
-/
namespace MasqueServer

open Option Table

namespace World

/-- What holds between any two locked steps. -/
structure Consistent (w : World) : Prop where
  balanced : Balanced w.pool w.held
  routed : ∀ a T, w.routes.get a = some T →
    ∃ t, w.tasks.get T = some t ∧ a ∈ t.addrs ∧ t.phase.mayRoute = true
  published : ∀ T, w.ipTunnels.contains T = (w.tasks.get T).any (·.phase.isPublished)
  registered : ∀ T, w.http2TunRoutes.contains T = (w.tasks.get T).any (·.phase.isRegistered)
  dynamic_route : ∀ T t a, w.tasks.get T = some t → t.key = none →
    a ∈ t.phase.installed t.addrs → w.routes.get a = some T
  looked_up : ∀ r ∈ w.relays,
    ∃ t, w.tasks.get r.2 = some t ∧ r.1 ∈ t.addrs ∧ t.phase.started = true
  counted : ∀ T t, w.tasks.get T = some t →
    t.leases = t.releases + if t.phase.holdsLease then 1 else 0

theorem start_consistent (v4Net : Option (Cidr 32)) (v6Net : Option (Cidr 128)) :
    (start v4Net v6Net).Consistent := by
  have hfresh := (Ledger.fresh_sound v4Net v6Net).balanced
  exact ⟨hfresh, fun _ _ h => (nomatch h), fun _ => rfl, fun _ => rfl, fun _ _ _ h => (nomatch h),
    fun _ h => (nomatch h), fun _ _ h => (nomatch h)⟩

variable {w w' : World} {T : TunnelOwner} {t t' : Task}

/-! ### What a step does -/

theorem step_act {action : TunnelAction} (h : w.step (.act T action) = some w') :
    ∃ t effect phase, w.tasks.get T = some t ∧ t.phase.Moves t.addrs effect phase ∧
      t.phase.next t.addrs action = some (effect, phase) ∧ w' = w.afterAction T t effect phase := by
  unfold step at h
  cases ht : w.tasks.get T with
  | none => simp [ht] at h
  | some t =>
    cases hn : t.phase.next t.addrs action with
    | none => simp [ht, hn] at h
    | some move =>
      obtain ⟨effect, phase⟩ := move
      simp only [ht, hn, some.injEq] at h
      exact ⟨t, effect, phase, rfl, Phase.next_moves hn, hn, h.symm⟩

section AfterAction

variable (effect : Effect) (phase : Phase)

@[simp] lemma afterAction_tasks (T' : TunnelOwner) :
    (w.afterAction T t effect phase).tasks.get T' =
      if T' = T then some (advance t effect phase) else w.tasks.get T' := get_put _ _ _ _

@[simp] lemma afterAction_relays : (w.afterAction T t effect phase).relays = w.relays := by
  cases effect <;> rfl

lemma afterAction_pool (h : effect ≠ .release) :
    (w.afterAction T t effect phase).pool = w.pool := by
  cases effect <;> first | rfl | exact absurd rfl h

lemma afterAction_routes (a : IpAddr) :
    (w.afterAction T t effect phase).routes.get a =
      match effect with
      | .route routed => if a ∈ routed then some T else w.routes.get a
      | .unroute => if a ∈ t.addrs ∧ w.routes.get a = some T then none else w.routes.get a
      | _ => w.routes.get a := by
  cases effect with
  | route routed => exact RoutingTable.get_insertAll _ _ _ _
  | unroute => exact RoutingTable.get_removeOwned _ _ _ _
  | _ => rfl

end AfterAction

variable {transport : Transport} {a : IpAddr} {T' : TunnelOwner}

lemma mayStart_cases (h : w.mayStart T transport = true) :
    w.tasks.get T = none ∨ ∃ t, w.tasks.get T = some t ∧ t.phase = .http3 .refused := by
  unfold mayStart at h
  cases ht : w.tasks.get T with
  | none => exact .inl rfl
  | some t =>
    rw [ht] at h
    exact .inr ⟨t, rfl, by simpa using (of_decide_eq_true h).2⟩

/-! ### Sums of leases -/

lemma held_put (w : World) (T : TunnelOwner) (t' : Task) (l : Lease) :
    ((w.tasks.put T t').total fun t => t.holding l) +
      ((w.tasks.get T).map fun t => t.holding l).getD 0 = w.held l + t'.holding l :=
  total_put _ _ _ _

lemma holding_le_held (ht : w.tasks.get T = some t) (l : Lease) : t.holding l ≤ w.held l :=
  Table.le_total (f := fun t => t.holding l) ht

lemma holding_pos (hp : t.phase.holdsLease = true) (ha : a ∈ t.addrs) :
    0 < t.holding ⟨a, t.key⟩ := by
  rw [Task.holding_of_holds hp, leasesOf_apply, if_pos rfl]
  exact List.count_pos_iff.mpr ha

theorem dynamic_unique (h : w.Consistent) (ht : w.tasks.get T = some t)
    (ht' : w.tasks.get T' = some t') (hkey : t.key = none) (hp : t.phase.holdsLease = true)
    (hp' : t'.phase.holdsLease = true) (ha : a ∈ t.addrs) (ha' : a ∈ t'.addrs) : T = T' := by
  by_contra hne
  have hpos := holding_pos hp ha
  have hpos' := holding_pos hp' ha'
  have hkeys : t.key = t'.key := h.balanced.exclusive
    (lt_of_lt_of_le hpos (holding_le_held ht _)) (lt_of_lt_of_le hpos' (holding_le_held ht' _))
  rw [← hkeys, hkey] at hpos'
  rw [hkey] at hpos
  have hsum := add_le_total (f := fun t => t.holding ⟨a, none⟩) ht ht' hne
  have hone := h.balanced.dynamic_le_one a
  have hdef : w.held ⟨a, none⟩ = w.tasks.total fun t => t.holding ⟨a, none⟩ := rfl
  omega

/-! ### Every action keeps the invariant -/

section Action

variable {effect : Effect} {phase : Phase}

variable (h : w.Consistent)
include h

variable (ht : w.tasks.get T = some t)
include ht

variable (hm : t.phase.Moves t.addrs effect phase)
include hm

lemma act_balanced :
    Balanced (w.afterAction T t effect phase).pool (w.afterAction T t effect phase).held := by
  have hput : ∀ l, (w.afterAction T t effect phase).held l + t.holding l =
      w.held l + (advance t effect phase).holding l := by
    intro l
    have hl := held_put w T (advance t effect phase) l
    rw [ht] at hl
    exact hl
  by_cases he : effect = .release
  · subst he
    obtain ⟨hbefore, hafter⟩ := hm.release_holds rfl
    have hheld : w.held = (w.afterAction T t .release phase).held + leasesOf t.key t.addrs := by
      funext l
      have hl := hput l
      rw [Task.holding_of_holds hbefore,
        Task.holding_of_not (show (advance t .release phase).phase.holdsLease = false from hafter)]
        at hl
      exact hl.symm
    have hb := h.balanced
    rw [hheld] at hb
    exact hb.releaseAll
  · have hsame : (advance t effect phase).holding = t.holding := by
      simp only [Task.holding, advance, hm.holdsLease_eq he]
    have hheld : (w.afterAction T t effect phase).held = w.held := by
      funext l
      have hl := hput l
      rw [hsame] at hl
      omega
    rw [hheld, afterAction_pool effect phase he]
    exact h.balanced

lemma act_routed (a : IpAddr) (T' : TunnelOwner)
    (hr : (w.afterAction T t effect phase).routes.get a = some T') :
    ∃ t', (w.afterAction T t effect phase).tasks.get T' = some t' ∧ a ∈ t'.addrs ∧
      t'.phase.mayRoute = true := by
  have hkept : w.routes.get a = some T' → (effect = .unroute → T' ≠ T) →
      ∃ t', (w.afterAction T t effect phase).tasks.get T' = some t' ∧ a ∈ t'.addrs ∧
        t'.phase.mayRoute = true := by
    intro hold hne
    obtain ⟨t', ht', ha, hp⟩ := h.routed a T' hold
    rw [afterAction_tasks]
    by_cases he : T' = T
    · subst he
      rw [ht, some.injEq] at ht'
      subst ht'
      exact ⟨_, if_pos rfl, ha, hm.mayRoute_of hp fun hu => hne hu rfl⟩
    · exact ⟨t', by rw [if_neg he, ht'], ha, hp⟩
  rw [afterAction_routes] at hr
  cases effect with
  | route routed =>
    dsimp only at hr
    split_ifs at hr with ha
    · cases hr
      obtain ⟨hsub, -, hmay⟩ := hm.route_holds routed rfl
      exact ⟨advance t (.route routed) phase, by rw [afterAction_tasks, if_pos rfl], hsub ha, hmay⟩
    · exact hkept hr (by simp)
  | unroute =>
    dsimp only at hr
    split_ifs at hr with ha
    refine hkept hr fun _ he => ha ?_
    subst he
    obtain ⟨t', ht', hmem, -⟩ := h.routed a T' hr
    rw [ht, some.injEq] at ht'
    exact ⟨ht' ▸ hmem, hr⟩
  | keep => exact hkept hr (by simp)
  | release => exact hkept hr (by simp)
  | publish => exact hkept hr (by simp)
  | withdraw => exact hkept hr (by simp)
  | register => exact hkept hr (by simp)
  | unregister => exact hkept hr (by simp)

lemma act_listed (T' : TunnelOwner) :
    ((w.afterAction T t effect phase).ipTunnels.contains T' =
      ((w.afterAction T t effect phase).tasks.get T').any (·.phase.isPublished)) ∧
    (w.afterAction T t effect phase).http2TunRoutes.contains T' =
      ((w.afterAction T t effect phase).tasks.get T').any (·.phase.isRegistered) := by
  have hpublished := h.published T'
  have hregistered := h.registered T'
  rw [afterAction_tasks]
  by_cases he : T' = T
  · subst he
    rw [ht, any_some] at hpublished hregistered
    simp only [if_true, any_some, advance, hm.isPublished_eq, hm.isRegistered_eq]
    rw [← hpublished, ← hregistered]
    cases effect <;> simp [afterAction, perform, Table.contains]
  · rw [if_neg he, ← hpublished, ← hregistered]
    cases effect <;> simp [afterAction, perform, Table.contains, he]

lemma act_dynamic_route (T' : TunnelOwner) (t' : Task) (a : IpAddr)
    (ht' : (w.afterAction T t effect phase).tasks.get T' = some t') (hkey : t'.key = none)
    (ha : a ∈ t'.phase.installed t'.addrs) :
    (w.afterAction T t effect phase).routes.get a = some T' := by
  rw [afterAction_tasks] at ht'
  rw [afterAction_routes]
  split_ifs at ht' with he
  · cases ht'
    subst he
    have hkept : a ∈ t.phase.installed t.addrs → w.routes.get a = some T' :=
      fun hin => h.dynamic_route T' t a ht hkey hin
    obtain hin | ⟨routed, rfl, hmem⟩ := hm.installed_of a ha
    · cases effect with
      | route routed => dsimp only; split_ifs <;> simp [hkept hin]
      | unroute => rw [hm.unroute_installed rfl] at hin; cases hin
      | _ => exact hkept hin
    · simp [hmem]
  · have hold := h.dynamic_route T' t' a ht' hkey ha
    cases effect with
    | route routed =>
      dsimp only
      split_ifs with hmem
      · obtain ⟨hsub, hp, -⟩ := hm.route_holds routed rfl
        obtain ⟨hp', ha'⟩ := Phase.installed_holds ha
        exact absurd (dynamic_unique h ht' ht hkey hp' hp ha' (hsub hmem)) he
      · exact hold
    | unroute =>
      dsimp only
      rw [hold, if_neg]
      rintro ⟨-, hT⟩
      exact he (some.inj hT)
    | _ => exact hold

lemma act_looked_up (r : IpAddr × TunnelOwner) (hr : r ∈ w.relays) :
    ∃ t', (w.afterAction T t effect phase).tasks.get r.2 = some t' ∧ r.1 ∈ t'.addrs ∧
      t'.phase.started = true := by
  obtain ⟨t', ht', ha, hs⟩ := h.looked_up r hr
  rw [afterAction_tasks]
  by_cases he : r.2 = T
  · rw [he, ht, some.injEq] at ht'
    subst ht'
    exact ⟨_, if_pos he, ha, hm.started_of hs⟩
  · exact ⟨t', by rw [if_neg he, ht'], ha, hs⟩

lemma act_counted (T' : TunnelOwner) (t' : Task)
    (ht' : (w.afterAction T t effect phase).tasks.get T' = some t') :
    t'.leases = t'.releases + if t'.phase.holdsLease then 1 else 0 := by
  rw [afterAction_tasks] at ht'
  split_ifs at ht' with he
  · cases ht'
    have hold := h.counted T t ht
    by_cases hrel : effect = .release
    · subst hrel
      obtain ⟨hbefore, hafter⟩ := hm.release_holds rfl
      simp only [hbefore, if_true] at hold
      simpa [advance, hafter] using hold
    · have hkeep := hm.holdsLease_eq hrel
      have hsame : (advance t effect phase).releases = t.releases := by
        cases effect <;> first | rfl | exact absurd rfl hrel
      rw [hsame]
      simpa only [advance, hkeep] using hold
  · exact h.counted T' t' ht'

theorem act_consistent : (w.afterAction T t effect phase).Consistent :=
  ⟨act_balanced h ht hm, act_routed h ht hm, fun T' => (act_listed h ht hm T').1,
    fun T' => (act_listed h ht hm T').2, act_dynamic_route h ht hm,
    fun r hr => act_looked_up h ht hm r (by simpa using hr),
    act_counted h ht hm⟩

end Action

/-! ### The other steps -/

variable (h : w.Consistent)
include h

lemma restart_consistent {pool : AddressPool} (hs : w.mayStart T transport = true)
    (hphase : t'.phase = transport.leased ∨ t'.phase = transport.refused)
    (hcount : t'.leases = t'.releases + if t'.phase.holdsLease then 1 else 0)
    (hb : Balanced pool (w.held + t'.holding)) :
    ({ w with pool, tasks := w.tasks.put T t' } : World).Consistent := by
  have hnot : ∀ t, w.tasks.get T = some t → t.phase = .http3 .refused := by
    intro t ht
    obtain hnone | ⟨t₀, ht₀, hp⟩ := mayStart_cases hs
    · rw [hnone] at ht
      cases ht
    · rw [ht₀, some.injEq] at ht
      exact ht ▸ hp
  have hget : ∀ T', (w.tasks.put T t').get T' = if T' = T then some t' else w.tasks.get T' :=
    fun T' => get_put _ _ _ _
  have hother : ∀ T' t, w.tasks.get T' = some t → t.phase ≠ .http3 .refused → T' ≠ T := by
    rintro T' t ht hp rfl
    exact hp (hnot t ht)
  have hpub : t'.phase.isPublished = false ∧ t'.phase.isRegistered = false ∧
      t'.phase.installed t'.addrs = [] := by
    obtain hp | hp := hphase <;> rw [hp] <;> cases transport <;> exact ⟨rfl, rfl, rfl⟩
  refine ⟨?_, ?_, ?_, ?_, ?_, ?_, ?_⟩
  · have hheld : World.held { w with pool, tasks := w.tasks.put T t' } = w.held + t'.holding := by
      funext l
      have hl := held_put w T t' l
      have hzero : ((w.tasks.get T).map fun t => t.holding l).getD 0 = 0 := by
        cases ht : w.tasks.get T with
        | none => rfl
        | some t =>
          have hh : t.holding = 0 := Task.holding_of_not (by rw [hnot t ht]; rfl)
          simp [hh]
      rw [hzero] at hl
      exact hl
    rw [hheld]
    exact hb
  · intro a T' hr
    obtain ⟨t, ht, ha, hp⟩ := h.routed a T' hr
    have hne := hother T' t ht (by rintro he; rw [he] at hp; cases hp)
    exact ⟨t, by rw [hget, if_neg hne, ht], ha, hp⟩
  · intro T'
    rw [hget]
    split_ifs with he
    · rw [h.published T', he]
      cases ht : w.tasks.get T with
      | none => simp [hpub.1]
      | some t =>
        rw [any_some, any_some, hpub.1, hnot t ht]
        rfl
    · exact h.published T'
  · intro T'
    rw [hget]
    split_ifs with he
    · rw [h.registered T', he]
      cases ht : w.tasks.get T with
      | none => simp [hpub.2.1]
      | some t =>
        rw [any_some, any_some, hpub.2.1, hnot t ht]
        rfl
    · exact h.registered T'
  · intro T' t a ht hkey ha
    rw [hget] at ht
    split_ifs at ht with he
    · cases ht
      rw [hpub.2.2] at ha
      cases ha
    · exact h.dynamic_route T' t a ht hkey ha
  · intro r hr
    obtain ⟨t, ht, ha, hp⟩ := h.looked_up r hr
    have hne := hother r.2 t ht (by rintro he; rw [he] at hp; cases hp)
    exact ⟨t, by rw [hget, if_neg hne, ht], ha, hp⟩
  · intro T' t ht
    rw [hget] at ht
    split_ifs at ht with he
    · cases ht
      exact hcount
    · exact h.counted T' t ht

lemma leaseCounts_eq (hs : w.mayStart T transport = true) :
    (w.leaseCounts T).1 = (w.leaseCounts T).2 := by
  unfold leaseCounts
  obtain hnone | ⟨t, ht, hp⟩ := mayStart_cases hs
  · rw [hnone]
    rfl
  · have hc := h.counted T t ht
    rw [hp] at hc
    rw [ht]
    exact hc

theorem lease_consistent {identity : Option ClientIdentity}
    (hstep : w.step (.lease T transport identity) = some w') : w'.Consistent := by
  simp only [step] at hstep
  split_ifs at hstep with hs
  have hcounts := leaseCounts_eq h hs
  have hlease := h.balanced.leaseTunnel identity
  generalize w.pool.leaseTunnel identity = result at hstep hlease
  obtain ⟨pool, _ | ⟨key, addrs⟩⟩ := result
  · simp only [some.injEq] at hstep
    subst hstep
    refine restart_consistent h hs (.inr rfl) ?_ ?_
    · cases transport <;> simpa [Transport.refused, Phase.holdsLease] using hcounts
    · rw [Task.holding_of_not (by cases transport <;> rfl)]
      exact hlease
  · simp only [some.injEq] at hstep
    subst hstep
    refine restart_consistent h hs (.inl rfl) ?_ ?_
    · cases transport <;> simpa [Transport.leased, Phase.holdsLease] using hcounts
    · rw [Task.holding_of_holds (by cases transport <;> rfl)]
      exact hlease.2

lemma Consistent.reserve (next : Table IpAddr ClientKey) :
    Consistent { w with pool := { w.pool with reserved := next } } :=
  ⟨h.balanced.congr rfl rfl rfl, h.routed, h.published, h.registered, h.dynamic_route,
    h.looked_up, h.counted⟩

theorem step_consistent {e : TunnelEvent} (hstep : w.step e = some w') : w'.Consistent := by
  cases e with
  | lease owner transport identity => exact lease_consistent h hstep
  | act owner action =>
    obtain ⟨t, effect, phase, ht, hm, -, rfl⟩ := step_act hstep
    exact act_consistent h ht hm
  | setStaticReservations reservations =>
    cases hr : w.pool.setStaticReservations reservations with
    | error e => simp only [step, hr, some.injEq] at hstep; exact hstep ▸ h
    | ok pool =>
      simp only [step, hr, some.injEq] at hstep
      obtain ⟨next, rfl⟩ := AddressPool.setStaticReservations_ok hr
      subst hstep
      exact h.reserve next
  | lookup packet =>
    simp only [step] at hstep
    split at hstep
    · cases hstep
      exact h
    · split at hstep
      · cases hstep
        exact h
      · rename_i dst _ _ owner hroute
        cases hstep
        refine ⟨h.balanced, h.routed, h.published, h.registered, h.dynamic_route, ?_, h.counted⟩
        intro r hr
        obtain rfl | hr := List.mem_cons.mp hr
        · obtain ⟨t, ht, ha, hp⟩ := h.routed dst owner hroute
          exact ⟨t, ht, ha, Phase.started_of_mayRoute hp⟩
        · exact h.looked_up r hr

/-! ### Consequences -/

omit h in
lemma teardown_routes {action : TunnelAction} (hdown : action.isTeardown = true)
    (hstep : w.step (.act T action) = some w') (hne : T' ≠ T) (hr : w.routes.get a = some T') :
    w'.routes.get a = some T' := by
  obtain ⟨t, effect, phase, -, -, hn, rfl⟩ := step_act hstep
  rw [afterAction_routes]
  cases effect with
  | route routed => exact absurd rfl (Phase.next_teardown hn hdown routed)
  | unroute =>
    dsimp only
    rw [hr, if_neg]
    rintro ⟨-, he⟩
    exact hne (some.inj he)
  | _ => exact hr

lemma relay_live {dst : IpAddr} {T : TunnelOwner} (hr : (dst, T) ∈ w.relays) {ownerShard : Option ℕ}
    {self : ℕ} {known : Bool} (hto : w.relayTunPacket T ownerShard self known = some T') :
    ∃ t, w.tasks.get T' = some t ∧ t.phase.isLive = true ∧ t.phase.holdsLease = true ∧
      dst ∈ t.addrs := by
  obtain ⟨t, ht, ha, hs⟩ := h.looked_up _ hr
  have hpub := h.published T
  have hreg := h.registered T
  rw [ht, any_some] at hpub hreg
  have hlive : t.phase.isPublished = true ∨ t.phase.isRegistered = true →
      t.phase.isLive = true ∧ t.phase.holdsLease = true := by
    intro hin
    generalize t.phase = p at hs hin
    rcases p with (_ | _ | _ | _ | _ | _ | _) | (_ | _ | _ | _ | _ | _ | _) <;>
      simp_all [Phase.isPublished, Phase.isRegistered, Phase.isLive, Phase.holdsLease,
        Phase.started]
  unfold relayTunPacket at hto
  split_ifs at hto with h2 h3 h4
  · cases hto
    obtain ⟨hp, hh⟩ := hlive (.inr (hreg ▸ h2.2))
    exact ⟨t, ht, hp, hh, ha⟩
  · cases hto
    obtain ⟨hp, hh⟩ := hlive (.inl (hpub ▸ h4.2))
    exact ⟨t, ht, hp, hh, ha⟩

omit h

/-- In every state that tunnels of both transports reach by interleaving their locked steps:
the pool counts exactly the leases the tasks hold, each lease taken has been given back once
unless it is still held, a teardown leaves other tunnels' routes alone, no route names a
tunnel whose teardown is complete, a live dynamic tunnel is found under each of its
addresses, and a packet is handed only to a live tunnel that leases its destination. -/
theorem leaseProtocol_safe (v4Net : Option (Cidr 32)) (v6Net : Option (Cidr 128))
    (es : List TunnelEvent) (w : World) (hrun : run step (start v4Net v6Net) es = some w) :
    Balanced w.pool w.held ∧
    (∀ T t, w.tasks.get T = some t →
      t.leases = t.releases + if t.phase.holdsLease then 1 else 0) ∧
    (∀ T t a, w.tasks.get T = some t → t.phase.holdsLease = true → a ∈ t.addrs →
      ∃ alloc, w.pool.allocated.get a = some alloc ∧ alloc.owner = t.key) ∧
    (∀ T action w', action.isTeardown = true → w.step (.act T action) = some w' →
      ∀ a T', T' ≠ T → w.routes.get a = some T' → w'.routes.get a = some T') ∧
    (∀ T t a, w.tasks.get T = some t → t.phase.hasEnded = true → w.routes.get a ≠ some T) ∧
    (∀ T t a, w.tasks.get T = some t → t.key = none → t.phase.isLive = true → a ∈ t.addrs →
      w.routes.get a = some T) ∧
    (∀ dst T ownerShard self known T', (dst, T) ∈ w.relays →
      w.relayTunPacket T ownerShard self known = some T' →
      ∃ t, w.tasks.get T' = some t ∧ t.phase.isLive = true ∧ t.phase.holdsLease = true ∧
        dst ∈ t.addrs) := by
  have h : w.Consistent := run_preserves (fun _ _ _ hs hstep => step_consistent hs hstep)
    (start_consistent v4Net v6Net) hrun
  refine ⟨h.balanced, h.counted, ?_, ?_, ?_, ?_, ?_⟩
  · intro T t a ht hp ha
    exact h.balanced.covered ⟨a, t.key⟩ (lt_of_lt_of_le (holding_pos hp ha) (holding_le_held ht _))
  · intro T action w' hdown hstep a T' hne hr
    exact teardown_routes hdown hstep hne hr
  · intro T t a ht hend hr
    obtain ⟨t', ht', -, hp⟩ := h.routed a T hr
    rw [ht, some.injEq] at ht'
    subst ht'
    obtain he | he := of_decide_eq_true hend <;> rw [he] at hp <;> cases hp
  · intro T t a ht hkey hlive ha
    refine h.dynamic_route T t a ht hkey ?_
    obtain he | he := of_decide_eq_true hlive <;> rw [he] <;> exact ha
  · intro dst T ownerShard self known T' hr hto
    exact relay_live h hr hto

/-- On `10.0.0.0/29`: an HTTP/3 tunnel and an HTTP/2 tunnel come up side by side, a packet for
`10.0.0.2` is looked up, and the HTTP/2 tunnel is torn down. -/
def overlappingTunnels : Option World :=
  run step (start (some Ledger.sampleNet) none)
    [.lease ⟨1, 0⟩ .http3 none, .act ⟨1, 0⟩ .respond, .lease ⟨2, 1⟩ .http2 none,
      .act ⟨1, 0⟩ .insertRoute, .act ⟨2, 1⟩ .register, .act ⟨1, 0⟩ .publish,
      .act ⟨2, 1⟩ .routeAll,
      .lookup [0x45, 0, 0, 20, 0, 0, 0, 0, 64, 17, 0, 0, 192, 0, 2, 1, 10, 0, 0, 2],
      .act ⟨2, 1⟩ .unregister, .act ⟨2, 1⟩ .unroute, .act ⟨2, 1⟩ .release]

def overlappingTunnelsEnd : World := overlappingTunnels.get (by decide)

/-- There, the HTTP/3 tunnel is live, still routed, and is handed the packet. -/
theorem leaseProtocol_safe_overlap :
    overlappingTunnels = some overlappingTunnelsEnd ∧
    overlappingTunnelsEnd.routes.get (.v4 0x0a000002) = some ⟨1, 0⟩ ∧
    overlappingTunnelsEnd.routes.get (.v4 0x0a000003) ≠ some ⟨2, 1⟩ ∧
    ∃ t, overlappingTunnelsEnd.tasks.get ⟨1, 0⟩ = some t ∧ t.phase.isLive = true ∧
      t.phase.holdsLease = true ∧ .v4 0x0a000002 ∈ t.addrs := by
  have hrun : overlappingTunnels = some overlappingTunnelsEnd := (some_get _).symm
  obtain ⟨-, -, -, -, hended, hdynamic, hrelay⟩ := leaseProtocol_safe _ _ _ _ hrun
  obtain ⟨t, ht, hlive, hholds, haddr⟩ :=
    hrelay (.v4 0x0a000002) ⟨1, 0⟩ (some 0) 0 true ⟨1, 0⟩ (by decide) (by decide)
  exact ⟨hrun, hdynamic ⟨1, 0⟩ ⟨none, [.v4 0x0a000002], .http3 .live, 1, 0⟩ _ rfl rfl rfl
    (by decide),
    hended ⟨2, 1⟩ ⟨none, [.v4 0x0a000003], .http2 .ended, 1, 1⟩ _ rfl rfl, t, ht, hlive, hholds,
    haddr⟩

end World

end MasqueServer
