import MasqueServer.LeaseSafety

/-!
# The return path of overlapping tunnels

Tunnels of one pinned client may overlap. The pool counts their claims, but the routing table keeps
one owner per address, the tunnel that inserted its route last.
-/
namespace MasqueServer

open Option Table

namespace Phase

def isUp : Phase → Bool
  | .http3 .leased | .http3 (.routing _) | .http3 .live => true
  | .http2 .leased | .http2 .registered | .http2 .live => true
  | _ => false

lemma installed_isUp {addrs : List IpAddr} {p : Phase} {a : IpAddr} (h : a ∈ p.installed addrs) :
    p.isUp = true := by
  unfold installed at h
  split at h <;> first | rfl | cases h

lemma next_withdraw {addrs : List IpAddr} {p p' : Phase} {action : TunnelAction}
    (h : p.next addrs action = some (.withdraw, p')) : action = .withdraw := by
  unfold next at h
  split at h <;> first | rfl | simp at h

lemma next_unregister {addrs : List IpAddr} {p p' : Phase} {action : TunnelAction}
    (h : p.next addrs action = some (.unregister, p')) : action = .unregister := by
  unfold next at h
  split at h <;> first | rfl | simp at h

end Phase

def TunnelAction.beginsTeardown (action : TunnelAction) : Prop :=
  action = .withdraw ∨ action = .unregister

instance (action : TunnelAction) : Decidable action.beginsTeardown :=
  inferInstanceAs (Decidable (_ ∨ _))

namespace World

/-- Every address of a fully set-up tunnel has a route, and the route names a tunnel that
leases the address and is not being torn down. -/
def ReturnPath (w : World) : Prop :=
  ∀ T t a, w.tasks.get T = some t → t.phase.isLive = true → a ∈ t.addrs →
    ∃ T' t', w.routes.get a = some T' ∧ w.tasks.get T' = some t' ∧ t'.phase.isUp = true ∧
      a ∈ t'.addrs

/-- No tunnel begins its teardown while it owns the route of an address that another tunnel
has routed too and still serves. -/
def OwnerLeavesLast (w : World) : TunnelEvent → Prop
  | .act T action => action.beginsTeardown → ∀ a, w.routes.get a = some T →
      ∀ T' t', T' ≠ T → w.tasks.get T' = some t' → a ∉ t'.phase.installed t'.addrs
  | _ => True

instance (w : World) : ∀ e, Decidable (w.OwnerLeavesLast e)
  | .act T action => decidable_of_iff
      (action.beginsTeardown → ∀ r ∈ w.routes.entries, r.2 = T → ∀ k ∈ w.tasks.entries,
        k.1 ≠ T → r.1 ∉ k.2.phase.installed k.2.addrs)
      (forall_congr' fun _ =>
        ⟨fun h a hr T' t' hne ht' => h ⟨a, T⟩ (mem_entries.mpr hr) rfl ⟨T', t'⟩
            (mem_entries.mpr ht') hne,
          fun h r hr he k hk hne => h r.1 (he ▸ mem_entries.mp hr) k.1 k.2 hne
            (mem_entries.mp hk)⟩)
  | .lease _ _ _ | .setStaticReservations _ | .lookup _ => isTrue trivial

/-- Each routed address is owned by a tunnel that has routed it and still serves it. -/
def Owned (w : World) : Prop :=
  ∀ T t a, w.tasks.get T = some t → a ∈ t.phase.installed t.addrs →
    ∃ T' t', w.routes.get a = some T' ∧ w.tasks.get T' = some t' ∧ a ∈ t'.phase.installed t'.addrs

variable {w w' : World} {T : TunnelOwner} {t : Task}

lemma Owned.returnPath (h : w.Owned) : w.ReturnPath := by
  intro T t a ht hlive ha
  have hin : a ∈ t.phase.installed t.addrs := by
    obtain he | he := of_decide_eq_true hlive <;> rw [he] <;> exact ha
  obtain ⟨T', t', hr, ht', hin'⟩ := h T t a ht hin
  exact ⟨T', t', hr, ht', Phase.installed_isUp hin', (Phase.installed_holds hin').2⟩

lemma act_owned {action : TunnelAction} (h : w.Owned) (hlast : w.OwnerLeavesLast (.act T action))
    (hstep : w.step (.act T action) = some w') : w'.Owned := by
  obtain ⟨t, effect, phase, ht, hm, hn, rfl⟩ := step_act hstep
  intro T₁ t₁ a ht₁ hin₁
  have hroutes := fun a => afterAction_routes (w := w) (T := T) (t := t) effect phase a
  by_cases hnew : ∃ routed, effect = .route routed ∧ a ∈ routed
  · obtain ⟨routed, rfl, hmem⟩ := hnew
    refine ⟨T, advance t (.route routed) phase, ?_, ?_, hm.route_installed routed rfl hmem⟩
    · rw [hroutes]
      exact if_pos hmem
    · rw [afterAction_tasks, if_pos rfl]
  have hold : ∃ t₀, w.tasks.get T₁ = some t₀ ∧ a ∈ t₀.phase.installed t₀.addrs := by
    rw [afterAction_tasks] at ht₁
    split_ifs at ht₁ with he
    · cases ht₁
      exact ⟨t, he ▸ ht, (hm.installed_of a hin₁).resolve_right hnew⟩
    · exact ⟨t₁, ht₁, hin₁⟩
  obtain ⟨t₀, ht₀, hin₀⟩ := hold
  obtain ⟨T', t', hr, ht', hin'⟩ := h T₁ t₀ a ht₀ hin₀
  have hr' : (w.afterAction T t effect phase).routes.get a = some T' := by
    rw [hroutes]
    cases effect with
    | route routed => exact (if_neg fun hmem => hnew ⟨routed, rfl, hmem⟩).trans hr
    | unroute =>
      dsimp only
      rw [hr, if_neg]
      rintro ⟨-, he⟩
      rw [some.injEq] at he
      subst he
      rw [ht, some.injEq] at ht'
      subst ht'
      rw [hm.unroute_installed rfl] at hin'
      cases hin'
    | _ => exact hr
  by_cases hT' : T' = T
  · subst hT'
    rw [ht, some.injEq] at ht'
    subst ht'
    refine ⟨T', advance t effect phase, hr', by rw [afterAction_tasks, if_pos rfl], ?_⟩
    by_cases hT₁ : T₁ = T'
    · rw [afterAction_tasks, if_pos hT₁, some.injEq] at ht₁
      subst ht₁
      exact hin₁
    · have hstays : ¬action.beginsTeardown :=
        fun hb => hlast hb a hr T₁ t₀ hT₁ ht₀ hin₀
      refine hm.installed_kept ?_ ?_ hin'
      · rintro rfl
        exact hstays (.inl (Phase.next_withdraw hn))
      · rintro rfl
        exact hstays (.inr (Phase.next_unregister hn))
  · exact ⟨T', t', hr', by rw [afterAction_tasks, if_neg hT', ht'], hin'⟩

lemma lease_owned {transport : Transport} {identity : Option ClientIdentity} (h : w.Owned)
    (hstep : w.step (.lease T transport identity) = some w') : w'.Owned := by
  have hrestart : ∀ (pool : AddressPool) (t' : Task), t'.phase.installed t'.addrs = [] →
      w.mayStart T transport = true →
      ({ w with pool, tasks := w.tasks.put T t' } : World).Owned := by
    intro pool t' hnone hs
    have hget : ∀ T' t₀ a, w.tasks.get T' = some t₀ → a ∈ t₀.phase.installed t₀.addrs →
        (w.tasks.put T t').get T' = some t₀ := by
      intro T' t₀ a ht₀ hin
      rw [get_put, if_neg, ht₀]
      rintro rfl
      obtain hn | ⟨t₁, ht₁, hp⟩ := mayStart_cases hs
      · rw [hn] at ht₀
        cases ht₀
      · rw [ht₁, some.injEq] at ht₀
        subst ht₀
        rw [hp] at hin
        cases hin
    intro T₁ t₁ a ht₁ hin₁
    have hold : w.tasks.get T₁ = some t₁ := by
      obtain ⟨-, rfl⟩ | ⟨-, ht₁⟩ := get_put_cases ht₁
      · rw [hnone] at hin₁
        cases hin₁
      · exact ht₁
    obtain ⟨T', t₂, hr, ht₂, hin₂⟩ := h T₁ t₁ a hold hin₁
    exact ⟨T', t₂, hr, hget T' t₂ a ht₂ hin₂, hin₂⟩
  simp only [step] at hstep
  split_ifs at hstep with hs
  generalize w.pool.leaseTunnel identity = result at hstep
  obtain ⟨pool, _ | ⟨key, addrs⟩⟩ := result <;> simp only [some.injEq] at hstep <;>
    subst hstep <;> refine hrestart _ _ ?_ hs <;> cases transport <;> rfl

theorem step_owned {e : TunnelEvent} (h : w.Owned) (hlast : w.OwnerLeavesLast e)
    (hstep : w.step e = some w') : w'.Owned := by
  cases e with
  | lease owner transport identity => exact lease_owned h hstep
  | act owner action => exact act_owned h hlast hstep
  | setStaticReservations reservations =>
    simp only [step] at hstep
    split at hstep <;> cases hstep <;> exact h
  | lookup packet =>
    simp only [step] at hstep
    split at hstep
    · cases hstep
      exact h
    · split at hstep <;> cases hstep <;> exact h

/-- In every run in which no tunnel begins its teardown while it owns the route of an address
another tunnel serves too, every address of a live tunnel stays reachable. -/
theorem returnPath_of_ownerLeavesLast (v4Net : Option (Cidr 32)) (v6Net : Option (Cidr 128))
    (es : List TunnelEvent) (w : World)
    (hlast : Meets OwnerLeavesLast step (start v4Net v6Net) es)
    (hrun : run step (start v4Net v6Net) es = some w) : w.ReturnPath := by
  have hstart : (start v4Net v6Net).Owned := fun _ _ _ h => (nomatch h)
  exact (run_invariant (fun _ _ _ h hl hs => step_owned h hl hs) hstart hlast hrun).returnPath

def pinnedClient : ClientIdentity := ⟨"laptop", [1], some 0x0a000003, none⟩

def openTunnel (T : TunnelOwner) : List TunnelEvent :=
  [.lease T .http3 (some pinnedClient), .act T .respond, .act T .insertRoute, .act T .publish]

def closeTunnel (T : TunnelOwner) : List TunnelEvent :=
  [.act T .withdraw, .act T .release, .act T .unroute]

def overlap (closed : TunnelOwner) : List TunnelEvent :=
  .setStaticReservations [(.v4 0x0a000003, [1])] ::
    (openTunnel ⟨1, 0⟩ ++ openTunnel ⟨2, 0⟩ ++ closeTunnel closed)

def overlapStart : World := start (some Ledger.sampleNet) none

/-- When the older tunnel ends first, the newer one is still found. -/
theorem returnPath_older_first :
    Meets OwnerLeavesLast step overlapStart (overlap ⟨1, 0⟩) ∧
    ∃ w, run step overlapStart (overlap ⟨1, 0⟩) = some w ∧ w.ReturnPath := by
  have hmeets : Meets OwnerLeavesLast step overlapStart (overlap ⟨1, 0⟩) := by decide
  have hsome : (run step overlapStart (overlap ⟨1, 0⟩)).isSome = true := by decide
  refine ⟨hmeets, _, (some_get hsome).symm, ?_⟩
  exact returnPath_of_ownerLeavesLast _ _ _ _ hmeets (some_get hsome).symm

/-- When the newer tunnel ends first, the older one is live and leases its address, and the
address has no route. -/
theorem returnPath_newer_first :
    ∃ w t, run step overlapStart (overlap ⟨2, 0⟩) = some w ∧ w.tasks.get ⟨1, 0⟩ = some t ∧
      t.phase.isLive = true ∧ .v4 0x0a000003 ∈ t.addrs ∧
      w.pool.allocated.get (.v4 0x0a000003) = some ⟨1, some [1]⟩ ∧
      w.routes.get (.v4 0x0a000003) = none ∧ ¬w.ReturnPath := by
  have hsome : (run step overlapStart (overlap ⟨2, 0⟩)).isSome = true := by decide
  refine ⟨_, ⟨some [1], [.v4 0x0a000003], .http3 .live, 1, 0⟩, (some_get hsome).symm, rfl,
    rfl, by decide, rfl, rfl, fun h => ?_⟩
  obtain ⟨T', t', hr, -⟩ := h ⟨1, 0⟩ ⟨some [1], [.v4 0x0a000003], .http3 .live, 1, 0⟩
    (.v4 0x0a000003) rfl rfl (by decide)
  cases hr

end World

end MasqueServer
