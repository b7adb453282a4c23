import MasqueServer.AddressPool
import MasqueServer.Runs
import Mathlib.Algebra.Group.Pi.Basic
import Mathlib.Data.Multiset.Count

/-!
# The lease ledger of the address pool

A ledger counts, for every address and owner, how many leases are outstanding. The pool is balanced
against a ledger when its lease table shows exactly these counts.
-/
namespace MasqueServer

open Option

/-- One claim on an address, for a pinned key or for a dynamic tunnel. -/
structure Lease where
  addr : IpAddr
  owner : Option ClientKey
  deriving DecidableEq

def Lease.once (l : Lease) : Lease → ℕ := Pi.single l 1

@[simp] lemma Lease.once_self (l : Lease) : l.once l = 1 := Pi.single_eq_same l 1

@[simp] lemma Lease.once_of_ne {l l' : Lease} (h : l' ≠ l) : l.once l' = 0 := Pi.single_eq_of_ne h 1

/-- The lease table shows exactly the outstanding leases. -/
structure Balanced (pool : AddressPool) (held : Lease → ℕ) : Prop where
  counted : ∀ a alloc, pool.allocated.get a = some alloc → alloc.claims = held ⟨a, alloc.owner⟩
  claimed : ∀ a alloc, pool.allocated.get a = some alloc → 1 ≤ alloc.claims
  single : ∀ a alloc, pool.allocated.get a = some alloc → alloc.owner = none → alloc.claims = 1
  covered : ∀ l : Lease, 0 < held l →
    ∃ alloc, pool.allocated.get l.addr = some alloc ∧ alloc.owner = l.owner
  placed : ∀ a alloc, pool.allocated.get a = some alloc →
    pool.inRange a = true ∧ pool.isGateway a = false

namespace Balanced

variable {pool pool' : AddressPool} {held : Lease → ℕ}

variable (h : Balanced pool held)
include h

theorem exclusive {a : IpAddr} {o o' : Option ClientKey} (ho : 0 < held ⟨a, o⟩)
    (ho' : 0 < held ⟨a, o'⟩) : o = o' := by
  obtain ⟨alloc, hget, rfl⟩ := h.covered _ ho
  obtain ⟨alloc', hget', rfl⟩ := h.covered _ ho'
  rw [hget, some.injEq] at hget'
  rw [hget']

theorem get_iff (a : IpAddr) (alloc : Allocation) :
    pool.allocated.get a = some alloc ↔ alloc.claims = held ⟨a, alloc.owner⟩ ∧
      0 < alloc.claims := by
  refine ⟨fun hget => ⟨h.counted a alloc hget, h.claimed a alloc hget⟩, ?_⟩
  rintro ⟨hcount, hpos⟩
  obtain ⟨alloc', hget, howner⟩ := h.covered ⟨a, alloc.owner⟩ (hcount ▸ hpos)
  have hclaims := h.counted a alloc' hget
  rw [howner, ← hcount] at hclaims
  obtain ⟨claims, owner⟩ := alloc
  obtain ⟨claims', owner'⟩ := alloc'
  rw [hget, some.injEq, Allocation.mk.injEq]
  exact ⟨hclaims, howner⟩

theorem dynamic_le_one (a : IpAddr) : held ⟨a, none⟩ ≤ 1 := by
  by_cases hz : 0 < held ⟨a, none⟩
  · obtain ⟨alloc, hget, ho⟩ := h.covered _ hz
    have hcount := h.counted a alloc hget
    rw [ho, h.single a alloc hget ho] at hcount
    exact hcount.ge
  · omega

lemma held_eq_zero {a : IpAddr} (hget : pool.allocated.get a = none) (o : Option ClientKey) :
    held ⟨a, o⟩ = 0 := by
  by_contra hne
  obtain ⟨alloc, hsome, _⟩ := h.covered ⟨a, o⟩ (Nat.pos_of_ne_zero hne)
  rw [hget] at hsome
  cases hsome

theorem congr (h4 : pool'.v4Net = pool.v4Net) (h6 : pool'.v6Net = pool.v6Net)
    (ha : pool'.allocated = pool.allocated) : Balanced pool' held := by
  have hrange : ∀ a, pool'.inRange a = pool.inRange a := by
    intro a
    cases a <;> simp only [AddressPool.inRange, h4, h6]
  have hgate : ∀ a, pool'.isGateway a = pool.isGateway a := by
    intro a
    cases a <;> simp only [AddressPool.isGateway, h4, h6]
  refine ⟨?_, ?_, ?_, ?_, ?_⟩
  · rw [ha]
    exact h.counted
  · rw [ha]
    exact h.claimed
  · rw [ha]
    exact h.single
  · rw [ha]
    exact h.covered
  · intro a alloc hget
    rw [ha] at hget
    rw [hrange, hgate]
    exact h.placed a alloc hget

theorem same (hs : pool.SameLeases pool') : Balanced pool' held :=
  h.congr hs.v4Net_eq hs.v6Net_eq hs.allocated_eq

theorem setLease {addr : IpAddr} {alloc : Allocation} {held' : Lease → ℕ}
    (hother : ∀ l : Lease, l.addr ≠ addr → held' l = held l)
    (hcount : alloc.claims = held' ⟨addr, alloc.owner⟩)
    (hzero : ∀ o, o ≠ alloc.owner → held' ⟨addr, o⟩ = 0) (hpos : 1 ≤ alloc.claims)
    (hsingle : alloc.owner = none → alloc.claims = 1)
    (hplaced : pool.inRange addr = true ∧ pool.isGateway addr = false) :
    Balanced (pool.setLease addr alloc) held' := by
  have hget : ∀ a, (pool.setLease addr alloc).allocated.get a =
      if a = addr then some alloc else pool.allocated.get a := fun a => Table.get_put _ _ a _
  refine ⟨?_, ?_, ?_, ?_, ?_⟩
  · intro a x hx
    rw [hget] at hx
    split_ifs at hx with ha
    · cases hx
      rw [ha, hcount]
    · rw [hother ⟨a, x.owner⟩ ha]
      exact h.counted a x hx
  · intro a x hx
    rw [hget] at hx
    split_ifs at hx with ha
    · cases hx
      exact hpos
    · exact h.claimed a x hx
  · intro a x hx
    rw [hget] at hx
    split_ifs at hx with ha
    · cases hx
      exact hsingle
    · exact h.single a x hx
  · rintro ⟨a, o⟩ hl
    rw [hget]
    by_cases ha : a = addr
    · refine ⟨alloc, if_pos ha, ?_⟩
      by_contra ho
      rw [ha, hzero o (Ne.symm ho)] at hl
      omega
    · rw [hother ⟨a, o⟩ ha] at hl
      rw [if_neg ha]
      exact h.covered ⟨a, o⟩ hl
  · intro a x hx
    rw [hget] at hx
    split_ifs at hx with ha
    · rw [ha]
      exact hplaced
    · exact h.placed a x hx

theorem grant {l : Lease} (hg : pool.Grants pool' l.addr l.owner) :
    Balanced pool' (held + l.once) := by
  have hother : ∀ l' : Lease, l'.addr ≠ l.addr → (held + l.once) l' = held l' := by
    intro l' hl'
    have hne : l' ≠ l := fun he => hl' (congrArg Lease.addr he)
    simp [hne]
  have hself : (held + l.once) ⟨l.addr, l.owner⟩ = held l + 1 := by simp
  have hzero : (∀ o, o ≠ l.owner → held ⟨l.addr, o⟩ = 0) → ∀ o, o ≠ l.owner →
      (held + l.once) ⟨l.addr, o⟩ = 0 := by
    intro hz o ho
    have hne : (⟨l.addr, o⟩ : Lease) ≠ l := fun he => ho (congrArg Lease.owner he)
    simp [hne, hz o ho]
  obtain ⟨hnone, hs⟩ | ⟨claims, howner, hsome, hs⟩ := hg.lease
  · refine (h.setLease hother ?_ (hzero fun o _ => h.held_eq_zero hnone o) le_rfl (fun _ => rfl)
      ⟨hg.inRange, hg.not_gateway⟩).same hs
    have hl : held l = 0 := h.held_eq_zero hnone l.owner
    rw [hself, hl]
  · have hcount : claims = held l := h.counted _ _ hsome
    refine (h.setLease hother ?_ (hzero fun o ho => ?_) (Nat.le_add_left 1 claims)
      (fun hn => absurd hn howner) ⟨hg.inRange, hg.not_gateway⟩).same hs
    · rw [hself, hcount]
    · by_contra hne
      have hpos : 1 ≤ claims := h.claimed _ _ hsome
      have hl : 0 < held ⟨l.addr, l.owner⟩ := by
        rw [hcount] at hpos
        exact hpos
      exact ho (h.exclusive (Nat.pos_of_ne_zero hne) hl)

theorem removeLease {addr : IpAddr} {held' : Lease → ℕ}
    (hother : ∀ l : Lease, l.addr ≠ addr → held' l = held l) (hzero : ∀ o, held' ⟨addr, o⟩ = 0) :
    Balanced { pool with allocated := pool.allocated.remove addr } held' := by
  have hkept : ∀ a x, (pool.allocated.remove addr).get a = some x →
      a ≠ addr ∧ pool.allocated.get a = some x := by
    intro a x hx
    rw [Table.get_remove] at hx
    split_ifs at hx with ha
    exact ⟨ha, hx⟩
  refine ⟨?_, ?_, ?_, ?_, ?_⟩
  · intro a x hx
    obtain ⟨ha, hx⟩ := hkept a x hx
    rw [hother ⟨a, x.owner⟩ ha]
    exact h.counted a x hx
  · exact fun a x hx => h.claimed a x (hkept a x hx).2
  · exact fun a x hx => h.single a x (hkept a x hx).2
  · intro l hl
    by_cases ha : l.addr = addr
    · have hz : held' l = 0 := by
        have hz := hzero l.owner
        rwa [← ha] at hz
      omega
    · obtain ⟨x, hx, ho⟩ := h.covered l (by rwa [hother l ha] at hl)
      exact ⟨x, by rw [Table.get_remove, if_neg ha, hx], ho⟩
  · exact fun a x hx => h.placed a x (hkept a x hx).2

omit h

theorem release {l : Lease} (h : Balanced pool (held + l.once)) :
    (pool.release l.addr).2 = true ∧ Balanced (pool.release l.addr).1 held := by
  have hself : (held + l.once) l = held l + 1 := by simp
  have hother : ∀ l' : Lease, l'.addr ≠ l.addr → held l' = (held + l.once) l' := by
    intro l' hl'
    have hne : l' ≠ l := fun he => hl' (congrArg Lease.addr he)
    simp [hne]
  have hzero : ∀ o, o ≠ l.owner → held ⟨l.addr, o⟩ = 0 := by
    intro o ho
    by_contra hne
    have hl' : (0 : ℕ) < (held + l.once) ⟨l.addr, o⟩ := Nat.lt_of_lt_of_le
      (Nat.pos_of_ne_zero hne) (Nat.le_add_right _ _)
    exact ho (h.exclusive hl' (hself ▸ Nat.succ_pos _))
  obtain ⟨⟨claims, owner⟩, hget, howner⟩ := h.covered l (hself ▸ Nat.succ_pos _)
  dsimp only at howner
  subst howner
  have hcount : claims = held l + 1 := hself ▸ h.counted _ _ hget
  unfold AddressPool.release
  rw [hget]
  dsimp only
  split_ifs with hmany
  · refine ⟨rfl, h.setLease hother ?_ hzero (by dsimp only; omega) ?_ (h.placed _ _ hget)⟩
    · exact (Nat.sub_eq_of_eq_add hcount : claims - 1 = held l)
    · intro hn
      have hone := h.single _ _ hget hn
      dsimp only at hone ⊢
      omega
  · refine ⟨rfl, h.removeLease hother fun o => ?_⟩
    by_cases ho : o = l.owner
    · have hl : held l = 0 := by omega
      rw [ho]
      exact hl
    · exact hzero o ho

end Balanced

/-! ### Histories of pool operations -/

/-- The pool with the leases it granted and those given back so far. -/
structure Ledger where
  pool : AddressPool
  granted : Multiset Lease
  released : Multiset Lease

inductive PoolEvent
  | reserveStatic (addr : IpAddr) (owner : ClientKey)
  | setStaticReservations (reservations : List (IpAddr × ClientKey))
  | claim (addr : IpAddr) (owner : ClientKey)
  | allocateV4
  | allocateV6
  | release (lease : Lease)

namespace Ledger

def outstanding (s : Ledger) (l : Lease) : ℕ := s.granted.count l - s.released.count l

def fresh (v4Net : Option (Cidr 32)) (v6Net : Option (Cidr 128)) : Ledger :=
  ⟨.fresh v4Net v6Net, 0, 0⟩

def step (s : Ledger) : PoolEvent → Option Ledger
  | .reserveStatic addr owner =>
    match s.pool.reserveStatic addr owner with
    | .ok pool => some { s with pool }
    | .error _ => some s
  | .setStaticReservations reservations =>
    match s.pool.setStaticReservations reservations with
    | .ok pool => some { s with pool }
    | .error _ => some s
  | .claim addr owner =>
    match s.pool.claim addr owner with
    | .ok pool => some { s with pool, granted := ⟨addr, some owner⟩ ::ₘ s.granted }
    | .error _ => some s
  | .allocateV4 =>
    match s.pool.allocateV4 with
    | (pool, .ok addr) => some { s with pool, granted := ⟨.v4 addr, none⟩ ::ₘ s.granted }
    | (pool, .error _) => some { s with pool }
  | .allocateV6 =>
    match s.pool.allocateV6 with
    | (pool, .ok addr) => some { s with pool, granted := ⟨.v6 addr, none⟩ ::ₘ s.granted }
    | (pool, .error _) => some { s with pool }
  | .release lease =>
    if s.released.count lease < s.granted.count lease then
      some { s with pool := (s.pool.release lease.addr).1, released := lease ::ₘ s.released }
    else none

/-- The pool is balanced against the outstanding leases, and none was given back twice. -/
structure Sound (s : Ledger) : Prop where
  balanced : Balanced s.pool s.outstanding
  released_le : ∀ l, s.released.count l ≤ s.granted.count l

theorem fresh_sound (v4Net : Option (Cidr 32)) (v6Net : Option (Cidr 128)) :
    (fresh v4Net v6Net).Sound :=
  ⟨⟨fun _ _ h => (nomatch h), fun _ _ h => (nomatch h), fun _ _ h => (nomatch h),
    fun _ h => absurd h (by simp [outstanding, fresh]), fun _ _ h => (nomatch h)⟩,
    fun _ => le_rfl⟩

variable {s s' : Ledger}

lemma Sound.congr (h : s.Sound) {pool : AddressPool} (h4 : pool.v4Net = s.pool.v4Net)
    (h6 : pool.v6Net = s.pool.v6Net) (ha : pool.allocated = s.pool.allocated) :
    Sound { s with pool } :=
  ⟨h.balanced.congr h4 h6 ha, h.released_le⟩

lemma Sound.grant (h : s.Sound) {pool : AddressPool} {l : Lease}
    (hg : s.pool.Grants pool l.addr l.owner) :
    Sound { s with pool, granted := l ::ₘ s.granted } := by
  have hle := h.released_le
  refine ⟨?_, fun l' => (hle l').trans (Multiset.count_le_count_cons l' l s.granted)⟩
  have hout : Ledger.outstanding { s with pool, granted := l ::ₘ s.granted } =
      s.outstanding + l.once := by
    funext l'
    have hl := hle l
    by_cases he : l' = l
    · subst he
      simp only [outstanding, Pi.add_apply, Lease.once_self, Multiset.count_cons_self]
      omega
    · simp [outstanding, he]
  rw [hout]
  exact h.balanced.grant hg

lemma Sound.release (h : s.Sound) {l : Lease} (hl : s.released.count l < s.granted.count l) :
    Sound { s with pool := (s.pool.release l.addr).1, released := l ::ₘ s.released } := by
  have hout : s.outstanding = Ledger.outstanding
      { s with pool := (s.pool.release l.addr).1, released := l ::ₘ s.released } +
        l.once := by
    funext l'
    by_cases he : l' = l
    · subst he
      simp only [outstanding, Pi.add_apply, Lease.once_self, Multiset.count_cons_self]
      omega
    · simp [outstanding, he]
  refine ⟨?_, fun l' => ?_⟩
  · have hb := h.balanced
    rw [hout] at hb
    exact hb.release.2
  · have hle := h.released_le l'
    by_cases he : l' = l
    · subst he
      simp only [Multiset.count_cons_self]
      omega
    · simpa only [Multiset.count_cons_of_ne he] using hle

theorem step_sound (h : s.Sound) {e : PoolEvent} (hstep : s.step e = some s') : s'.Sound := by
  cases e with
  | reserveStatic addr owner =>
    cases hr : s.pool.reserveStatic addr owner with
    | error e => simp only [step, hr, some.injEq] at hstep; exact hstep ▸ h
    | ok pool =>
      simp only [step, hr, some.injEq] at hstep
      rw [← hstep, AddressPool.reserveStatic_ok hr]
      exact h.congr rfl rfl rfl
  | setStaticReservations reservations =>
    cases hr : s.pool.setStaticReservations reservations with
    | error e => simp only [step, hr, some.injEq] at hstep; exact hstep ▸ h
    | ok pool =>
      simp only [step, hr, some.injEq] at hstep
      obtain ⟨next, rfl⟩ := AddressPool.setStaticReservations_ok hr
      rw [← hstep]
      exact h.congr rfl rfl rfl
  | claim addr owner =>
    cases hc : s.pool.claim addr owner with
    | error e => simp only [step, hc, some.injEq] at hstep; exact hstep ▸ h
    | ok pool =>
      simp only [step, hc, some.injEq] at hstep
      rw [← hstep]
      exact h.grant (l := ⟨addr, some owner⟩) (AddressPool.claim_ok hc).2
  | allocateV4 =>
    have ha := s.pool.allocateV4_allocates
    rcases hp : s.pool.allocateV4 with ⟨pool, answer⟩
    rw [hp] at ha
    cases answer with
    | error e =>
      simp only [step, hp, some.injEq] at hstep
      cases ha with
      | exhausted same => exact hstep ▸ h.congr same.v4Net_eq same.v6Net_eq same.allocated_eq
    | ok addr =>
      simp only [step, hp, some.injEq] at hstep
      exact hstep ▸ h.grant (l := ⟨.v4 addr, none⟩) ha.grants
  | allocateV6 =>
    have ha := s.pool.allocateV6_allocates
    rcases hp : s.pool.allocateV6 with ⟨pool, answer⟩
    rw [hp] at ha
    cases answer with
    | error e =>
      simp only [step, hp, some.injEq] at hstep
      cases ha with
      | exhausted same => exact hstep ▸ h.congr same.v4Net_eq same.v6Net_eq same.allocated_eq
    | ok addr =>
      simp only [step, hp, some.injEq] at hstep
      exact hstep ▸ h.grant (l := ⟨.v6 addr, none⟩) ha.grants
  | release l =>
    simp only [step] at hstep
    split_ifs at hstep with hl
    cases hstep
    exact h.release hl

/-- Over every history of operations, leases stay inside the prefix and off the gateway, the
claims of a lease are its grants minus its releases, a dynamic lease is claimed once, no two
owners hold one address, and a dynamic allocation hands out an unused client address. -/
theorem addressPool_safe :
    (∀ v4Net v6Net, (fresh v4Net v6Net).Sound) ∧
    ∀ (s₀ s : Ledger) (es : List PoolEvent), s₀.Sound → run step s₀ es = some s →
      (∀ a alloc, s.pool.allocated.get a = some alloc →
        s.pool.inRange a = true ∧ s.pool.isGateway a = false ∧ 1 ≤ alloc.claims ∧
        alloc.claims = s.granted.count ⟨a, alloc.owner⟩ - s.released.count ⟨a, alloc.owner⟩ ∧
        (alloc.owner = none → alloc.claims = 1)) ∧
      (∀ l, s.released.count l < s.granted.count l →
        ∃ alloc, s.pool.allocated.get l.addr = some alloc ∧ alloc.owner = l.owner) ∧
      (∀ a o o', 0 < s.outstanding ⟨a, o⟩ → 0 < s.outstanding ⟨a, o'⟩ → o = o') ∧
      (∀ a, s.outstanding ⟨a, none⟩ ≤ 1) ∧
      (∀ pool a, s.pool.allocateV4 = (pool, .ok a) →
        s.pool.allocated.get (.v4 a) = none ∧ s.pool.reserved.get (.v4 a) = none ∧
        ∃ net, s.pool.v4Net = some net ∧ net.contains a = true ∧ a ≠ net.network ∧
          a ≠ net.network ||| 1 ∧ a ≠ net.broadcast) ∧
      (∀ pool a, s.pool.allocateV6 = (pool, .ok a) →
        s.pool.allocated.get (.v6 a) = none ∧ s.pool.reserved.get (.v6 a) = none ∧
        ∃ net, s.pool.v6Net = some net ∧ net.contains a = true ∧ a ≠ net.network ∧
          a ≠ net.network ||| 1) := by
  refine ⟨fresh_sound, fun s₀ s es h₀ hrun => ?_⟩
  have hs : s.Sound := run_preserves (fun _ _ _ h hstep => step_sound h hstep) h₀ hrun
  have hb := hs.balanced
  refine ⟨fun a alloc hget => ?_, fun l hl => ?_, fun a o o' => hb.exclusive, hb.dynamic_le_one,
    fun pool a ha => ?_, fun pool a ha => ?_⟩
  · obtain ⟨hrange, hgate⟩ := hb.placed a alloc hget
    exact ⟨hrange, hgate, hb.claimed a alloc hget, hb.counted a alloc hget,
      hb.single a alloc hget⟩
  · exact hb.covered l (Nat.sub_pos_of_lt hl)
  · have halloc := s.pool.allocateV4_allocates
    rw [ha] at halloc
    cases halloc with
    | leased free usable same =>
      obtain ⟨hleased, hreserved⟩ := (AddressPool.isFree_iff _).mp free
      exact ⟨hleased, hreserved, usable⟩
  · have halloc := s.pool.allocateV6_allocates
    rw [ha] at halloc
    cases halloc with
    | leased free usable same =>
      obtain ⟨hleased, hreserved⟩ := (AddressPool.isFree_iff _).mp free
      exact ⟨hleased, hreserved, usable⟩

def sampleNet : Cidr 32 := ⟨0x0a000000, 29, by decide⟩

/-- On `10.0.0.0/29`: `.3` is pinned and claimed twice, the reservation is dropped, a dynamic
tunnel gets `.2`, and one claim on `.3` is given back. -/
def overlapRun : Option Ledger :=
  run step (fresh (some sampleNet) none)
    [.reserveStatic (.v4 0x0a000003) [1], .claim (.v4 0x0a000003) [1],
      .claim (.v4 0x0a000003) [1], .setStaticReservations [], .allocateV4,
      .release ⟨.v4 0x0a000003, some [1]⟩]

def overlapEnd : Ledger := overlapRun.get (by decide)

/-- After the overlapping run, the pinned lease still counts a claim of its key. -/
theorem addressPool_safe_overlap :
    overlapRun = some overlapEnd ∧ overlapEnd.outstanding ⟨.v4 0x0a000002, none⟩ = 1 ∧
      ∃ alloc, overlapEnd.pool.allocated.get (.v4 0x0a000003) = some alloc ∧
        alloc.owner = some [1] ∧ 1 ≤ alloc.claims := by
  have hrun : overlapRun = some overlapEnd := (some_get _).symm
  have h := addressPool_safe.2 _ _ _ (addressPool_safe.1 _ _) hrun
  obtain ⟨alloc, hget, ho⟩ := h.2.1 ⟨.v4 0x0a000003, some [1]⟩ (by decide)
  exact ⟨hrun, by decide, alloc, hget, ho, (h.1 _ _ hget).2.2.1⟩

end Ledger

end MasqueServer
