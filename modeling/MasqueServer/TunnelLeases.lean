import MasqueServer.ClientIdentity
import MasqueServer.PoolLedger

/-!
# Leasing the addresses of a tunnel

A tunnel leases all its addresses under one lock of the pool: the fixed addresses of a
pinned client, all or none of them, or one dynamic address per family that has one left.
Against a balanced ledger the lease adds exactly the addresses it returns, a refused lease
adds nothing, and releasing the addresses takes exactly them away.
-/
namespace MasqueServer

open List

def leasesOf (owner : Option ClientKey) : List IpAddr → Lease → ℕ
  | [] => 0
  | addr :: rest => leasesOf owner rest + (⟨addr, owner⟩ : Lease).once

lemma leasesOf_apply (owner : Option ClientKey) (addrs : List IpAddr) (l : Lease) :
    leasesOf owner addrs l = if l.owner = owner then addrs.count l.addr else 0 := by
  induction addrs with
  | nil => simp [leasesOf]
  | cons addr rest ih =>
    by_cases h : l = ⟨addr, owner⟩
    · subst h
      simp [leasesOf, ih]
    · have hone : (⟨addr, owner⟩ : Lease).once l = 0 := Lease.once_of_ne h
      simp only [leasesOf, Pi.add_apply, ih, hone, Nat.add_zero]
      split_ifs with ho
      · have hne : addr ≠ l.addr := fun ha => h (by rw [ha, ← ho])
        rw [count_cons_of_ne hne]
      · rfl

lemma leasesOf_append (owner : Option ClientKey) (addrs addrs' : List IpAddr) :
    leasesOf owner (addrs ++ addrs') = leasesOf owner addrs + leasesOf owner addrs' := by
  induction addrs with
  | nil => exact (zero_add _).symm
  | cons first rest ih => rw [cons_append, leasesOf, ih, leasesOf, add_right_comm]

lemma leasesOf_singleton (owner : Option ClientKey) (addr : IpAddr) :
    leasesOf owner [addr] = (⟨addr, owner⟩ : Lease).once := zero_add _

namespace AddressPool

/-- Claim the remaining addresses; the first refusal gives back what was claimed so far. -/
def claimEach (key : ClientKey) :
    List IpAddr → List IpAddr → AddressPool → AddressPool × Except PoolError (List IpAddr)
  | [], claimed, pool => (pool, .ok claimed)
  | addr :: rest, claimed, pool =>
    match pool.claim addr key with
    | .ok pool => claimEach key rest (claimed ++ [addr]) pool
    | .error e => (pool.releaseAll claimed, .error e)

def claimStaticAddresses (pool : AddressPool) (identity : ClientIdentity) :
    AddressPool × Except PoolError (List IpAddr) :=
  pool.claimEach identity.key identity.staticAddresses []

def allocatePoolAddresses (pool : AddressPool) : AddressPool × List IpAddr :=
  let (pool, v4) := pool.allocateV4
  let (pool, v6) := pool.allocateV6
  (pool, (v4.toOption.map IpAddr.v4).toList ++ (v6.toOption.map IpAddr.v6).toList)

/-- The lease both transports take before they answer a CONNECT-IP request: the owner it is
booked under and its addresses, or nothing when the request is refused. -/
def leaseTunnel (pool : AddressPool) (identity : Option ClientIdentity) :
    AddressPool × Option (Option ClientKey × List IpAddr) :=
  match identity.filter (·.hasStaticAddresses) with
  | some identity =>
    match pool.claimStaticAddresses identity with
    | (pool, .ok addrs) =>
      if addrs.isEmpty then (pool, none) else (pool, some (some identity.key, addrs))
    | (pool, .error _) => (pool, none)
  | none =>
    match pool.allocatePoolAddresses with
    | (pool, addrs) => if addrs.isEmpty then (pool, none) else (pool, some (none, addrs))

/-- Nothing but the lease table differs. -/
def OnlyLeases (p q : AddressPool) : Prop := q = { p with allocated := q.allocated }

lemma OnlyLeases.refl (p : AddressPool) : OnlyLeases p p := rfl

lemma OnlyLeases.trans {p q r : AddressPool} (h : OnlyLeases p q) (h' : OnlyLeases q r) :
    OnlyLeases p r := by
  unfold OnlyLeases at *
  rw [h', h]

variable {pool pool' : AddressPool}

lemma claim_onlyLeases {addr : IpAddr} {owner : ClientKey} (h : pool.claim addr owner = .ok pool') :
    OnlyLeases pool pool' := by
  unfold claim at h
  split_ifs at h
  split at h
  · split_ifs at h
    cases h
    rfl
  · cases h
    rfl

lemma release_onlyLeases (addr : IpAddr) : OnlyLeases pool (pool.release addr).1 := by
  unfold release
  split
  · rfl
  · split_ifs <;> rfl

lemma releaseAll_onlyLeases (addrs : List IpAddr) : OnlyLeases pool (pool.releaseAll addrs) := by
  induction addrs generalizing pool with
  | nil => exact .refl pool
  | cons addr rest ih => exact (release_onlyLeases addr).trans ih

theorem claimEach_onlyLeases (key : ClientKey) (addrs claimed : List IpAddr) :
    OnlyLeases pool (pool.claimEach key addrs claimed).1 := by
  induction addrs generalizing pool claimed with
  | nil => exact .refl pool
  | cons addr rest ih =>
    unfold claimEach
    cases hc : pool.claim addr key with
    | error e => exact releaseAll_onlyLeases claimed
    | ok pool' => exact (claim_onlyLeases hc).trans (ih (claimed ++ [addr]))

def claimsOn (pool : AddressPool) (addr : IpAddr) : ℕ :=
  (pool.allocated.get addr).elim 0 (·.claims)

end AddressPool

namespace Balanced

variable {pool : AddressPool} {held : Lease → ℕ}

variable (h : Balanced pool held)
include h

theorem get_eq {pool' : AddressPool} (h' : Balanced pool' held) (addr : IpAddr) :
    pool'.allocated.get addr = pool.allocated.get addr := by
  ext alloc
  rw [h'.get_iff, h.get_iff]

theorem get_of_claims {pool' : AddressPool} {key : ClientKey} {addrs : List IpAddr}
    (h' : Balanced pool' (held + leasesOf (some key) addrs)) (hnodup : addrs.Nodup)
      (addr : IpAddr) :
    pool'.allocated.get addr =
      if addr ∈ addrs then some ⟨pool.claimsOn addr + 1, some key⟩ else
        pool.allocated.get addr := by
  split_ifs with hmem
  · have hmore : (held + leasesOf (some key) addrs) ⟨addr, some key⟩ =
        held ⟨addr, some key⟩ + 1 := by
      rw [Pi.add_apply, leasesOf_apply, if_pos rfl, count_eq_one_of_mem hnodup hmem]
    have hbefore : held ⟨addr, some key⟩ = pool.claimsOn addr := by
      unfold AddressPool.claimsOn
      cases hget : pool.allocated.get addr with
      | none => exact h.held_eq_zero hget (some key)
      | some alloc =>
        have howner : alloc.owner = some key := by
          have hclaims := (h.get_iff addr alloc).mp hget
          have hkey : 0 < (held + leasesOf (some key) addrs) ⟨addr, some key⟩ := by omega
          refine h'.exclusive ?_ hkey
          rw [Pi.add_apply]
          omega
        rw [← howner]
        exact (h.counted addr alloc hget).symm
    rw [h'.get_iff, hmore, hbefore]
    exact ⟨rfl, Nat.succ_pos _⟩
  · ext alloc
    rw [h'.get_iff, h.get_iff, Pi.add_apply, leasesOf_apply, count_eq_zero_of_not_mem hmem,
      ite_self, Nat.add_zero]

omit h in
theorem releaseAll {owner : Option ClientKey} {addrs : List IpAddr}
    (h : Balanced pool (held + leasesOf owner addrs)) : Balanced (pool.releaseAll addrs) held := by
  induction addrs generalizing pool with
  | nil => exact h
  | cons addr rest ih =>
    rw [leasesOf, ← add_assoc] at h
    exact ih h.release.2

omit h in
theorem claimEach (key : ClientKey) (addrs claimed : List IpAddr)
    (h : Balanced pool (held + leasesOf (some key) claimed)) :
    match pool.claimEach key addrs claimed with
    | (pool', .ok all) => all = claimed ++ addrs ∧ Balanced pool' (held + leasesOf (some key) all)
    | (pool', .error _) => Balanced pool' held := by
  induction addrs generalizing pool claimed with
  | nil => exact ⟨(append_nil _).symm, h⟩
  | cons addr rest ih =>
    unfold AddressPool.claimEach
    cases hc : pool.claim addr key with
    | error e => exact h.releaseAll
    | ok pool' =>
      have hg := h.grant (l := ⟨addr, some key⟩) (AddressPool.claim_ok hc).2
      rw [← leasesOf_singleton, add_assoc, ← leasesOf_append] at hg
      have hrest := ih (claimed ++ [addr]) hg
      rwa [append_assoc] at hrest

/-- A refused client leaves every lease and every count as it was; otherwise each of its
addresses has one more claim of its key and no other lease differs. -/
theorem claimStaticAddresses (identity : ClientIdentity) :
    match pool.claimStaticAddresses identity with
    | (pool', .ok addrs) => addrs = identity.staticAddresses ∧ pool.OnlyLeases pool' ∧
        ∀ addr, pool'.allocated.get addr = if addr ∈ identity.staticAddresses then
          some ⟨pool.claimsOn addr + 1, some identity.key⟩ else pool.allocated.get addr
    | (pool', .error _) => pool.OnlyLeases pool' ∧
        ∀ addr, pool'.allocated.get addr = pool.allocated.get addr := by
  have hnone : Balanced pool (held + leasesOf (some identity.key) []) := h
  have hc := hnone.claimEach identity.key identity.staticAddresses []
  have honly := pool.claimEach_onlyLeases identity.key identity.staticAddresses []
  unfold AddressPool.claimStaticAddresses
  generalize pool.claimEach identity.key identity.staticAddresses [] = result at hc honly ⊢
  obtain ⟨pool', _ | addrs⟩ := result
  · exact ⟨honly, h.get_eq hc⟩
  · obtain ⟨rfl, hb⟩ := hc
    rw [nil_append] at hb ⊢
    exact ⟨rfl, honly, h.get_of_claims hb identity.nodup_staticAddresses⟩

lemma allocates {pool' : AddressPool} {answer : Option IpAddr}
    (ha : pool.Allocates pool.Assignable pool' answer) :
    Balanced pool' (held + leasesOf none answer.toList) := by
  cases answer with
  | none =>
    cases ha with
    | exhausted same => exact h.same same
  | some addr =>
    have hg := h.grant (l := ⟨addr, none⟩) ha.grants
    rwa [Option.toList_some, leasesOf_singleton]

theorem allocatePoolAddresses :
    Balanced pool.allocatePoolAddresses.1 (held + leasesOf none pool.allocatePoolAddresses.2) := by
  have h4 := h.allocates pool.allocateV4_allocates
  have h6 := h4.allocates pool.allocateV4.1.allocateV6_allocates
  have hsum : leasesOf none pool.allocatePoolAddresses.2 =
      leasesOf none (pool.allocateV4.2.toOption.map IpAddr.v4).toList +
        leasesOf none (pool.allocateV4.1.allocateV6.2.toOption.map IpAddr.v6).toList := by
    unfold AddressPool.allocatePoolAddresses
    rw [leasesOf_append]
  rw [hsum, ← add_assoc]
  exact h6

theorem leaseTunnel (identity : Option ClientIdentity) : match pool.leaseTunnel identity with
    | (pool', some (owner, addrs)) =>
      addrs ≠ [] ∧ Balanced pool' (held + leasesOf owner addrs)
    | (pool', none) => Balanced pool' held := by
  unfold AddressPool.leaseTunnel
  cases identity.filter (·.hasStaticAddresses) with
  | some identity =>
    have hnone : Balanced pool (held + leasesOf (some identity.key) []) := h
    have hc := hnone.claimEach identity.key identity.staticAddresses []
    dsimp only [AddressPool.claimStaticAddresses]
    generalize pool.claimEach identity.key identity.staticAddresses [] = result at hc ⊢
    obtain ⟨pool', _ | addrs⟩ := result
    · exact hc
    · obtain ⟨-, hb⟩ := hc
      cases addrs with
      | nil => exact hb
      | cons a as => exact ⟨cons_ne_nil _ _, hb⟩
  | none =>
    have ha := h.allocatePoolAddresses
    generalize pool.allocatePoolAddresses = result at ha ⊢
    obtain ⟨pool', addrs⟩ := result
    cases addrs with
    | nil => exact ha
    | cons a as => exact ⟨cons_ne_nil _ _, ha⟩

end Balanced

end MasqueServer
