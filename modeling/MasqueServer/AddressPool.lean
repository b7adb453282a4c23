import MasqueServer.FiniteTable
import MasqueServer.IpAddress
import MasqueServer.Octets

/-!
# The address pool

Tunnels lease host addresses from one IPv4 and one IPv6 prefix. Pinned addresses are reserved for a
client key and may be leased several times by that key, so a lease counts its claims; a dynamic
lease has no owner.
-/
namespace MasqueServer

/-- A client's public key. -/
abbrev ClientKey := Bytes

inductive PoolError
  | exhausted
  | outOfRange (addr : IpAddr)
  | alreadyAllocated (addr : IpAddr)
  | notReserved (addr : IpAddr)
  | invalidCidr (text : String)
  deriving DecidableEq

/-- One live lease; a dynamic lease has no owner. -/
structure Allocation where
  claims : ℕ
  owner : Option ClientKey
  deriving DecidableEq

namespace Allocation

def dynamic : Allocation := ⟨1, none⟩

def pinned (owner : ClientKey) : Allocation := ⟨1, some owner⟩

end Allocation

structure AddressPool where
  v4Net : Option (Cidr 32)
  v6Net : Option (Cidr 128)
  allocated : Table IpAddr Allocation
  reserved : Table IpAddr ClientKey
  v4Next : ℕ
  v6Next : ℕ
  v4Next_ge : 2 ≤ v4Next
  v6Next_ge : 2 ≤ v6Next

namespace AddressPool

def fresh (v4Net : Option (Cidr 32)) (v6Net : Option (Cidr 128)) : AddressPool :=
  ⟨v4Net, v6Net, ∅, ∅, 2, 2, le_rfl, le_rfl⟩

def new (parseV4 : String → Option (Cidr 32)) (parseV6 : String → Option (Cidr 128))
    (v4Cidr v6Cidr : String) : Except PoolError AddressPool := do
  let v4Net ← if v4Cidr.isEmpty then .ok none
    else match parseV4 v4Cidr with
      | some net => .ok (some net)
      | none => .error (.invalidCidr v4Cidr)
  let v6Net ← if v6Cidr.isEmpty then .ok none
    else match parseV6 v6Cidr with
      | some net => .ok (some net)
      | none => .error (.invalidCidr v6Cidr)
  return fresh v4Net v6Net

variable (pool : AddressPool)

def inRange : IpAddr → Bool
  | .v4 a => pool.v4Net.any (·.contains a)
  | .v6 a => pool.v6Net.any (·.contains a)

/-- The network-plus-one address belongs to the server's own device. -/
def isGateway : IpAddr → Bool
  | .v4 a => pool.v4Net.any fun net => net.network ||| 1 == a
  | .v6 a => pool.v6Net.any fun net => net.network ||| 1 == a

def reserveStatic (addr : IpAddr) (owner : ClientKey) : Except PoolError AddressPool :=
  if !pool.inRange addr then .error (.outOfRange addr)
  else if pool.isGateway addr then .error (.alreadyAllocated addr)
  else if pool.reserved.contains addr then .error (.alreadyAllocated addr)
  else .ok { pool with reserved := pool.reserved.put addr owner }

def collectReservations :
    List (IpAddr × ClientKey) → Table IpAddr ClientKey → Except PoolError (Table IpAddr ClientKey)
  | [], next => .ok next
  | (addr, owner) :: rest, next =>
    if !pool.inRange addr then .error (.outOfRange addr)
    else if pool.isGateway addr then .error (.alreadyAllocated addr)
    else if next.contains addr then .error (.alreadyAllocated addr)
    else collectReservations rest (next.put addr owner)

def setStaticReservations (reservations : List (IpAddr × ClientKey)) :
    Except PoolError AddressPool := do
  let next ← pool.collectReservations reservations ∅
  return { pool with reserved := next }

def claim (addr : IpAddr) (owner : ClientKey) : Except PoolError AddressPool :=
  if !pool.inRange addr then .error (.outOfRange addr)
  else if pool.isGateway addr then .error (.alreadyAllocated addr)
  else if pool.reserved.get addr ≠ some owner then .error (.notReserved addr)
  else match pool.allocated.get addr with
    | some allocation =>
      if allocation.owner ≠ some owner then .error (.alreadyAllocated addr)
      else .ok { pool with
        allocated := pool.allocated.put addr { allocation with claims := allocation.claims + 1 } }
    | none => .ok { pool with allocated := pool.allocated.put addr (.pinned owner) }

def isFree (addr : IpAddr) : Bool := !pool.allocated.contains addr && !pool.reserved.contains addr

def setV4Next (n : ℕ) (hn : 2 ≤ n) : AddressPool := { pool with v4Next := n, v4Next_ge := hn }

def setV6Next (n : ℕ) (hn : 2 ≤ n) : AddressPool := { pool with v6Next := n, v6Next_ge := hn }

def leaseDynamic (addr : IpAddr) : AddressPool :=
  { pool with allocated := pool.allocated.put addr .dynamic }

/-- The offset `allocate_v4` tries next: the cursor, or two once it has left the range. -/
def offsetV4 (maxHosts : ℕ) : ℕ := if maxHosts ≤ pool.v4Next then 2 else pool.v4Next

lemma offsetV4_ge (maxHosts : ℕ) : 2 ≤ pool.offsetV4 maxHosts := by
  have := pool.v4Next_ge
  unfold offsetV4
  split <;> omega

lemma nextV4_ge (maxHosts : ℕ) : 2 ≤ pool.offsetV4 maxHosts + 1 := by
  have := pool.offsetV4_ge maxHosts
  omega

def scanV4 (net : Cidr 32) (maxHosts : ℕ) :
    ℕ → AddressPool → AddressPool × Except PoolError Ipv4Addr
  | 0, pool => (pool, .error .exhausted)
  | left + 1, pool =>
    let offset := pool.offsetV4 maxHosts
    let addr := net.network ||| BitVec.ofNat 32 offset
    let moved := pool.setV4Next (offset + 1) (pool.nextV4_ge maxHosts)
    if moved.isFree (.v4 addr) then (moved.leaseDynamic (.v4 addr), .ok addr)
    else scanV4 net maxHosts left moved

def allocateV4 : AddressPool × Except PoolError Ipv4Addr :=
  match pool.v4Net with
  | none => (pool, .error .exhausted)
  | some net =>
    let maxHosts := net.hostmask.toNat
    if maxHosts ≤ 2 then (pool, .error .exhausted)
    else scanV4 net maxHosts (maxHosts - 2) pool

def offsetV6 (hostMask : ℕ) : ℕ := if hostMask < pool.v6Next then 2 else pool.v6Next

lemma offsetV6_ge (hostMask : ℕ) : 2 ≤ pool.offsetV6 hostMask := by
  have := pool.v6Next_ge
  unfold offsetV6
  split <;> omega

def cursorAfterV6 (hostMask offset : ℕ) : ℕ := if offset = hostMask then 2 else offset + 1

lemma cursorAfterV6_ge {hostMask offset : ℕ} (h : 2 ≤ offset) :
    2 ≤ cursorAfterV6 hostMask offset := by
  unfold cursorAfterV6
  split <;> omega

lemma nextV6_ge (hostMask : ℕ) : 2 ≤ cursorAfterV6 hostMask (pool.offsetV6 hostMask) :=
  cursorAfterV6_ge (pool.offsetV6_ge hostMask)

/-- As for IPv4, but the last offset of the range is usable and the cursor returns to two
right after it. -/
def scanV6 (net : Cidr 128) (hostMask : ℕ) :
    ℕ → AddressPool → AddressPool × Except PoolError Ipv6Addr
  | 0, pool => (pool, .error .exhausted)
  | left + 1, pool =>
    let offset := pool.offsetV6 hostMask
    let addr := net.network ||| BitVec.ofNat 128 offset
    let moved := pool.setV6Next (cursorAfterV6 hostMask offset) (pool.nextV6_ge hostMask)
    if moved.isFree (.v6 addr) then (moved.leaseDynamic (.v6 addr), .ok addr)
    else scanV6 net hostMask left moved

/-- The number of tries is capped, so that a huge range does not keep the lock. -/
def allocateV6 : AddressPool × Except PoolError Ipv6Addr :=
  match pool.v6Net with
  | none => (pool, .error .exhausted)
  | some net =>
    let hostMask := net.hostmask.toNat
    if hostMask ≤ 1 then (pool, .error .exhausted)
    else scanV6 net hostMask (min (hostMask - 1) (2 ^ 64 - 1)) pool

def release (addr : IpAddr) : AddressPool × Bool :=
  match pool.allocated.get addr with
  | none => (pool, false)
  | some allocation =>
    if 1 < allocation.claims then
      ({ pool with
        allocated := pool.allocated.put addr { allocation with claims := allocation.claims - 1 } },
        true)
    else ({ pool with allocated := pool.allocated.remove addr }, true)

def releaseAll (addrs : List IpAddr) : AddressPool :=
  addrs.foldl (fun pool addr => (pool.release addr).1) pool

/-! ### What each operation can do -/

/-- Equal up to the cursors. -/
structure SameLeases (p q : AddressPool) : Prop where
  v4Net_eq : q.v4Net = p.v4Net
  v6Net_eq : q.v6Net = p.v6Net
  reserved_eq : q.reserved = p.reserved
  allocated_eq : q.allocated = p.allocated

variable {p q pool' : AddressPool} {addr : IpAddr} {reservations : List (IpAddr × ClientKey)}
  {usable : IpAddr → Prop} {answer : Option IpAddr} {w k : ℕ}

lemma SameLeases.rfl :
    SameLeases p p := ⟨Eq.refl _, Eq.refl _, Eq.refl _, Eq.refl _⟩

lemma SameLeases.trans {r : AddressPool} (h : SameLeases p q) (h' : SameLeases q r) :
    SameLeases p r :=
  ⟨h'.v4Net_eq.trans h.v4Net_eq, h'.v6Net_eq.trans h.v6Net_eq,
    h'.reserved_eq.trans h.reserved_eq, h'.allocated_eq.trans h.allocated_eq⟩

def setLease (addr : IpAddr) (allocation : Allocation) : AddressPool :=
  { pool with allocated := pool.allocated.put addr allocation }

/-- A successful grant: one more claim on `addr` for `owner`, either on a free address or on
a pinned lease of the same owner. Nothing but leases and cursors changes. -/
structure Grants (pool pool' : AddressPool) (addr : IpAddr) (owner : Option ClientKey) : Prop where
  inRange : pool.inRange addr = true
  not_gateway : pool.isGateway addr = false
  lease : (pool.allocated.get addr = none ∧ SameLeases (pool.setLease addr ⟨1, owner⟩) pool') ∨
    ∃ claims, owner ≠ none ∧ pool.allocated.get addr = some ⟨claims, owner⟩ ∧
      SameLeases (pool.setLease addr ⟨claims + 1, owner⟩) pool'

variable {pool}

theorem reserveStatic_ok {owner : ClientKey} (h : pool.reserveStatic addr owner = .ok pool') :
    pool' = { pool with reserved := pool.reserved.put addr owner } := by
  unfold reserveStatic at h
  split_ifs at h
  exact (Except.ok.inj h).symm

lemma collectReservations_get {next next' : Table IpAddr ClientKey}
    (h : pool.collectReservations reservations next = .ok next') (addr : IpAddr)
      (owner : ClientKey) :
    next'.get addr = some owner ↔ next.get addr = some owner ∨ (addr, owner) ∈ reservations := by
  induction reservations generalizing next with
  | nil =>
    cases h
    simp
  | cons entry rest ih =>
    obtain ⟨first, key⟩ := entry
    rw [collectReservations] at h
    split_ifs at h with hr hg hc
    have hfresh : next.get first = none := Table.contains_eq_false.mp (by simpa using hc)
    rw [ih h, Table.get_put, List.mem_cons, Prod.mk.injEq]
    by_cases ha : addr = first
    · subst ha
      simp [hfresh, eq_comm]
    · simp [ha]

theorem setStaticReservations_replaces (h : pool.setStaticReservations reservations = .ok pool') :
    pool' = { pool with reserved := pool'.reserved } ∧
      ∀ addr owner, pool'.reserved.get addr = some owner ↔ (addr, owner) ∈ reservations := by
  unfold setStaticReservations at h
  cases hc : pool.collectReservations reservations ∅ with
  | error e => rw [hc] at h; cases h
  | ok next =>
    rw [hc] at h
    cases h
    refine ⟨rfl, fun addr owner => ?_⟩
    have hget := collectReservations_get hc addr owner
    simpa using hget

theorem setStaticReservations_ok (h : pool.setStaticReservations reservations = .ok pool') :
    ∃ next, pool' = { pool with reserved := next } :=
  ⟨pool'.reserved, (setStaticReservations_replaces h).1⟩

theorem claim_ok {owner : ClientKey} (h : pool.claim addr owner = .ok pool') :
    pool.reserved.get addr = some owner ∧ Grants pool pool' addr (some owner) := by
  unfold claim at h
  split_ifs at h with hr hg hk
  have hrange : pool.inRange addr = true := by simpa using hr
  have hgate : pool.isGateway addr = false := by simpa using hg
  refine ⟨not_not.mp hk, hrange, hgate, ?_⟩
  cases ha : pool.allocated.get addr with
  | none =>
    rw [ha] at h
    cases h
    exact .inl ⟨rfl, .rfl⟩
  | some allocation =>
    rw [ha] at h
    dsimp only at h
    split_ifs at h with ho
    cases h
    have ho' : allocation.owner = some owner := not_not.mp ho
    refine .inr ⟨allocation.claims, by simp, ?_, ?_⟩
    · rw [← ho']
    · rw [← ho']
      exact .rfl

lemma isFree_iff (addr : IpAddr) :
    pool.isFree addr = true ↔ pool.allocated.get addr = none ∧ pool.reserved.get addr = none := by
  simp [isFree, Table.contains]

/-- What an allocation can do to the pool: move a cursor, or also lease a free address. -/
inductive Allocates (pool : AddressPool) (usable : IpAddr → Prop) :
    AddressPool → Option IpAddr → Prop
  | exhausted {pool' : AddressPool} (same : SameLeases pool pool') :
    Allocates pool usable pool' none
  | leased {pool' : AddressPool} {addr : IpAddr} (free : pool.isFree addr = true)
      (usable_addr : usable addr) (same : SameLeases (pool.leaseDynamic addr) pool') :
      Allocates pool usable pool' (some addr)

lemma Allocates.of_same {r : AddressPool} (h : Allocates q usable r answer) (hpq : SameLeases p q) :
    Allocates p usable r answer := by
  obtain ⟨h4, h6, hr, ha⟩ := hpq
  cases h with
  | exhausted same => exact .exhausted (SameLeases.trans ⟨h4, h6, hr, ha⟩ same)
  | @leased addr free usable_addr same =>
    have hfree : p.isFree addr = true := by
      rw [isFree_iff] at free ⊢
      rwa [ha, hr] at free
    have hput : SameLeases (p.leaseDynamic addr) (q.leaseDynamic addr) :=
      ⟨h4, h6, hr, by simp only [leaseDynamic, ha]⟩
    exact .leased hfree usable_addr (hput.trans same)

lemma Allocates.mono {usable' : IpAddr → Prop} (h : Allocates p usable q answer)
    (hu : ∀ addr, usable addr → usable' addr) :
    Allocates p usable' q answer := by
  cases h with
  | exhausted same => exact .exhausted same
  | leased free usable_addr same => exact .leased free (hu _ usable_addr) same

theorem scanV4_allocates (net : Cidr 32) {maxHosts : ℕ} (hmax : 2 < maxHosts) (left : ℕ)
    (pool : AddressPool) :
    Allocates pool (fun addr => ∃ offset, 2 ≤ offset ∧ offset < maxHosts ∧
        addr = .v4 (net.network ||| BitVec.ofNat 32 offset))
      (scanV4 net maxHosts left pool).1 ((scanV4 net maxHosts left pool).2.toOption.map .v4) := by
  induction left generalizing pool with
  | zero => exact .exhausted .rfl
  | succ left ih =>
    have hlow := pool.offsetV4_ge maxHosts
    have hhigh : pool.offsetV4 maxHosts < maxHosts := by
      unfold offsetV4
      split <;> omega
    unfold scanV4
    dsimp only
    split_ifs with hf
    · exact .leased hf ⟨_, hlow, hhigh, rfl⟩ ⟨rfl, rfl, rfl, rfl⟩
    · have hrest := ih (pool.setV4Next (pool.offsetV4 maxHosts + 1) (by omega))
      exact hrest.of_same ⟨rfl, rfl, rfl, rfl⟩

theorem scanV6_allocates (net : Cidr 128) {hostMask : ℕ} (hmask : 1 < hostMask) (left : ℕ)
    (pool : AddressPool) :
    Allocates pool (fun addr => ∃ offset, 2 ≤ offset ∧ offset ≤ hostMask ∧
        addr = .v6 (net.network ||| BitVec.ofNat 128 offset))
      (scanV6 net hostMask left pool).1 ((scanV6 net hostMask left pool).2.toOption.map .v6) := by
  induction left generalizing pool with
  | zero => exact .exhausted .rfl
  | succ left ih =>
    have hlow := pool.offsetV6_ge hostMask
    have hhigh : pool.offsetV6 hostMask ≤ hostMask := by
      unfold offsetV6
      split <;> omega
    unfold scanV6
    dsimp only
    split_ifs with hf
    · exact .leased hf ⟨_, hlow, hhigh, rfl⟩ ⟨rfl, rfl, rfl, rfl⟩
    · have hrest := ih (pool.setV6Next (cursorAfterV6 hostMask (pool.offsetV6 hostMask))
        (cursorAfterV6_ge hlow))
      exact hrest.of_same ⟨rfl, rfl, rfl, rfl⟩

lemma offset_toNat (net : Cidr w) (h : k ≤ net.hostmask.toNat) :
    (BitVec.ofNat w k).toNat = k ∧ k < 2 ^ net.hostBits := by
  have hm := net.hostmask.isLt
  have hpos := net.hostRange_pos
  refine ⟨?_, ?_⟩
  · rw [BitVec.toNat_ofNat, Nat.mod_eq_of_lt (by omega)]
  · rw [Cidr.hostmask_toNat] at h
    omega

lemma offset_ne {j : ℕ} (net : Cidr w) (hj : j ≤ net.hostmask.toNat) (hk : k ≤ net.hostmask.toNat)
    (h : j ≠ k) :
    net.network ||| BitVec.ofNat w j ≠ net.network ||| BitVec.ofNat w k := by
  obtain ⟨hjn, hjlt⟩ := offset_toNat net hj
  obtain ⟨hkn, hklt⟩ := offset_toNat net hk
  rw [Ne, Cidr.network_or_inj net (by rwa [hjn]) (by rwa [hkn]), ← BitVec.toNat_inj, hjn, hkn]
  exact h

lemma offset_contains (net : Cidr w) (h : k ≤ net.hostmask.toNat) :
    net.contains (net.network ||| BitVec.ofNat w k) = true := by
  obtain ⟨hn, hlt⟩ := offset_toNat net h
  exact net.contains_network_or _ (by rwa [hn])

/-- The addresses a dynamic allocation may hand out: inside the prefix, but not the network
address, the gateway or the IPv4 broadcast address. -/
def Assignable (pool : AddressPool) : IpAddr → Prop
  | .v4 a => ∃ net, pool.v4Net = some net ∧ net.contains a = true ∧ a ≠ net.network ∧
      a ≠ net.network ||| 1 ∧ a ≠ net.broadcast
  | .v6 a => ∃ net, pool.v6Net = some net ∧ net.contains a = true ∧ a ≠ net.network ∧
      a ≠ net.network ||| 1

lemma Assignable.placed {pool : AddressPool} (h : pool.Assignable addr) :
    pool.inRange addr = true ∧ pool.isGateway addr = false := by
  cases addr with
  | v4 a =>
    obtain ⟨net, hnet, hc, -, hg, -⟩ := h
    exact ⟨by simp [inRange, hnet, hc], by simpa [isGateway, hnet] using hg.symm⟩
  | v6 a =>
    obtain ⟨net, hnet, hc, -, hg⟩ := h
    exact ⟨by simp [inRange, hnet, hc], by simpa [isGateway, hnet] using hg.symm⟩

lemma Allocates.grants (h : p.Allocates p.Assignable q (some addr)) : p.Grants q addr none := by
  cases h with
  | leased free usable_addr same =>
    obtain ⟨hrange, hgate⟩ := usable_addr.placed
    exact ⟨hrange, hgate, .inl ⟨((isFree_iff addr).mp free).1, same⟩⟩

theorem allocateV4_allocates (pool : AddressPool) :
    Allocates pool pool.Assignable pool.allocateV4.1 (pool.allocateV4.2.toOption.map .v4) := by
  unfold allocateV4
  cases hnet : pool.v4Net with
  | none => exact .exhausted .rfl
  | some net =>
    dsimp only
    split_ifs with hsmall
    · exact .exhausted .rfl
    · refine (scanV4_allocates net (by omega) _ pool).mono ?_
      rintro _ ⟨offset, hlow, hhigh, rfl⟩
      have hbroadcast : net.broadcast = net.network ||| BitVec.ofNat 32 net.hostmask.toNat := by
        rw [Cidr.broadcast_eq, BitVec.ofNat_toNat, BitVec.setWidth_eq]
      refine ⟨net, hnet, offset_contains net hhigh.le, ?_, ?_, ?_⟩
      · have h := offset_ne net hhigh.le (Nat.zero_le _) (by omega : offset ≠ 0)
        simpa using h
      · exact offset_ne (k := 1) net hhigh.le (by omega) (by omega)
      · rw [hbroadcast]
        exact offset_ne net hhigh.le le_rfl (by omega)

theorem allocateV6_allocates (pool : AddressPool) :
    Allocates pool pool.Assignable pool.allocateV6.1 (pool.allocateV6.2.toOption.map .v6) := by
  unfold allocateV6
  cases hnet : pool.v6Net with
  | none => exact .exhausted .rfl
  | some net =>
    dsimp only
    split_ifs with hsmall
    · exact .exhausted .rfl
    · refine (scanV6_allocates net (by omega) _ pool).mono ?_
      rintro _ ⟨offset, hlow, hhigh, rfl⟩
      refine ⟨net, hnet, offset_contains net hhigh, ?_, ?_⟩
      · have h := offset_ne net hhigh (Nat.zero_le _) (by omega : offset ≠ 0)
        simpa using h
      · exact offset_ne (k := 1) net hhigh (by omega) (by omega)

end AddressPool

end MasqueServer
