import MasqueServer.AddressPool
import MasqueServer.CyclicSearch

/-!
# Dynamic allocation is complete

Each family's scan is a search of a window of host offsets in a circle, starting at the cursor:
the offsets between the gateway and the broadcast address for IPv4, and all offsets behind the
gateway for IPv6. The loops are also run on machine words, where an overflow would show.
-/
namespace MasqueServer.AddressPool

def Taken (pool : AddressPool) (addr : IpAddr) : Prop :=
  pool.allocated.contains addr = true ∨ pool.reserved.contains addr = true

lemma isFree_eq_false_iff {pool : AddressPool} {addr : IpAddr} :
    pool.isFree addr = false ↔ pool.Taken addr := by
  unfold isFree Taken
  cases pool.allocated.contains addr <;> cases pool.reserved.contains addr <;> decide

def asV6 : IpAddr → Option Ipv6Addr
  | .v4 _ => none
  | .v6 a => some a

def takenV6 (pool : AddressPool) : Finset Ipv6Addr :=
  ((pool.allocated.keys ++ pool.reserved.keys).filterMap asV6).toFinset

lemma mem_takenV6 {pool : AddressPool} {a : Ipv6Addr} :
    a ∈ pool.takenV6 ↔ pool.Taken (.v6 a) := by
  have hkey (addr : IpAddr) : asV6 addr = some a ↔ addr = .v6 a := by
    cases addr <;> simp [asV6]
  have hcontains {β : Type} (t : Table IpAddr β) :
      t.contains (.v6 a) = true ↔ .v6 a ∈ t.keys := by
    rw [Table.contains, Table.get, AList.lookup_isSome, AList.mem_keys]
  simp only [takenV6, List.mem_toFinset, List.mem_filterMap, hkey, exists_eq_right,
    List.mem_append, Taken, hcontains]

/-! ### The scans as searches -/

def windowV4 (maxHosts : ℕ) (h : 2 < maxHosts) : Window := ⟨2, maxHosts - 1, by omega⟩

def windowV6 (hostMask : ℕ) (h : 1 < hostMask) : Window := ⟨2, hostMask, h⟩

def answer {w : ℕ} (net : Cidr w) : Option ℕ → Except PoolError (BitVec w)
  | some offset => .ok (net.network ||| BitVec.ofNat w offset)
  | none => .error .exhausted

variable {pool : AddressPool} {maxHosts hostMask : ℕ}

lemma inside_offsetV4 (h : 2 < maxHosts) (pool : AddressPool) :
    (windowV4 maxHosts h).Inside (pool.offsetV4 maxHosts) := by
  have hge := pool.offsetV4_ge maxHosts
  refine ⟨hge, ?_⟩
  show _ ≤ maxHosts - 1
  unfold offsetV4
  split <;> omega

lemma inside_offsetV6 (h : 1 < hostMask) (pool : AddressPool) :
    (windowV6 hostMask h).Inside (pool.offsetV6 hostMask) := by
  have hge := pool.offsetV6_ge hostMask
  refine ⟨hge, ?_⟩
  show _ ≤ hostMask
  unfold offsetV6
  split <;> omega

lemma offsetV4_setV4Next {offset : ℕ} (h : 2 < maxHosts)
    (hoffset : (windowV4 maxHosts h).Inside offset)
    (hge : 2 ≤ offset + 1) :
    (pool.setV4Next (offset + 1) hge).offsetV4 maxHosts = (windowV4 maxHosts h).next offset := by
  have hhigh : offset ≤ maxHosts - 1 := hoffset.2
  show (if maxHosts ≤ offset + 1 then 2 else offset + 1) = if offset = maxHosts - 1 then 2 else _
  by_cases hlast : offset = maxHosts - 1
  · rw [if_pos (by omega), if_pos hlast]
  · rw [if_neg (by omega), if_neg hlast]

lemma offsetV6_setV6Next {offset : ℕ} (h : 1 < hostMask)
    (hoffset : (windowV6 hostMask h).Inside offset)
    (hge : 2 ≤ cursorAfterV6 hostMask offset) :
    (pool.setV6Next (cursorAfterV6 hostMask offset) hge).offsetV6 hostMask =
      (windowV6 hostMask h).next offset := by
  have hhigh : offset ≤ hostMask := hoffset.2
  have hcursor : cursorAfterV6 hostMask offset ≤ hostMask := by
    unfold cursorAfterV6
    split_ifs <;> omega
  show (if hostMask < cursorAfterV6 hostMask offset then 2 else cursorAfterV6 hostMask offset) =
    cursorAfterV6 hostMask offset
  rw [if_neg (by omega)]

lemma scanV4_eq_search (net : Cidr 32) (h : 2 < maxHosts) (left : ℕ) (pool : AddressPool) :
    (scanV4 net maxHosts left pool).2 = answer net ((windowV4 maxHosts h).search
      (fun offset => pool.isFree (.v4 (net.network ||| BitVec.ofNat 32 offset))) left
      (pool.offsetV4 maxHosts)) := by
  induction left generalizing pool with
  | zero => rfl
  | succ left ih =>
    have hinside := inside_offsetV4 h pool
    rw [scanV4, Window.search]
    split_ifs with hfree hbusy hbusy
    · rfl
    · exact absurd hfree hbusy
    · exact absurd hbusy hfree
    · rw [ih, offsetV4_setV4Next h hinside]
      rfl

lemma scanV6_eq_search (net : Cidr 128) (h : 1 < hostMask) (left : ℕ) (pool : AddressPool) :
    (scanV6 net hostMask left pool).2 = answer net ((windowV6 hostMask h).search
      (fun offset => pool.isFree (.v6 (net.network ||| BitVec.ofNat 128 offset))) left
      (pool.offsetV6 hostMask)) := by
  induction left generalizing pool with
  | zero => rfl
  | succ left ih =>
    have hinside := inside_offsetV6 h pool
    rw [scanV6, Window.search]
    split_ifs with hfree hbusy hbusy
    · rfl
    · exact absurd hfree hbusy
    · exact absurd hbusy hfree
    · rw [ih, offsetV6_setV6Next h hinside]
      rfl

lemma answer_eq_exhausted_iff {w : ℕ} {net : Cidr w} {found : Option ℕ} :
    answer net found = .error .exhausted ↔ found = none := by
  cases found <;> simp [answer]

/-! ### The loops on machine words -/

/-- The loop of `allocate_v4`, where the cursor is a word of 32 bits and the counter one of 64:
nothing is returned when one of them overflows, or when the fuel is spent. -/
def loopV4 (net : Cidr 32) (maxHosts totalUsable : ℕ) :
    ℕ → ℕ → AddressPool → Option (AddressPool × Except PoolError Ipv4Addr)
  | 0, _, _ => none
  | fuel + 1, checked, pool =>
    if checked < totalUsable then
      let offset := pool.offsetV4 maxHosts
      let addr := net.network ||| BitVec.ofNat 32 offset
      if offset + 1 < 2 ^ 32 ∧ checked + 1 < 2 ^ 64 then
        let moved := pool.setV4Next (offset + 1) (pool.nextV4_ge maxHosts)
        if moved.isFree (.v4 addr) then some (moved.leaseDynamic (.v4 addr), .ok addr)
        else loopV4 net maxHosts totalUsable fuel (checked + 1) moved
      else none
    else some (pool, .error .exhausted)

def loopV6 (net : Cidr 128) (hostMask maxIter : ℕ) :
    ℕ → ℕ → AddressPool → Option (AddressPool × Except PoolError Ipv6Addr)
  | 0, _, _ => none
  | fuel + 1, checked, pool =>
    if checked < maxIter then
      let offset := pool.offsetV6 hostMask
      let addr := net.network ||| BitVec.ofNat 128 offset
      if cursorAfterV6 hostMask offset < 2 ^ 128 ∧ checked + 1 < 2 ^ 64 then
        let moved := pool.setV6Next (cursorAfterV6 hostMask offset) (pool.nextV6_ge hostMask)
        if moved.isFree (.v6 addr) then some (moved.leaseDynamic (.v6 addr), .ok addr)
        else loopV6 net hostMask maxIter fuel (checked + 1) moved
      else none
    else some (pool, .error .exhausted)

def allocateV4Words (fuel : ℕ) (pool : AddressPool) :
    Option (AddressPool × Except PoolError Ipv4Addr) :=
  match pool.v4Net with
  | none => some (pool, .error .exhausted)
  | some net =>
    let maxHosts := net.hostmask.toNat
    if maxHosts ≤ 2 then some (pool, .error .exhausted)
    else loopV4 net maxHosts (maxHosts - 2) fuel 0 pool

def allocateV6Words (fuel : ℕ) (pool : AddressPool) :
    Option (AddressPool × Except PoolError Ipv6Addr) :=
  match pool.v6Net with
  | none => some (pool, .error .exhausted)
  | some net =>
    let hostMask := net.hostmask.toNat
    if hostMask ≤ 1 then some (pool, .error .exhausted)
    else loopV6 net hostMask (min (hostMask - 1) (2 ^ 64 - 1)) fuel 0 pool

lemma loopV4_eq_scanV4 (net : Cidr 32) (h : 2 < maxHosts) (hword : maxHosts < 2 ^ 32)
    {totalUsable checked fuel left : ℕ} (htotal : totalUsable < 2 ^ 64)
    (hleft : checked + left = totalUsable) (hfuel : left < fuel) (pool : AddressPool) :
    loopV4 net maxHosts totalUsable fuel checked pool = some (scanV4 net maxHosts left pool) := by
  induction left generalizing fuel checked pool with
  | zero =>
    obtain ⟨fuel, rfl⟩ : ∃ n, fuel = n + 1 := ⟨fuel - 1, by omega⟩
    rw [loopV4, if_neg (by omega), scanV4]
  | succ left ih =>
    obtain ⟨fuel, rfl⟩ : ∃ n, fuel = n + 1 := ⟨fuel - 1, by omega⟩
    have hhigh : pool.offsetV4 maxHosts ≤ maxHosts - 1 := (inside_offsetV4 h pool).2
    rw [loopV4, if_pos (by omega), scanV4]
    simp only
    rw [if_pos ⟨by omega, by omega⟩, ih (by omega) (by omega)]
    split_ifs <;> rfl

lemma loopV6_eq_scanV6 (net : Cidr 128) (h : 1 < hostMask) (hword : hostMask < 2 ^ 128)
    {maxIter checked fuel left : ℕ} (hiter : maxIter < 2 ^ 64)
    (hleft : checked + left = maxIter) (hfuel : left < fuel) (pool : AddressPool) :
    loopV6 net hostMask maxIter fuel checked pool = some (scanV6 net hostMask left pool) := by
  induction left generalizing fuel checked pool with
  | zero =>
    obtain ⟨fuel, rfl⟩ : ∃ n, fuel = n + 1 := ⟨fuel - 1, by omega⟩
    rw [loopV6, if_neg (by omega), scanV6]
  | succ left ih =>
    obtain ⟨fuel, rfl⟩ : ∃ n, fuel = n + 1 := ⟨fuel - 1, by omega⟩
    have hhigh : pool.offsetV6 hostMask ≤ hostMask := (inside_offsetV6 h pool).2
    have hcursor : cursorAfterV6 hostMask (pool.offsetV6 hostMask) < 2 ^ 128 := by
      unfold cursorAfterV6
      split_ifs <;> omega
    rw [loopV6, if_pos (by omega), scanV6]
    simp only
    rw [if_pos ⟨hcursor, by omega⟩, ih (by omega) (by omega)]
    split_ifs <;> rfl

lemma allocateV4Words_eq (pool : AddressPool) {fuel : ℕ} (hfuel : 2 ^ 32 ≤ fuel) :
    pool.allocateV4Words fuel = some pool.allocateV4 := by
  unfold allocateV4Words allocateV4
  cases pool.v4Net with
  | none => rfl
  | some net =>
    have hword := net.hostmask.isLt
    simp only
    split_ifs with hsmall
    · rfl
    · exact loopV4_eq_scanV4 net (by omega) hword (by omega) (by omega) (by omega) pool

lemma allocateV6Words_eq (pool : AddressPool) {fuel : ℕ} (hfuel : 2 ^ 64 ≤ fuel) :
    pool.allocateV6Words fuel = some pool.allocateV6 := by
  unfold allocateV6Words allocateV6
  cases pool.v6Net with
  | none => rfl
  | some net =>
    have hword := net.hostmask.isLt
    simp only
    split_ifs with hsmall
    · rfl
    · exact loopV6_eq_scanV6 net (by omega) hword (by omega) (by omega) (by omega) pool

/-! ### Completeness -/

/-- The addresses at offsets two to broadcast minus one. -/
def UsableV4 (net : Cidr 32) (a : Ipv4Addr) : Prop :=
  ∃ offset, 2 ≤ offset ∧ offset + 1 ≤ net.hostmask.toNat ∧
    a = net.network ||| BitVec.ofNat 32 offset

/-- The addresses at offset two to the last of the prefix. -/
def UsableV6 (net : Cidr 128) (a : Ipv6Addr) : Prop :=
  ∃ offset, 2 ≤ offset ∧ offset ≤ net.hostmask.toNat ∧
    a = net.network ||| BitVec.ofNat 128 offset

/-- An allocation that fails exactly if everything usable is taken, and else returns something
usable that is not. -/
structure CompleteAnswer {α : Type} (usable taken : α → Prop) (result : Except PoolError α) :
    Prop where
  exhausted_iff : result = .error .exhausted ↔ ∀ a, usable a → taken a
  otherwise : result ≠ .error .exhausted → ∃ a, result = .ok a ∧ usable a ∧ ¬taken a

lemma completeAnswer_search {w left x : ℕ} {net : Cidr w} {window : Window}
    {usable taken : BitVec w → Prop} (free : BitVec w → Bool) (hx : window.Inside x)
    (husable : ∀ a, usable a ↔ ∃ k, window.Inside k ∧ a = net.network ||| BitVec.ofNat w k)
    (htaken : ∀ a, free a = false ↔ taken a)
    (hfail : window.search (fun k => free (net.network ||| BitVec.ofNat w k)) left x = none →
      ∀ k, window.Inside k → free (net.network ||| BitVec.ofNat w k) = false) :
    CompleteAnswer usable taken (answer net
      (window.search (fun k => free (net.network ||| BitVec.ofNat w k)) left x)) := by
  refine ⟨?_, fun hfound => ?_⟩
  · rw [answer_eq_exhausted_iff]
    constructor
    · intro hnone a ha
      obtain ⟨k, hk, rfl⟩ := (husable a).mp ha
      exact (htaken _).mp (hfail hnone k hk)
    · intro hall
      rw [Window.search_eq_none_iff hx]
      intro i _
      exact (htaken _).mpr (hall _ ((husable _).mpr ⟨_, Window.inside_place x i, rfl⟩))
  · rw [Ne, answer_eq_exhausted_iff] at hfound
    obtain ⟨k, hk⟩ := Option.ne_none_iff_exists'.mp hfound
    obtain ⟨hinside, hfree⟩ := Window.search_eq_some hx hk
    refine ⟨_, by rw [hk]; rfl, (husable _).mpr ⟨k, hinside, rfl⟩, ?_⟩
    rw [← htaken, hfree]
    decide

lemma completeAnswer_exhausted {α : Type} {usable taken : α → Prop} (h : ∀ a, ¬usable a) :
    CompleteAnswer usable taken (.error .exhausted) :=
  ⟨⟨fun _ a ha => absurd ha (h a), fun _ => rfl⟩, fun hne => absurd rfl hne⟩

lemma allocateV4_complete {net : Cidr 32} (hnet : pool.v4Net = some net) :
    CompleteAnswer (UsableV4 net) (fun a => pool.Taken (.v4 a)) pool.allocateV4.2 := by
  unfold allocateV4
  rw [hnet]
  simp only
  split_ifs with hsmall
  · refine completeAnswer_exhausted ?_
    rintro a ⟨offset, hlow, hhigh, -⟩
    omega
  · have hlarge : 2 < net.hostmask.toNat := by omega
    have hinside := inside_offsetV4 hlarge pool
    have hsize : (windowV4 _ hlarge).size = net.hostmask.toNat - 2 := by
      unfold Window.size windowV4
      simp only
      omega
    rw [scanV4_eq_search net hlarge]
    refine completeAnswer_search (fun a => pool.isFree (.v4 a)) hinside (fun a => ?_)
      (fun a => isFree_eq_false_iff) ?_
    · refine exists_congr fun offset => ?_
      rw [← and_assoc]
      refine and_congr_left fun _ => and_congr_right fun _ => ?_
      show _ ↔ _ ≤ net.hostmask.toNat - 1
      omega
    · rw [← hsize]
      exact (Window.search_size_eq_none_iff hinside).mp

lemma le_card_takenV6 {net : Cidr 128} (hlarge : 1 < net.hostmask.toNat) {left : ℕ}
    (hleft : left ≤ (windowV6 _ hlarge).size)
    (h : (windowV6 _ hlarge).search
      (fun k => pool.isFree (.v6 (net.network ||| BitVec.ofNat 128 k))) left
      (pool.offsetV6 net.hostmask.toNat) = none) : left ≤ pool.takenV6.card := by
  have hmet := Window.le_card_of_search_eq_none (inside_offsetV6 hlarge pool) hleft h
  refine hmet.trans (Finset.card_le_card_of_injOn
    (fun k => net.network ||| BitVec.ofNat 128 k) ?_ ?_)
  · intro k hk
    rw [Finset.mem_coe, Finset.mem_filter] at hk
    exact mem_takenV6.mpr (isFree_eq_false_iff.mp hk.2)
  · intro j hj k hk hjk
    rw [Finset.mem_coe, Finset.mem_filter, Finset.mem_Icc] at hj hk
    by_contra hne
    exact offset_ne net hj.1.2 hk.1.2 hne hjk

lemma allocateV6_complete {net : Cidr 128} (hnet : pool.v6Net = some net)
    (hfew : pool.takenV6.card < 2 ^ 64 - 1) :
    CompleteAnswer (UsableV6 net) (fun a => pool.Taken (.v6 a)) pool.allocateV6.2 := by
  unfold allocateV6
  rw [hnet]
  simp only
  split_ifs with hsmall
  · refine completeAnswer_exhausted ?_
    rintro a ⟨offset, hlow, hhigh, -⟩
    omega
  · have hlarge : 1 < net.hostmask.toNat := by omega
    have hinside := inside_offsetV6 hlarge pool
    have hsize : (windowV6 _ hlarge).size = net.hostmask.toNat - 1 := by
      unfold Window.size windowV6
      simp only
      omega
    rw [scanV6_eq_search net hlarge]
    refine completeAnswer_search (fun a => pool.isFree (.v6 a)) hinside (fun a => ?_)
      (fun a => isFree_eq_false_iff) fun hnone => ?_
    · refine exists_congr fun offset => ?_
      rw [← and_assoc]
      rfl
    · have hmet := le_card_takenV6 hlarge (by rw [hsize]; exact min_le_left _ _) hnone
      have hturn : min (net.hostmask.toNat - 1) (2 ^ 64 - 1) = (windowV6 _ hlarge).size := by
        rw [hsize]
        omega
      rw [hturn] at hnone
      exact (Window.search_size_eq_none_iff hinside).mp hnone

/-- Dynamic allocation is complete, in every pool: it ends without overflow, gives up exactly
when every usable address is leased or reserved, and else hands out a usable address that was
neither. -/
theorem allocate_complete (pool : AddressPool) :
    (∀ net, pool.v4Net = some net →
      (∀ fuel, 2 ^ 32 ≤ fuel → pool.allocateV4Words fuel = some pool.allocateV4) ∧
      CompleteAnswer (UsableV4 net) (fun a => pool.Taken (.v4 a)) pool.allocateV4.2) ∧
    (∀ net, pool.v6Net = some net →
      (∀ fuel, 2 ^ 64 ≤ fuel → pool.allocateV6Words fuel = some pool.allocateV6) ∧
      (pool.takenV6.card < 2 ^ 64 - 1 →
        CompleteAnswer (UsableV6 net) (fun a => pool.Taken (.v6 a)) pool.allocateV6.2)) :=
  ⟨fun _ hnet => ⟨fun _ => allocateV4Words_eq pool, allocateV4_complete hnet⟩,
    fun _ hnet => ⟨fun _ => allocateV6Words_eq pool, allocateV6_complete hnet⟩⟩

def smallNet : Cidr 128 := ⟨0xfd000000000000000000000000000000, 125, by decide⟩

/-- Of the six usable addresses `::2` to `::7`, `::2` and `::6` are leased and `::3` and `::7` are
reserved; the cursor stands at `::6`. -/
def smallPool : AddressPool :=
  { fresh none (some smallNet) with
    allocated := ((∅ : Table _ _).put (.v6 (smallNet.network ||| 2)) .dynamic).put
      (.v6 (smallNet.network ||| 6)) .dynamic
    reserved := ((∅ : Table _ _).put (.v6 (smallNet.network ||| 3)) [1]).put
      (.v6 (smallNet.network ||| 7)) [2]
    v6Next := 6
    v6Next_ge := by decide }

/-- The search passes the end of the range and finds `::4`. -/
theorem allocate_complete_small :
    smallPool.takenV6.card < 2 ^ 64 - 1 ∧
      CompleteAnswer (UsableV6 smallNet) (fun a => smallPool.Taken (.v6 a)) smallPool.allocateV6.2 ∧
      smallPool.allocateV6.2 = .ok (smallNet.network ||| 4) :=
  ⟨by decide, ((allocate_complete smallPool).2 _ rfl).2 (by decide), by decide +kernel⟩

end MasqueServer.AddressPool
