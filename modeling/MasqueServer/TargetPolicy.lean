import MasqueServer.FallibleLists
import MasqueServer.IpAddress
import MasqueServer.SortedSearch
import Mathlib.Order.Fin.Basic

/-!
# Target policy

Allow and deny lists of networks decide which target addresses a client may reach, and a listener
may narrow them further. Rules are parsed when the policy is built and every network inside
`::ffff:0:0/96` is stored as the IPv4 network it stands for; an address is judged in its canonical
form.
-/
namespace MasqueServer

open Option

abbrev Port := Fin (2 ^ 16)

/-- Why a policy was not built, with the context the error names. -/
inductive PolicyError
  | invalidTargetAt (field : String) (index : ℕ) (rule : String)
  | invalidTarget (rule : String)
  | portZero
  deriving DecidableEq, Repr

/-- The listener's `allow_targets`, `deny_targets` and `allow_ports`. -/
structure TargetRestrictionSection where
  allowTargets : Option (List String)
  denyTargets : List String
  allowPorts : Option (List Port)

structure TargetRestrictions where
  allow : Option (List IpNet)
  deny : List IpNet
  ports : Option (List Port)

structure TargetPolicy where
  allow : List IpNet
  deny : List IpNet
  restrictions : Option TargetRestrictions

/-- A mapped network of at least 96 fixed bits becomes its IPv4 network; any other network
stays as it is. The translated prefix length always fits, so construction cannot fail. -/
def canonicalNet : IpNet → IpNet
  | .v4 n => .v4 n
  | .v6 n =>
    if 96 ≤ n.prefixLen then
      match toIpv4Mapped n.network with
      | some a => .v4 ⟨a, n.prefixLen - 96, by have := n.prefixLen_le; omega⟩
      | none => .v6 n
    else .v6 n

section Build

variable (parse : String → Option IpNet)

def parseRule (error : PolicyError) (rule : String) : Except PolicyError IpNet :=
  match parse rule with
  | some net => .ok (canonicalNet net)
  | none => .error error

def parseCidrs (strings : List String) (field : String) : Except PolicyError (List IpNet) :=
  strings.zipIdx.mapM fun (rule, index) =>
    parseRule parse (.invalidTargetAt field index rule) rule

def parseRules (rules : List String) : Except PolicyError (List IpNet) :=
  rules.mapM fun rule => parseRule parse (.invalidTarget rule) rule

def restrictPorts (ports : List Port) : Except PolicyError (List Port) :=
  if ports.contains 0 then .error .portZero
  else .ok (dedupAdjacent (ports.mergeSort (· ≤ ·)))

def TargetRestrictions.fromSection (rules : TargetRestrictionSection) :
    Except PolicyError TargetRestrictions := do
  let ports ← rules.allowPorts.mapM restrictPorts
  let allow ← rules.allowTargets.mapM (parseRules parse)
  let deny ← parseRules parse rules.denyTargets
  return ⟨allow, deny, ports⟩

def TargetPolicy.new (allow deny : List String) : Except PolicyError TargetPolicy := do
  let allow ← parseCidrs parse allow "allow_targets"
  let deny ← parseCidrs parse deny "deny_targets"
  return ⟨allow, deny, none⟩

def TargetPolicy.withRestrictions (policy : TargetPolicy)
    (restrictions : Option TargetRestrictions) : TargetPolicy := { policy with restrictions }

/-- How a listener's policy comes about: its own section is read first, then the global
lists, and the two are joined. -/
def listenerPolicy (allow deny : List String) (rules : Option TargetRestrictionSection) :
    Except PolicyError TargetPolicy := do
  let restrictions ← rules.mapM (TargetRestrictions.fromSection parse)
  let policy ← TargetPolicy.new parse allow deny
  return policy.withRestrictions restrictions

end Build

namespace TargetPolicy

def allowsPort (policy : TargetPolicy) (port : Port) : Bool :=
  match policy.restrictions.bind TargetRestrictions.ports with
  | some ports => binarySearch ports port
  | none => true

/-- Listener rules first, then the global deny list, then the global allow list; an address
that matches nothing is denied. -/
def isAllowed (policy : TargetPolicy) (addr : IpAddr) : Bool :=
  let addr := addr.toCanonical
  if policy.restrictions.any (fun rules =>
      rules.deny.any (·.contains addr) ||
        rules.allow.any (fun allow => !allow.any (·.contains addr))) then false
  else if policy.deny.any (·.contains addr) then false
  else policy.allow.any (·.contains addr)

end TargetPolicy

/-! ### What a rule stands for -/

def ReadsAsIpv4 (n : Cidr 128) : Prop := 96 ≤ n.prefixLen ∧ ∃ a, n.network = toIpv6Mapped a

/-- The canonical addresses a configured network stands for: a mapped network covers the
IPv4 addresses whose mapped forms it contains, any other network its own addresses. -/
def Covers : IpNet → IpAddr → Prop
  | .v4 n, .v4 a => n.contains a = true
  | .v4 _, .v6 _ => False
  | .v6 n, .v4 a => ReadsAsIpv4 n ∧ n.contains (toIpv6Mapped a) = true
  | .v6 n, .v6 a => ¬ReadsAsIpv4 n ∧ n.contains a = true

lemma mapped_network_toNat {n : Cidr 128} {a : Ipv4Addr} (ha : n.network = toIpv6Mapped a) :
    n.addr.toNat / 2 ^ n.hostBits = (0xffff * 2 ^ 32 + a.toNat) / 2 ^ n.hostBits := by
  have h := congrArg BitVec.toNat ha
  rw [Cidr.network_toNat, toIpv6Mapped_toNat] at h
  rw [← h, Nat.mul_div_cancel _ n.hostRange_pos]

lemma mapped_div (k : ℕ) (hk : k ≤ 32) (x : ℕ) :
    (0xffff * 2 ^ 32 + x) / 2 ^ k = 0xffff * 2 ^ (32 - k) + x / 2 ^ k := by
  have hsplit : (0xffff * 2 ^ 32 : ℕ) = 2 ^ k * (0xffff * 2 ^ (32 - k)) := by
    rw [Nat.mul_left_comm, ← pow_add, Nat.add_sub_cancel' hk]
  rw [hsplit, Nat.mul_add_div (Nat.two_pow_pos k)]

/-- The translated network holds exactly the addresses whose mapped forms the original
holds: both tests compare quotients by the same host range. -/
theorem canonicalNet_mapped_contains {n : Cidr 128} (hlen : 96 ≤ n.prefixLen) {a : Ipv4Addr}
    (ha : n.network = toIpv6Mapped a) (hle : n.prefixLen - 96 ≤ 32) (x : Ipv4Addr) :
    (⟨a, n.prefixLen - 96, hle⟩ : Cidr 32).contains x = true ↔
      n.contains (toIpv6Mapped x) = true := by
  have hbits : (⟨a, n.prefixLen - 96, hle⟩ : Cidr 32).hostBits = n.hostBits := by
    simp only [Cidr.hostBits]
    omega
  have hk : n.hostBits ≤ 32 := by
    simp only [Cidr.hostBits]
    omega
  rw [Cidr.contains_iff, Cidr.contains_iff, hbits, mapped_network_toNat ha, toIpv6Mapped_toNat,
    mapped_div _ hk, mapped_div _ hk, Nat.add_left_cancel_iff]

theorem canonicalNet_contains (net : IpNet) (a : IpAddr) :
    (canonicalNet net).contains a = true ↔ Covers net a := by
  cases net with
  | v4 n => cases a <;> simp [canonicalNet, IpNet.contains, Covers]
  | v6 n =>
    by_cases hr : ReadsAsIpv4 n
    · obtain ⟨hlen, b, hb⟩ := hr
      have hle : n.prefixLen - 96 ≤ 32 := by have := n.prefixLen_le; omega
      have he : canonicalNet (.v6 n) = .v4 ⟨b, n.prefixLen - 96, hle⟩ := by
        simp [canonicalNet, hlen, hb]
      rw [he]
      cases a with
      | v4 x =>
        simp only [IpNet.contains, Covers, canonicalNet_mapped_contains hlen hb hle x,
          show ReadsAsIpv4 n from ⟨hlen, b, hb⟩, true_and]
      | v6 x =>
        simp only [IpNet.contains, Covers, show ReadsAsIpv4 n from ⟨hlen, b, hb⟩, not_true,
          false_and, Bool.false_eq_true]
    · have he : canonicalNet (.v6 n) = .v6 n := by
        simp only [canonicalNet]
        split_ifs with hlen
        · cases hm : toIpv4Mapped n.network with
          | some b => exact absurd ⟨hlen, b, toIpv4Mapped_eq_some.mp hm⟩ hr
          | none => rfl
        · rfl
      rw [he]
      cases a <;> simp [IpNet.contains, Covers, hr]

/-! ### What a list of rules stands for -/

section Rules

variable (parse : String → Option IpNet)

/-- Some rule of the list names a network that covers the address. -/
def RulesCover (rules : List String) (a : IpAddr) : Prop :=
  ∃ rule ∈ rules, ∃ net, parse rule = some net ∧ Covers net a

def RulesParse (rules : List String) : Prop := ∀ rule ∈ rules, ∃ net, parse rule = some net

/-- The documented decision about a canonical address: outside every deny network, inside
some global allow network, and inside the listener's allow list where there is one. -/
def Admits (allow deny : List String) (listener : Option TargetRestrictionSection)
    (a : IpAddr) : Prop :=
  ¬RulesCover parse deny a ∧ RulesCover parse allow a ∧
    ∀ rules ∈ listener, ¬RulesCover parse rules.denyTargets a ∧
      ∀ allowed ∈ rules.allowTargets, RulesCover parse allowed a

/-- Every entry names a network and no listed port is zero. -/
def SectionValid (rules : TargetRestrictionSection) : Prop :=
  RulesParse parse rules.denyTargets ∧ (∀ allowed ∈ rules.allowTargets, RulesParse parse allowed) ∧
    ∀ ports ∈ rules.allowPorts, (0 : Port) ∉ ports

variable {parse}

lemma parseRule_ok_iff {error : PolicyError} {rule : String} {net : IpNet} :
    parseRule parse error rule = .ok net ↔ ∃ n, parse rule = some n ∧ canonicalNet n = net := by
  unfold parseRule
  cases parse rule <;> simp

lemma exists_parseRule_iff (error : PolicyError) (rule : String) (p : IpNet → Prop) :
    (∃ net, parseRule parse error rule = .ok net ∧ p net) ↔
      ∃ net, parse rule = some net ∧ p (canonicalNet net) := by
  simp only [parseRule_ok_iff]
  exact ⟨fun ⟨_, ⟨n, hn, he⟩, hp⟩ => ⟨n, hn, he ▸ hp⟩, fun ⟨n, hn, hp⟩ => ⟨_, ⟨n, hn, rfl⟩, hp⟩⟩

variable (rules : List String)

lemma exists_zipIdx_iff (p : String → Prop) :
    (∃ x ∈ rules.zipIdx, p x.1) ↔ ∃ rule ∈ rules, p rule := by
  conv_rhs => rw [← List.zipIdx_map_fst 0 rules]
  simp only [List.mem_map, exists_exists_and_eq_and]

lemma forall_zipIdx_iff (p : String → Prop) :
    (∀ x ∈ rules.zipIdx, p x.1) ↔ ∀ rule ∈ rules, p rule := by
  conv_rhs => rw [← List.zipIdx_map_fst 0 rules]
  simp only [List.forall_mem_map]

theorem parseRules_covers {rules : List String} {nets : List IpNet}
    (h : parseRules parse rules = .ok nets) (a : IpAddr) :
    nets.any (·.contains a) = true ↔ RulesCover parse rules a := by
  rw [List.any_eq_true, exists_mem_of_mapM h (fun net => net.contains a = true)]
  simp only [exists_parseRule_iff, canonicalNet_contains, RulesCover]

theorem parseCidrs_covers {rules : List String} {field : String} {nets : List IpNet}
    (h : parseCidrs parse rules field = .ok nets) (a : IpAddr) :
    nets.any (·.contains a) = true ↔ RulesCover parse rules a := by
  rw [List.any_eq_true, exists_mem_of_mapM h (fun net => net.contains a = true)]
  simp only [exists_parseRule_iff, canonicalNet_contains, RulesCover]
  exact exists_zipIdx_iff rules fun rule => ∃ net, parse rule = some net ∧ Covers net a

theorem parseRules_ok_iff :
    (∃ nets, parseRules parse rules = .ok nets) ↔ RulesParse parse rules := by
  unfold parseRules RulesParse
  simp only [exists_mapM_ok_iff, parseRule_ok_iff]
  exact forall₂_congr fun _ _ => ⟨fun ⟨_, n, hn, _⟩ => ⟨n, hn⟩, fun ⟨n, hn⟩ => ⟨_, n, hn, rfl⟩⟩

theorem parseCidrs_ok_iff (field : String) :
    (∃ nets, parseCidrs parse rules field = .ok nets) ↔ RulesParse parse rules := by
  unfold parseCidrs RulesParse
  simp only [exists_mapM_ok_iff, parseRule_ok_iff, ← forall_zipIdx_iff rules]
  exact forall₂_congr fun _ _ => ⟨fun ⟨_, n, hn, _⟩ => ⟨n, hn⟩, fun ⟨n, hn⟩ => ⟨_, n, hn, rfl⟩⟩

lemma restrictPorts_ok_iff {ports r : List Port} :
    restrictPorts ports = .ok r ↔
      (0 : Port) ∉ ports ∧ r = dedupAdjacent (ports.mergeSort (· ≤ ·)) := by
  unfold restrictPorts
  by_cases h : (0 : Port) ∈ ports <;> simp [h, eq_comm]

lemma fromSection_ok_iff {rules : TargetRestrictionSection} {r : TargetRestrictions} :
    TargetRestrictions.fromSection parse rules = .ok r ↔
      rules.allowPorts.mapM restrictPorts = .ok r.ports ∧
        rules.allowTargets.mapM (parseRules parse) = .ok r.allow ∧
          parseRules parse rules.denyTargets = .ok r.deny := by
  unfold TargetRestrictions.fromSection
  simp only [bind_ok_iff, pure, Except.pure, Except.ok.injEq]
  refine ⟨?_, fun ⟨hp, ha, hd⟩ => ⟨_, hp, _, ha, _, hd, rfl⟩⟩
  rintro ⟨ports, hp, allow, ha, deny, hd, rfl⟩
  exact ⟨hp, ha, hd⟩

variable {allow deny : List String} {policy : TargetPolicy}
  {rules : Option TargetRestrictionSection}

lemma new_ok_iff :
    TargetPolicy.new parse allow deny = .ok policy ↔
      parseCidrs parse allow "allow_targets" = .ok policy.allow ∧
        parseCidrs parse deny "deny_targets" = .ok policy.deny ∧ policy.restrictions = none := by
  unfold TargetPolicy.new
  simp only [bind_ok_iff, pure, Except.pure, Except.ok.injEq]
  refine ⟨?_, fun ⟨ha, hd, hr⟩ => ⟨_, ha, _, hd, by rw [← hr]⟩⟩
  rintro ⟨allow, ha, deny, hd, rfl⟩
  exact ⟨ha, hd, rfl⟩

theorem listenerPolicy_ok_iff :
    listenerPolicy parse allow deny rules = .ok policy ↔
      parseCidrs parse allow "allow_targets" = .ok policy.allow ∧
        parseCidrs parse deny "deny_targets" = .ok policy.deny ∧
          rules.mapM (TargetRestrictions.fromSection parse) = .ok policy.restrictions := by
  unfold listenerPolicy
  simp only [bind_ok_iff, pure, Except.pure, Except.ok.injEq, new_ok_iff]
  refine ⟨?_, fun ⟨ha, hd, hr⟩ =>
    ⟨_, hr, ⟨policy.allow, policy.deny, none⟩, ⟨ha, hd, rfl⟩, rfl⟩⟩
  rintro ⟨restrictions, hr, base, ⟨ha, hd, _⟩, rfl⟩
  exact ⟨ha, hd, hr⟩

theorem fromSection_ok_iff_valid (rules : TargetRestrictionSection) :
    (∃ r, TargetRestrictions.fromSection parse rules = .ok r) ↔ SectionValid parse rules := by
  have hports : (∃ p, rules.allowPorts.mapM restrictPorts = .ok p) ↔
      ∀ ports ∈ rules.allowPorts, (0 : Port) ∉ ports := by
    simp only [exists_option_mapM_ok_iff, restrictPorts_ok_iff]
    exact forall₂_congr fun _ _ => ⟨fun ⟨_, h, _⟩ => h, fun h => ⟨_, h, rfl⟩⟩
  have hallow : (∃ a, rules.allowTargets.mapM (parseRules parse) = .ok a) ↔
      ∀ allowed ∈ rules.allowTargets, RulesParse parse allowed := by
    simp only [exists_option_mapM_ok_iff, parseRules_ok_iff]
  unfold SectionValid
  rw [← hports, ← hallow, ← parseRules_ok_iff]
  simp only [fromSection_ok_iff]
  exact ⟨fun ⟨r, hp, ha, hd⟩ => ⟨⟨_, hd⟩, ⟨_, ha⟩, ⟨_, hp⟩⟩,
    fun ⟨⟨d, hd⟩, ⟨a, ha⟩, ⟨p, hp⟩⟩ => ⟨⟨a, d, p⟩, hp, ha, hd⟩⟩

theorem listenerPolicy_ok_iff_valid (allow deny : List String)
    (rules : Option TargetRestrictionSection) :
    (∃ policy, listenerPolicy parse allow deny rules = .ok policy) ↔
      RulesParse parse allow ∧ RulesParse parse deny ∧
        ∀ listener ∈ rules, SectionValid parse listener := by
  have hrules : (∃ r, rules.mapM (TargetRestrictions.fromSection parse) = .ok r) ↔
      ∀ listener ∈ rules, SectionValid parse listener := by
    simp only [exists_option_mapM_ok_iff, fromSection_ok_iff_valid]
  rw [← hrules, ← parseCidrs_ok_iff allow "allow_targets", ← parseCidrs_ok_iff deny "deny_targets"]
  simp only [listenerPolicy_ok_iff]
  exact ⟨fun ⟨p, ha, hd, hr⟩ => ⟨⟨_, ha⟩, ⟨_, hd⟩, ⟨_, hr⟩⟩,
    fun ⟨⟨a, ha⟩, ⟨d, hd⟩, ⟨r, hr⟩⟩ => ⟨⟨a, d, r⟩, ha, hd, hr⟩⟩

/-! ### The decision -/

lemma isAllowed_eq_true_iff (policy : TargetPolicy) (addr : IpAddr) :
    policy.isAllowed addr = true ↔
      policy.deny.any (·.contains addr.toCanonical) = false ∧
        policy.allow.any (·.contains addr.toCanonical) = true ∧
          ∀ r ∈ policy.restrictions, r.deny.any (·.contains addr.toCanonical) = false ∧
            ∀ allowed ∈ r.allow, allowed.any (·.contains addr.toCanonical) = true := by
  unfold TargetPolicy.isAllowed
  cases policy.restrictions with
  | none => simp
  | some r => cases hr : r.allow <;> simp [hr, and_comm, and_left_comm, and_assoc]

theorem isAllowed_iff_admits (h : listenerPolicy parse allow deny rules = .ok policy)
    (addr : IpAddr) :
    policy.isAllowed addr = true ↔ Admits parse allow deny rules addr.toCanonical := by
  rw [listenerPolicy_ok_iff] at h
  obtain ⟨ha, hd, hr⟩ := h
  rw [isAllowed_eq_true_iff, ← Bool.not_eq_true, parseCidrs_covers hd, parseCidrs_covers ha]
  refine and_congr_right fun _ => and_congr_right fun _ => ?_
  rw [option_mapM_ok_iff] at hr
  obtain ⟨rfl, hnone⟩ | ⟨listener, r, rfl, hs, hsome⟩ := hr
  · simp [hnone]
  · rw [fromSection_ok_iff] at hs
    obtain ⟨_, hallow, hdeny⟩ := hs
    simp only [hsome, mem_some_iff, forall_eq', ← Bool.not_eq_true,
      parseRules_covers hdeny]
    refine and_congr_right fun _ => ?_
    rw [option_mapM_ok_iff] at hallow
    obtain ⟨hn, hn'⟩ | ⟨allowed, nets, hs, hp, hs'⟩ := hallow
    · simp [hn, hn']
    · simp only [hs, hs', mem_some_iff, forall_eq', parseRules_covers hp]

theorem isAllowed_mapped (policy : TargetPolicy) (a : Ipv4Addr) :
    policy.isAllowed (.v6 (toIpv6Mapped a)) = policy.isAllowed (.v4 a) := by
  unfold TargetPolicy.isAllowed
  rw [toCanonical_mapped]
  rfl

theorem isAllowed_withRestrictions (hp : policy.restrictions = none) (r : Option TargetRestrictions)
    {addr : IpAddr} (h : (policy.withRestrictions r).isAllowed addr = true) :
    policy.isAllowed addr = true := by
  rw [isAllowed_eq_true_iff] at h ⊢
  obtain ⟨hd, ha, _⟩ := h
  exact ⟨hd, ha, by simp [hp]⟩

theorem allowsPort_iff_mem {listener : TargetRestrictionSection}
    (h : listenerPolicy parse allow deny (some listener) = .ok policy) {ports : List Port}
    (hports : listener.allowPorts = some ports) (p : Port) :
    policy.allowsPort p = true ↔ p ∈ ports := by
  rw [listenerPolicy_ok_iff, option_mapM_ok_iff] at h
  obtain ⟨-, -, ⟨hn, _⟩ | ⟨s, r, hs, hr, hsome⟩⟩ := h
  · cases hn
  · cases hs
    rw [fromSection_ok_iff, option_mapM_ok_iff] at hr
    obtain ⟨⟨hn, _⟩ | ⟨configured, stored, hc, hstored, hsome'⟩, -, -⟩ := hr
    · rw [hports] at hn
      cases hn
    · rw [hports, some.injEq] at hc
      rw [restrictPorts_ok_iff] at hstored
      unfold TargetPolicy.allowsPort
      simp only [hsome, bind_some, hsome', hstored.2, binarySearch_sorted_dedup, hc]

/-- A mapped network of at least 96 fixed bits is stored as the IPv4 network that contains
exactly the addresses whose mapped forms it contained. -/
theorem canonicalNet_readsAsIpv4 {n : Cidr 128} (h : ReadsAsIpv4 n) :
    ∃ m : Cidr 32, canonicalNet (.v6 n) = .v4 m ∧ m.prefixLen + 96 = n.prefixLen ∧
      ∀ a, m.contains a = true ↔ n.contains (toIpv6Mapped a) = true := by
  obtain ⟨hlen, b, hb⟩ := h
  have hle : n.prefixLen - 96 ≤ 32 := by have := n.prefixLen_le; omega
  refine ⟨⟨b, n.prefixLen - 96, hle⟩, ?_, Nat.sub_add_cancel hlen,
    canonicalNet_mapped_contains hlen hb hle⟩
  simp [canonicalNet, hlen, hb]

end Rules

/-- A listener's policy exists exactly when every entry is well formed, and it then decides
the documented set of addresses and ports. -/
theorem listenerPolicy_decides (parse : String → Option IpNet) (allow deny : List String)
    (rules : Option TargetRestrictionSection) :
    ((∃ policy, listenerPolicy parse allow deny rules = .ok policy) ↔
      RulesParse parse allow ∧ RulesParse parse deny ∧
        ∀ listener ∈ rules, SectionValid parse listener) ∧
    (∀ n, ReadsAsIpv4 n → ∃ m : Cidr 32, canonicalNet (.v6 n) = .v4 m ∧
      m.prefixLen + 96 = n.prefixLen ∧
        ∀ a, m.contains a = true ↔ n.contains (toIpv6Mapped a) = true) ∧
    ∀ policy, listenerPolicy parse allow deny rules = .ok policy →
      (∀ addr, policy.isAllowed addr = true ↔ Admits parse allow deny rules addr.toCanonical) ∧
      (∀ a, policy.isAllowed (.v6 (toIpv6Mapped a)) = policy.isAllowed (.v4 a)) ∧
      (∃ base, TargetPolicy.new parse allow deny = .ok base ∧
        ∀ addr, policy.isAllowed addr = true → base.isAllowed addr = true) ∧
      ∀ listener ∈ rules, ∀ ports ∈ listener.allowPorts, ∀ p,
        policy.allowsPort p = true ↔ p ∈ ports := by
  refine ⟨listenerPolicy_ok_iff_valid allow deny rules, fun n h => canonicalNet_readsAsIpv4 h, ?_⟩
  intro policy h
  refine ⟨isAllowed_iff_admits h, isAllowed_mapped policy, ?_, ?_⟩
  · have hparts := listenerPolicy_ok_iff.mp h
    refine ⟨⟨policy.allow, policy.deny, none⟩, new_ok_iff.mpr ⟨hparts.1, hparts.2.1, rfl⟩, ?_⟩
    intro addr haddr
    exact isAllowed_withRestrictions rfl policy.restrictions haddr
  · intro listener hl ports hp p
    rw [mem_def] at hl
    subst hl
    exact allowsPort_iff_mem h hp p

/-- With `10.0.0.0/8` allowed and the ports 443, 80, 443 listed, the mapped spelling of
`10.1.2.3` passes, and of the ports 80 does. -/
theorem listenerPolicy_decides_private :
    ∃ policy, listenerPolicy
        (fun text => if text = "10.0.0.0/8" then some (.v4 ⟨0x0a000000, 8, by decide⟩) else none)
        ["10.0.0.0/8"] [] (some ⟨none, [], some [443, 80, 443]⟩) = .ok policy ∧
      policy.isAllowed (.v6 (toIpv6Mapped 0x0a010203)) = true ∧
        policy.allowsPort 80 = true ∧ policy.allowsPort 81 = false := by
  have h := listenerPolicy_decides
    (fun text => if text = "10.0.0.0/8" then some (.v4 ⟨0x0a000000, 8, by decide⟩) else none)
    ["10.0.0.0/8"] [] (some ⟨none, [], some [443, 80, 443]⟩)
  obtain ⟨policy, hp⟩ := h.1.mpr ⟨by simp [RulesParse], by simp [RulesParse],
    by simp [SectionValid, RulesParse]⟩
  obtain ⟨hallowed, hmapped, -, hports⟩ := h.2.2 policy hp
  refine ⟨policy, hp, ?_, (hports _ rfl _ rfl 80).mpr (by decide), ?_⟩
  · rw [hallowed, toCanonical_mapped]
    refine ⟨by simp [RulesCover], ⟨"10.0.0.0/8", by simp, _, if_pos rfl, ?_⟩,
      by simp [RulesCover]⟩
    show Cidr.contains _ _ = true
    decide
  · rw [← Bool.not_eq_true, hports _ rfl _ rfl 81]
    decide

end MasqueServer
