import MasqueServer.AddressReplies
import MasqueServer.ServerSettings
import MasqueServer.TargetPolicy

/-!
# Planning the listeners

Two listeners of one transport must not claim the same packets. Addresses are compared in canonical
form; an unspecified address claims its whole family, and the IPv6 one claims IPv4 too.
-/
namespace MasqueServer

open List

/-! ### Conflicts of two addresses -/

namespace ListenerAddress

def addressCovers (wildcard other : IpAddr) : Bool :=
  match wildcard with
  | .v4 v4 => isUnspecified (.v4 v4) && isV4 other
  | .v6 v6 => isUnspecified (.v6 v6)

def canonicalIp (ip : IpAddr) : IpAddr :=
  match ip with
  | .v6 v6 => (toIpv4Mapped v6).elim ip .v4
  | .v4 _ => ip

def isUnicastLinkLocal (ip : Ipv6Addr) : Bool := (ip >>> 112) &&& 0xffc0 = 0xfe80

/-- Scopes tell link-local addresses apart, except that scope zero may be any of them. -/
def sameCanonicalAddress (a b : SocketAddr) : Bool :=
  let canonicalA := canonicalIp a.ip
  let canonicalB := canonicalIp b.ip
  if canonicalA ≠ canonicalB then false
  else
    match canonicalA, a, b with
    | .v6 ip, .v6 _ _ _ scopeA, .v6 _ _ _ scopeB =>
      if isUnicastLinkLocal ip then scopeA = 0 || scopeB = 0 || scopeA = scopeB else true
    | _, _, _ => true

end ListenerAddress

open ListenerAddress

inductive AddressConflict
  | identical
  | sameAddress
  | wildcardCovers
  deriving DecidableEq

def listenAddressConflict (a b : SocketAddr) : Option AddressConflict :=
  if a.port ≠ b.port then none
  else if a.port = 0 then none
  else if a = b then some .identical
  else
    let canonicalA := ListenerAddress.canonicalIp a.ip
    let canonicalB := ListenerAddress.canonicalIp b.ip
    if sameCanonicalAddress a b then some .sameAddress
    else if addressCovers canonicalA canonicalB || addressCovers canonicalB canonicalA then
      some .wildcardCovers
    else none

/-- A local destination of packets: an address in canonical form, on a link. -/
structure Destination where
  ip : IpAddr
  scope : BitVec 32

/-- The destinations a socket claims: a mapped address is its IPv4 address, `0.0.0.0` claims all
of IPv4 and `::` everything, and only a link-local address of a scope other than zero is bound
to one link. -/
def Claims (a : SocketAddr) (destination : Destination) : Prop :=
  match a.ip.toCanonical with
  | .v4 ip => if ip = 0 then isV4 destination.ip = true else destination.ip = .v4 ip
  | .v6 ip =>
    if ip = 0 then True
    else destination.ip = .v6 ip ∧
      (isUnicastLinkLocal ip = true → a.scopeId = 0 ∨ destination.scope = a.scopeId)

lemma ListenerAddress.canonicalIp_eq (ip : IpAddr) :
    ListenerAddress.canonicalIp ip = ip.toCanonical := by
  cases ip with
  | v4 ip => rfl
  | v6 ip =>
    rw [ListenerAddress.canonicalIp, IpAddr.toCanonical]
    cases toIpv4Mapped ip <;> rfl

variable {a : SocketAddr} {listener : ListenerEntry} {plan : ResolvedListener}
  {plans : List ResolvedListener} {done : List ListenerEntry}

lemma exists_v6_of_toCanonical {ip : Ipv6Addr} (h : a.ip.toCanonical = .v6 ip) :
    ∃ raw port flowinfo scopeId, a = .v6 raw port flowinfo scopeId := by
  cases a with
  | v4 raw port => cases h
  | v6 raw port flowinfo scopeId => exact ⟨raw, port, flowinfo, scopeId, rfl⟩

lemma sameCanonicalAddress_iff {b : SocketAddr} :
    sameCanonicalAddress a b = true ↔ a.ip.toCanonical = b.ip.toCanonical ∧
      ∀ ip, a.ip.toCanonical = .v6 ip → isUnicastLinkLocal ip = true →
        a.scopeId = 0 ∨ b.scopeId = 0 ∨ a.scopeId = b.scopeId := by
  unfold sameCanonicalAddress
  simp only [ListenerAddress.canonicalIp_eq]
  by_cases heq : a.ip.toCanonical = b.ip.toCanonical
  · rw [if_neg (not_not.mpr heq)]
    cases hcanonical : a.ip.toCanonical with
    | v4 ip => simp [← heq, hcanonical]
    | v6 ip =>
      obtain ⟨rawA, portA, flowA, scopeA, rfl⟩ := exists_v6_of_toCanonical hcanonical
      obtain ⟨rawB, portB, flowB, scopeB, rfl⟩ :=
        exists_v6_of_toCanonical (heq.symm.trans hcanonical)
      cases hlocal : isUnicastLinkLocal ip <;>
        simp [hlocal, ← heq, hcanonical, SocketAddr.scopeId, or_assoc]
  · simp [heq]

lemma sameCanonicalAddress_comm (a b : SocketAddr) :
    sameCanonicalAddress a b = sameCanonicalAddress b a := by
  rw [Bool.eq_iff_iff, sameCanonicalAddress_iff, sameCanonicalAddress_iff]
  constructor <;>
  · rintro ⟨heq, hscope⟩
    refine ⟨heq.symm, fun ip hip hlocal => ?_⟩
    rcases hscope ip (heq.trans hip) hlocal with hzero | hzero | hequal
    · exact .inr (.inl hzero)
    · exact .inl hzero
    · exact .inr (.inr hequal.symm)

def Overlaps (a b : SocketAddr) : Prop :=
  sameCanonicalAddress a b = true ∨ addressCovers a.ip.toCanonical b.ip.toCanonical = true ∨
    addressCovers b.ip.toCanonical a.ip.toCanonical = true

/-- The destination is the socket's own address, on a link the socket is bound to. -/
def Names (a : SocketAddr) (destination : Destination) : Prop :=
  destination.ip = a.ip.toCanonical ∧ ∀ ip, a.ip.toCanonical = .v6 ip →
    isUnicastLinkLocal ip = true → a.scopeId = 0 ∨ destination.scope = a.scopeId

lemma claims_iff {destination : Destination} :
    Claims a destination ↔
      addressCovers a.ip.toCanonical destination.ip = true ∨ Names a destination := by
  unfold Claims Names
  cases hcanonical : a.ip.toCanonical with
  | v4 ip =>
    simp only
    by_cases hzero : ip = 0
    · have hcovers : addressCovers (.v4 ip) destination.ip = isV4 destination.ip := by
        rw [addressCovers, isUnspecified, decide_eq_true hzero, Bool.true_and]
      rw [if_pos hzero, hcovers]
      refine ⟨.inl, fun h => h.elim id fun hnamed => ?_⟩
      rw [hnamed.1]
      rfl
    · have hcovers : addressCovers (.v4 ip) destination.ip = false := by
        rw [addressCovers, isUnspecified, decide_eq_false hzero, Bool.false_and]
      rw [if_neg hzero, hcovers]
      simp
  | v6 ip =>
    simp only
    by_cases hzero : ip = 0
    · have hcovers : addressCovers (.v6 ip) destination.ip = true := decide_eq_true hzero
      rw [if_pos hzero, hcovers]
      simp
    · have hcovers : addressCovers (.v6 ip) destination.ip = false := decide_eq_false hzero
      rw [if_neg hzero, hcovers]
      simp

lemma addressCovers_of_common {a b other : IpAddr} (ha : addressCovers a other = true)
    (hb : addressCovers b other = true) : addressCovers a b = true ∨ addressCovers b a = true := by
  cases a with
  | v6 a => exact .inl ha
  | v4 a =>
    cases b with
    | v6 b => exact .inr hb
    | v4 b =>
      rw [addressCovers, Bool.and_eq_true] at ha
      left
      rw [addressCovers, ha.1]
      rfl

lemma overlaps_iff_claims (a b : SocketAddr) :
    Overlaps a b ↔ ∃ destination, Claims a destination ∧ Claims b destination := by
  have hown (x : SocketAddr) : Names x ⟨x.ip.toCanonical, x.scopeId⟩ :=
    ⟨rfl, fun _ _ _ => .inr rfl⟩
  simp only [claims_iff]
  constructor
  · rintro (hsame | hcovers | hcovers)
    · obtain ⟨heq, hscope⟩ := sameCanonicalAddress_iff.mp hsame
      refine ⟨⟨a.ip.toCanonical, if a.scopeId = 0 then b.scopeId else a.scopeId⟩,
        .inr ⟨rfl, fun _ _ _ => ?_⟩, .inr ⟨heq, fun ip hip hlocal => ?_⟩⟩
      · by_cases hzero : a.scopeId = 0
        · exact .inl hzero
        · exact .inr (if_neg hzero)
      · by_cases hzero : a.scopeId = 0
        · exact .inr (if_pos hzero)
        · rcases hscope ip (heq.trans hip) hlocal with hbad | hbzero | hequal
          · exact absurd hbad hzero
          · exact .inl hbzero
          · exact .inr ((if_neg hzero).trans hequal)
    · exact ⟨_, .inl hcovers, .inr (hown b)⟩
    · exact ⟨_, .inr (hown a), .inl hcovers⟩
  · rintro ⟨destination, ha | ha, hb | hb⟩
    · exact .inr (addressCovers_of_common ha hb)
    · exact .inr (.inl (hb.1 ▸ ha))
    · exact .inr (.inr (ha.1 ▸ hb))
    · have heq : a.ip.toCanonical = b.ip.toCanonical := ha.1.symm.trans hb.1
      refine .inl (sameCanonicalAddress_iff.mpr ⟨heq, fun ip hip hlocal => ?_⟩)
      rcases ha.2 ip hip hlocal with hzero | hscope
      · exact .inl hzero
      · rcases hb.2 ip (heq.symm.trans hip) hlocal with hzero | hscope'
        · exact .inr (.inl hzero)
        · exact .inr (.inr (hscope.symm.trans hscope'))

lemma listenAddressConflict_isSome_iff {b : SocketAddr} :
    (listenAddressConflict a b).isSome = true ↔
      a.port = b.port ∧ a.port ≠ 0 ∧ Overlaps a b := by
  unfold listenAddressConflict Overlaps
  simp only [ListenerAddress.canonicalIp_eq]
  by_cases hport : a.port = b.port
  · by_cases hzero : a.port = 0
    · rw [if_neg (not_not.mpr hport), if_pos hzero]
      exact ⟨nofun, fun h => absurd hzero h.2.1⟩
    · rw [if_neg (not_not.mpr hport), if_neg hzero]
      by_cases heq : a = b
      · subst heq
        have hself : sameCanonicalAddress a a = true :=
          sameCanonicalAddress_iff.mpr ⟨rfl, fun _ _ _ => .inr (.inr rfl)⟩
        rw [if_pos rfl]
        exact ⟨fun _ => ⟨rfl, hzero, .inl hself⟩, fun _ => rfl⟩
      · rw [if_neg heq]
        split_ifs with hsame hcovers
        · exact ⟨fun _ => ⟨hport, hzero, .inl hsame⟩, fun _ => rfl⟩
        · rw [Bool.or_eq_true] at hcovers
          exact ⟨fun _ => ⟨hport, hzero, .inr hcovers⟩, fun _ => rfl⟩
        · rw [Bool.or_eq_true] at hcovers
          exact ⟨nofun, fun h => absurd h.2.2 (not_or.mpr ⟨hsame, hcovers⟩)⟩
  · rw [if_pos hport]
    exact ⟨nofun, fun h => absurd h.1 hport⟩

lemma listenAddressConflict_symm (a b : SocketAddr) :
    listenAddressConflict a b = listenAddressConflict b a := by
  unfold listenAddressConflict
  by_cases hport : a.port = b.port
  · rw [if_neg (not_not.mpr hport), if_neg (not_not.mpr hport.symm), hport]
    by_cases heq : a = b
    · rw [heq]
    · rw [if_neg heq, if_neg (Ne.symm heq), sameCanonicalAddress_comm]
      simp only [Bool.or_comm]
  · rw [if_pos hport, if_pos (Ne.symm hport)]

/-! ### The plan -/

def maxShards : ℕ := 32

/-- The settings of a listener that planning reads. -/
structure ListenerEntry extends ListenerSection where
  shards : ℕ
  maxDatagramSize : Option ℕ
  tcpTargets : Option TargetRestrictionSection
  udpTargets : Option TargetRestrictionSection

structure ResolvedListener where
  listenAddr : SocketAddr
  transport : Transport
  shards : ℕ
  maxDatagramSize : Option ℕ
  tcpTargets : Option TargetRestrictions
  udpTargets : Option TargetRestrictions
  auth : ListenerAuth

inductive PlanError
  | noListeners
  | conflict (kind : AddressConflict) (existing new : SocketAddr)
  | http2Shards (addr : SocketAddr)
  | shardsPerCore (addr : SocketAddr)
  | reusePort (addr : SocketAddr) (shards : ℕ)
  | tcpTargets (addr : SocketAddr) (cause : PolicyError)
  | udpTargets (addr : SocketAddr) (cause : PolicyError)
  | tooManyShards (listeners totalShards : ℕ)

/-- What planning asks of its host. -/
structure Host where
  linux : Bool
  parallelism : Option ℕ
  parseNet : String → Option IpNet

namespace Host

variable (host : Host)

def resolveShardCount (configured : ℕ) : ℕ :=
  if 0 < configured then min configured maxShards
  else if !host.linux then 1
  else min (host.parallelism.getD 1) maxShards

def findConflict (plans : List ResolvedListener) (listener : ListenerEntry) :
    Option (SocketAddr × AddressConflict) :=
  plans.findSome? fun plan =>
    if plan.transport ≠ listener.transport then none
    else (listenAddressConflict plan.listenAddr listener.listenAddr).map fun conflict =>
      (plan.listenAddr, conflict)

def listenerShards (count : ℕ) (listener : ListenerEntry) : Except PlanError ℕ :=
  let shards := if listener.transport = .http3 then host.resolveShardCount listener.shards else 1
  if listener.transport = .http2 ∧ listener.shards ≠ 1 then
    .error (.http2Shards listener.listenAddr)
  else if listener.transport = .http3 ∧ listener.shards = 0 ∧ 1 < count then
    .error (.shardsPerCore listener.listenAddr)
  else if listener.transport = .http3 ∧ 1 < shards ∧ !host.linux then
    .error (.reusePort listener.listenAddr shards)
  else .ok shards

def resolveListener (shards : ℕ) (listener : ListenerEntry) :
    Except PlanError ResolvedListener := do
  let restrict := TargetRestrictions.fromSection host.parseNet
  let tcpTargets ← (listener.tcpTargets.mapM restrict).mapError (.tcpTargets listener.listenAddr)
  let udpTargets ← (listener.udpTargets.mapM restrict).mapError (.udpTargets listener.listenAddr)
  return ⟨listener.listenAddr, listener.transport, shards, listener.maxDatagramSize, tcpTargets,
    udpTargets, listener.auth⟩

def planListener (count : ℕ) (plans : List ResolvedListener) (listener : ListenerEntry) :
    Except PlanError ResolvedListener :=
  match findConflict plans listener with
  | some (existing, kind) => .error (.conflict kind existing listener.listenAddr)
  | none => do
    let shards ← host.listenerShards count listener
    host.resolveListener shards listener

def planLoop (count : ℕ) : List ListenerEntry → List ResolvedListener → ℕ →
    Except PlanError (List ResolvedListener × ℕ)
  | [], plans, totalShards => .ok (plans, totalShards)
  | listener :: rest, plans, totalShards => do
    let plan ← host.planListener count plans listener
    planLoop count rest (plans ++ [plan])
      (if listener.transport = .http3 then totalShards + plan.shards else totalShards)

def planListeners (listeners : List ListenerEntry) : Except PlanError (List ResolvedListener) := do
  if listeners = [] then throw .noListeners
  let (plans, totalShards) ← host.planLoop listeners.length listeners [] 0
  if maxShards < totalShards then throw (.tooManyShards plans.length totalShards)
  return plans

end Host

/-- Two listeners of one transport with fixed ports claim a common destination and port. -/
def Contend (x y : ListenerSection) : Prop :=
  x.transport = y.transport ∧ x.listenAddr.port ≠ 0 ∧ y.listenAddr.port ≠ 0 ∧
    x.listenAddr.port = y.listenAddr.port ∧
    ∃ destination, Claims x.listenAddr destination ∧ Claims y.listenAddr destination

lemma Contend.conflict {x y : ListenerSection} (h : Contend x y) :
    (listenAddressConflict x.listenAddr y.listenAddr).isSome = true := by
  obtain ⟨-, hport, -, hsame, hcommon⟩ := h
  exact listenAddressConflict_isSome_iff.mpr
    ⟨hsame, hport, (overlaps_iff_claims _ _).mpr hcommon⟩

variable {host : Host} {count : ℕ}

lemma resolveListener_ok {shards : ℕ} (h : host.resolveListener shards listener = .ok plan) :
    plan.listenAddr = listener.listenAddr ∧ plan.transport = listener.transport := by
  unfold Host.resolveListener at h
  simp only [bind_ok_iff] at h
  obtain ⟨_, -, _, -, hplan⟩ := h
  cases hplan
  exact ⟨rfl, rfl⟩

lemma planListener_ok (h : host.planListener count plans listener = .ok plan) :
    plan.listenAddr = listener.listenAddr ∧ plan.transport = listener.transport ∧
      ∀ other ∈ plans, other.transport = listener.transport →
        listenAddressConflict other.listenAddr listener.listenAddr = none := by
  unfold Host.planListener at h
  cases hfind : Host.findConflict plans listener with
  | some found => rw [hfind] at h; cases h
  | none =>
    simp only [hfind, bind_ok_iff] at h
    obtain ⟨shards, -, hresolve⟩ := h
    obtain ⟨haddr, htransport⟩ := resolveListener_ok hresolve
    refine ⟨haddr, htransport, fun other hmem hsame => ?_⟩
    have hnone := findSome?_eq_none_iff.mp hfind other hmem
    rw [if_neg (not_not.mpr hsame), Option.map_eq_none_iff] at hnone
    exact hnone

/-- The plans are the listeners planned so far, and no two of them contend. -/
structure Planned (listeners : List ListenerEntry) (plans : List ResolvedListener) : Prop where
  same : plans.map (fun plan => (plan.listenAddr, plan.transport)) =
    listeners.map fun listener => (listener.listenAddr, listener.transport)
  apart : listeners.Pairwise fun x y => ¬Contend x.toListenerSection y.toListenerSection

lemma Planned.concat (h : Planned done plans)
    (hplan : host.planListener count plans listener = .ok plan) :
    Planned (done ++ [listener]) (plans ++ [plan]) := by
  obtain ⟨haddr, htransport, hfree⟩ := planListener_ok hplan
  refine ⟨by simp [h.same, haddr, htransport], ?_⟩
  rw [pairwise_append]
  refine ⟨h.apart, pairwise_singleton _ _, fun x hx y hy => ?_⟩
  obtain rfl := mem_singleton.mp hy
  have hmem : (x.listenAddr, x.transport) ∈
      plans.map fun plan => (plan.listenAddr, plan.transport) := by
    rw [h.same]
    exact List.mem_map_of_mem hx
  obtain ⟨other, hother, heq⟩ := List.mem_map.mp hmem
  obtain ⟨hotherAddr, hotherTransport⟩ := Prod.mk.inj heq
  intro hcontend
  have hsome := hcontend.conflict
  rw [← hotherAddr, hfree other hother (hotherTransport.trans hcontend.1)] at hsome
  cases hsome

lemma planLoop_planned {rest : List ListenerEntry} {plans' : List ResolvedListener}
    {totalShards totalShards' : ℕ} (h : Planned done plans)
    (hloop : host.planLoop count rest plans totalShards = .ok (plans', totalShards')) :
    Planned (done ++ rest) plans' := by
  induction rest generalizing done plans totalShards with
  | nil =>
    cases hloop
    rwa [append_nil]
  | cons listener rest ih =>
    simp only [Host.planLoop, bind_ok_iff] at hloop
    obtain ⟨plan, hplan, hrest⟩ := hloop
    have hplanned := ih (h.concat hplan) hrest
    rwa [append_assoc, singleton_append] at hplanned

/-- Conflicts between listeners are found exactly: the comparison is symmetric, reports two
addresses of one fixed port exactly when their sockets claim a common destination, and never
others; so planning accepts a list only if no two listeners of it contend. -/
theorem listenerConflicts_exact :
    (∀ a b, listenAddressConflict a b = listenAddressConflict b a) ∧
    (∀ a b : SocketAddr, a.port = b.port → a.port ≠ 0 →
      ((listenAddressConflict a b).isSome = true ↔
        ∃ destination, Claims a destination ∧ Claims b destination)) ∧
    (∀ a b : SocketAddr, a.port ≠ b.port ∨ a.port = 0 ∨ b.port = 0 →
      listenAddressConflict a b = none) ∧
    (∀ (host : Host) (listeners : List ListenerEntry) (plans : List ResolvedListener),
      host.planListeners listeners = .ok plans →
      listeners.Pairwise fun x y => ¬Contend x.toListenerSection y.toListenerSection) := by
  refine ⟨listenAddressConflict_symm, fun a b hport hzero => ?_, fun a b hfree => ?_,
    fun host listeners plans hok => ?_⟩
  · rw [listenAddressConflict_isSome_iff, overlaps_iff_claims]
    exact ⟨fun h => h.2.2, fun h => ⟨hport, hzero, h⟩⟩
  · rw [← Option.not_isSome_iff_eq_none, listenAddressConflict_isSome_iff]
    rintro ⟨hport, hzero, -⟩
    rcases hfree with hne | ha | hb
    · exact hne hport
    · exact hzero ha
    · exact hzero (hport.trans hb)
  · unfold Host.planListeners at hok
    split_ifs at hok
    · cases hok
    · simp only [bind_ok_iff] at hok
      obtain ⟨⟨plans', totalShards⟩, hloop, -⟩ := hok
      exact (planLoop_planned ⟨rfl, List.Pairwise.nil⟩ hloop).apart

/-- One port for HTTP/3 on two addresses of one host and for HTTP/2 on all of them. -/
def threeListeners : List ListenerEntry :=
  let entry (addr : SocketAddr) (transport : Transport) : ListenerEntry :=
    { listenAddr := addr, transport, auth := ⟨⟨"", "", []⟩, true, .clientCert⟩, tuning := "",
      shards := 1, maxDatagramSize := none, tcpTargets := none, udpTargets := none }
  [entry (.v4 0xc0000201 443) .http3, entry (.v4 0xc0000202 443) .http3, entry (.v4 0 443) .http2]

theorem listenerConflicts_exact_three :
    ∃ plans, Host.planListeners ⟨true, none, fun _ => none⟩ threeListeners = .ok plans ∧
      plans.length = 3 ∧
      threeListeners.Pairwise fun x y => ¬Contend x.toListenerSection y.toListenerSection := by
  obtain ⟨plans, hplans⟩ : ∃ plans,
      Host.planListeners ⟨true, none, fun _ => none⟩ threeListeners = .ok plans := ⟨_, rfl⟩
  have hlength : (Host.planListeners ⟨true, none, fun _ => none⟩ threeListeners).map List.length =
      .ok 3 := rfl
  rw [hplans] at hlength
  exact ⟨plans, hplans, Except.ok.inj hlength,
    listenerConflicts_exact.2.2.2 _ threeListeners plans hplans⟩

end MasqueServer
