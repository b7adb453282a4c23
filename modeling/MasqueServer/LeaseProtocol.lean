import MasqueServer.IpPacket
import MasqueServer.TunnelLeases

/-!
# Leases and routes of CONNECT-IP tunnels

The address pool, the routing table and the two maps of live tunnels sit behind locks of their own,
and a tunnel takes them one at a time. A task walks through the phases of its transport; each of its
actions is one locked step and touches one shared structure.
-/
namespace MasqueServer

open List

structure TunnelOwner where
  connId : ℕ
  streamId : ℕ
  deriving DecidableEq

abbrev RoutingTable := Table IpAddr TunnelOwner

namespace RoutingTable

variable (routes : RoutingTable)

variable (addrs : List IpAddr)

variable (owner : TunnelOwner)

def insertAll : RoutingTable :=
  addrs.foldl (fun routes addr => routes.put addr owner) routes

def removeOwned : RoutingTable :=
  addrs.foldl
    (fun routes addr => if routes.get addr = some owner then routes.remove addr else routes) routes

theorem get_insertAll (a : IpAddr) :
    (routes.insertAll addrs owner).get a = if a ∈ addrs then some owner else routes.get a := by
  induction addrs generalizing routes with
  | nil => rfl
  | cons addr rest ih =>
    have h := ih (routes.put addr owner)
    simp only [insertAll, foldl_cons] at h ⊢
    rw [h, Table.get_put]
    by_cases ha : a = addr <;> by_cases hr : a ∈ rest <;> simp [ha, hr]

theorem get_removeOwned (a : IpAddr) : (routes.removeOwned addrs owner).get a =
      if a ∈ addrs ∧ routes.get a = some owner then none else routes.get a := by
  induction addrs generalizing routes with
  | nil => simp [removeOwned]
  | cons addr rest ih =>
    have h := ih (if routes.get addr = some owner then routes.remove addr else routes)
    simp only [removeOwned, foldl_cons] at h ⊢
    rw [h]
    by_cases ho : routes.get addr = some owner
    · by_cases ha : a = addr
      · subst ha
        simp [ho]
      · simp [ho, ha]
    · by_cases ha : a = addr
      · subst ha
        simp [ho]
      · simp [ho, ha]

end RoutingTable

/-! ### Phases -/

inductive Http3Phase
  | refused
  | leased
  | routing (inserted : ℕ)
  | live
  | dropped
  | released
  | ended
  deriving DecidableEq

inductive Http2Phase
  | refused
  | leased
  | registered
  | live
  | unregistered
  | unrouted
  | ended
  deriving DecidableEq

inductive Phase
  | http3 (p : Http3Phase)
  | http2 (p : Http2Phase)
  deriving DecidableEq

inductive Transport
  | http3
  | http2
  deriving DecidableEq

def Transport.leased : Transport → Phase
  | .http3 => .http3 .leased
  | .http2 => .http2 .leased

def Transport.refused : Transport → Phase
  | .http3 => .http3 .refused
  | .http2 => .http2 .refused

/-- One locked step of a tunnel's own task. -/
inductive TunnelAction
  | respond
  | abort
  | insertRoute
  | publish
  | withdraw
  | register
  | routeAll
  | unregister
  | release
  | unroute
  deriving DecidableEq

def TunnelAction.isTeardown : TunnelAction → Bool
  | .abort | .withdraw | .unregister | .release | .unroute => true
  | _ => false

/-- What an action does to the shared structures. -/
inductive Effect
  | keep
  | release
  | route (addrs : List IpAddr)
  | unroute
  | publish
  | withdraw
  | register
  | unregister
  deriving DecidableEq

namespace Phase

/-- The transition table. `respond` is a response HTTP/3 accepts, `abort` one that is blocked,
fails, or finds the HTTP/3 state gone. -/
def next (addrs : List IpAddr) : Phase → TunnelAction → Option (Effect × Phase)
  | .http3 .leased, .respond => some (.keep, .http3 (.routing 0))
  | .http3 .leased, .abort => some (.release, .http3 .refused)
  | .http3 (.routing n), .insertRoute =>
    addrs[n]?.map fun addr => (.route [addr], .http3 (.routing (n + 1)))
  | .http3 (.routing n), .publish =>
    if addrs.length ≤ n then some (.publish, .http3 .live) else none
  | .http3 .live, .withdraw => some (.withdraw, .http3 .dropped)
  | .http3 .dropped, .release => some (.release, .http3 .released)
  | .http3 .released, .unroute => some (.unroute, .http3 .ended)
  | .http2 .leased, .register => some (.register, .http2 .registered)
  | .http2 .registered, .routeAll => some (.route addrs, .http2 .live)
  | .http2 .live, .unregister => some (.unregister, .http2 .unregistered)
  | .http2 .unregistered, .unroute => some (.unroute, .http2 .unrouted)
  | .http2 .unrouted, .release => some (.release, .http2 .ended)
  | _, _ => none

def holdsLease : Phase → Bool
  | .http3 .leased | .http3 (.routing _) | .http3 .live | .http3 .dropped => true
  | .http2 .leased | .http2 .registered | .http2 .live | .http2 .unregistered
  | .http2 .unrouted => true
  | _ => false

def mayRoute : Phase → Bool
  | .http3 (.routing _) | .http3 .live | .http3 .dropped | .http3 .released => true
  | .http2 .live | .http2 .unregistered => true
  | _ => false

def isLive (p : Phase) : Bool := p = .http3 .live ∨ p = .http2 .live

def isPublished (p : Phase) : Bool := p = .http3 .live

def isRegistered (p : Phase) : Bool := p = .http2 .registered ∨ p = .http2 .live

def started : Phase → Bool
  | .http3 .refused | .http3 .leased => false
  | .http2 .refused | .http2 .leased | .http2 .registered => false
  | _ => true

def hasEnded (p : Phase) : Bool := p = .http3 .ended ∨ p = .http2 .ended

/-- The addresses whose routes this tunnel has inserted, as long as it is not torn down. -/
def installed (addrs : List IpAddr) : Phase → List IpAddr
  | .http3 (.routing n) => addrs.take n
  | .http3 .live | .http2 .live => addrs
  | _ => []

lemma started_of_mayRoute {p : Phase} (h : p.mayRoute = true) : p.started = true := by
  unfold mayRoute at h
  split at h <;> first | rfl | cases h

lemma installed_holds {addrs : List IpAddr} {p : Phase} {a : IpAddr} (h : a ∈ p.installed addrs) :
    p.holdsLease = true ∧ a ∈ addrs := by
  unfold installed at h
  split at h
  · exact ⟨rfl, mem_of_mem_take h⟩
  · exact ⟨rfl, h⟩
  · exact ⟨rfl, h⟩
  · cases h

/-- What a transition of the table guarantees about the phases before and after it. -/
structure Moves (addrs : List IpAddr) (p : Phase) (effect : Effect) (p' : Phase) : Prop where
  holdsLease_eq : effect ≠ .release → p'.holdsLease = p.holdsLease
  release_holds : effect = .release → p.holdsLease = true ∧ p'.holdsLease = false
  route_holds : ∀ routed, effect = .route routed →
    routed ⊆ addrs ∧ p.holdsLease = true ∧ p'.mayRoute = true
  mayRoute_of : p.mayRoute = true → effect ≠ .unroute → p'.mayRoute = true
  isPublished_eq : p'.isPublished =
    (effect = .publish || (p.isPublished && decide (effect ≠ .withdraw)))
  isRegistered_eq : p'.isRegistered =
    (effect = .register || (p.isRegistered && decide (effect ≠ .unregister)))
  started_of : p.started = true → p'.started = true
  unroute_installed : effect = .unroute → p.installed addrs = []
  installed_of : ∀ a ∈ p'.installed addrs, a ∈ p.installed addrs ∨
    ∃ routed, effect = .route routed ∧ a ∈ routed
  route_installed : ∀ routed, effect = .route routed → routed ⊆ p'.installed addrs
  installed_kept : effect ≠ .withdraw → effect ≠ .unregister →
    p.installed addrs ⊆ p'.installed addrs

lemma next_teardown {addrs : List IpAddr} {p p' : Phase} {action : TunnelAction} {effect : Effect}
    (h : p.next addrs action = some (effect, p')) (ha : action.isTeardown = true)
    (routed : List IpAddr) : effect ≠ .route routed := by
  rintro rfl
  unfold next at h
  split at h <;> first | exact absurd ha (by decide) | simp at h

theorem next_moves {addrs : List IpAddr} {p p' : Phase} {action : TunnelAction} {effect : Effect}
    (h : p.next addrs action = some (effect, p')) : Moves addrs p effect p' := by
  unfold next at h
  split at h
  case h_3 n =>
    rw [Option.map_eq_some_iff] at h
    obtain ⟨addr, haddr, he⟩ := h
    cases he
    have hmem : addr ∈ addrs := mem_of_getElem? haddr
    have hinst : ∀ a, a ∈ (http3 (.routing (n + 1))).installed addrs ↔
        a ∈ (http3 (.routing n)).installed addrs ∨ a = addr := by
      intro a
      rw [installed, installed, take_add_one, haddr]
      simp
    refine ⟨fun _ =>
      rfl, by simp, ?_, fun _ _ => rfl, by rfl, by rfl, fun _ => rfl, by simp, ?_, ?_,
      ?_⟩
    · rintro routed hr
      cases hr
      exact ⟨by simpa using hmem, rfl, rfl⟩
    · intro a ha
      exact ((hinst a).mp ha).imp_right fun ha => ⟨_, rfl, by simpa using ha⟩
    · rintro routed hr a ha
      cases hr
      exact (hinst a).mpr (.inr (by simpa using ha))
    · exact fun _ _ a ha => (hinst a).mpr (.inl ha)
  case h_4 n =>
    split_ifs at h with hlen
    cases h
    have hinst : (http3 (.routing n)).installed addrs = (http3 .live).installed addrs :=
      take_of_length_le hlen
    refine ⟨fun _ => rfl, by simp, by simp, fun _ _ => rfl, by rfl, by rfl, fun _ => rfl, by simp,
      fun a ha => .inl ?_, by simp, fun _ _ a ha => ?_⟩
    · rwa [hinst]
    · rwa [← hinst]
  case h_13 => cases h
  all_goals
    cases h
    refine ⟨?_, ?_, ?_, ?_, ?_, ?_, ?_, ?_, ?_, ?_, ?_⟩ <;>
      simp [holdsLease, mayRoute, isPublished, isRegistered, started, installed]

end Phase

/-! ### Worlds -/

/-- A tunnel's task, with the number of leases it took and gave back so far. -/
structure Task where
  key : Option ClientKey
  addrs : List IpAddr
  phase : Phase
  leases : ℕ
  releases : ℕ

def Task.holding (t : Task) : Lease → ℕ :=
  if t.phase.holdsLease then leasesOf t.key t.addrs else 0

lemma Task.holding_of_holds {t : Task} (h : t.phase.holdsLease = true) :
    t.holding = leasesOf t.key t.addrs := if_pos h

lemma Task.holding_of_not {t : Task} (h : t.phase.holdsLease = false) : t.holding = 0 := by
  simp [holding, h]

structure World where
  pool : AddressPool
  routes : RoutingTable
  ipTunnels : Table TunnelOwner (List IpAddr)
  http2TunRoutes : Table TunnelOwner Unit
  tasks : Table TunnelOwner Task
  /-- Packets between the route lookup and the hand-over. -/
  relays : List (IpAddr × TunnelOwner)

namespace World

def held (w : World) : Lease → ℕ := fun l => w.tasks.total fun t => t.holding l

def start (v4Net : Option (Cidr 32)) (v6Net : Option (Cidr 128)) : World :=
  ⟨.fresh v4Net v6Net, ∅, ∅, ∅, ∅, []⟩

def perform (w : World) (owner : TunnelOwner) (addrs : List IpAddr) : Effect → World
  | .keep => w
  | .release => { w with pool := w.pool.releaseAll addrs }
  | .route addrs => { w with routes := w.routes.insertAll addrs owner }
  | .unroute => { w with routes := w.routes.removeOwned addrs owner }
  | .publish => { w with ipTunnels := w.ipTunnels.put owner addrs }
  | .withdraw => { w with ipTunnels := w.ipTunnels.remove owner }
  | .register => { w with http2TunRoutes := w.http2TunRoutes.put owner () }
  | .unregister => { w with http2TunRoutes := w.http2TunRoutes.remove owner }

/-- A first attempt, or the retry of an HTTP/3 attempt that gave its lease back. -/
def mayStart (w : World) (owner : TunnelOwner) (transport : Transport) : Bool :=
  match w.tasks.get owner with
  | none => true
  | some t => transport = .http3 ∧ t.phase = .http3 .refused

end World

inductive TunnelEvent
  | lease (owner : TunnelOwner) (transport : Transport) (identity : Option ClientIdentity)
  | act (owner : TunnelOwner) (action : TunnelAction)
  | setStaticReservations (reservations : List (IpAddr × ClientKey))
  | lookup (packet : Bytes)

namespace World

def leaseCounts (w : World) (owner : TunnelOwner) : ℕ × ℕ :=
  ((w.tasks.get owner).map fun t => (t.leases, t.releases)).getD (0, 0)

def advance (t : Task) (effect : Effect) (phase : Phase) : Task :=
  { t with
    phase
    releases := match effect with
      | .release => t.releases + 1
      | _ => t.releases }

def afterAction (w : World) (owner : TunnelOwner) (t : Task) (effect : Effect) (phase : Phase) :
    World :=
  { w.perform owner t.addrs effect with tasks := w.tasks.put owner (advance t effect phase) }

def step (w : World) : TunnelEvent → Option World
  | .lease owner transport identity =>
    if w.mayStart owner transport then
      let (leases, releases) := w.leaseCounts owner
      match w.pool.leaseTunnel identity with
      | (pool, some (key, addrs)) => some { w with
          pool
          tasks := w.tasks.put owner ⟨key, addrs, transport.leased, leases + 1, releases⟩ }
      | (pool, none) => some { w with
          pool
          tasks := w.tasks.put owner ⟨none, [], transport.refused, leases, releases⟩ }
    else none
  | .act owner action =>
    match w.tasks.get owner with
    | none => none
    | some t =>
      match t.phase.next t.addrs action with
      | none => none
      | some (effect, phase) => some (w.afterAction owner t effect phase)
  | .setStaticReservations reservations =>
    match w.pool.setStaticReservations reservations with
    | .ok pool => some { w with pool }
    | .error _ => some w
  | .lookup packet =>
    match dstAddr packet with
    | .error _ => some w
    | .ok dst =>
      match w.routes.get dst with
      | none => some w
      | some owner => some { w with relays := (dst, owner) :: w.relays }

/-- The hand-over of `relay_tun_packet` on shard `self`, after the lookup named `owner`. A
connection of another shard is not served here: that shard starts with a lookup of its own.
`known` tells whether this shard still has the connection. -/
def relayTunPacket (w : World) (owner : TunnelOwner) (ownerShard : Option ℕ) (self : ℕ)
    (known : Bool) : Option TunnelOwner :=
  if ownerShard = none ∧ w.http2TunRoutes.contains owner = true then some owner
  else if ownerShard ≠ none ∧ ownerShard ≠ some self then none
  else if known = true ∧ w.ipTunnels.contains owner = true then some owner
  else none

end World

end MasqueServer
