import MasqueServer.AddressReplies
import MasqueServer.DistinctLists
import MasqueServer.RetryTokens
import MasqueServer.TargetPolicy

/-!
# Target resolution

A target's host is looked up at most once, and the same answer is judged by the policy and then
connected to. The resolver is not trusted: it may answer every question differently, repeat
addresses, or mix allowed and forbidden ones, so the questions it was asked are part of the
state.
-/
namespace MasqueServer

open Bool List

/-- An HTTP status and an operator-facing reason. -/
structure TargetSetupFailure where
  status : ℕ
  reason : String
  deriving DecidableEq

def TargetSetupFailure.timeout (operation : String) : TargetSetupFailure :=
  ⟨504, s!"target {operation} timed out"⟩

/-- What came of one question before the deadline. -/
inductive LookupOutcome
  | answered (addresses : List SocketAddr)
  | failed (error : String)
  | timedOut

/-- The questions put to the resolver so far. -/
abbrev Questions := List (String × Port)

def SocketAddr.new (ip : IpAddr) (port : Port) : SocketAddr :=
  match ip with
  | .v4 ip => .v4 ip (BitVec.ofFin port)
  | .v6 ip => .v6 ip (BitVec.ofFin port) 0 0

/-- The checks on an answer: repeats are removed, and one forbidden address spoils the rest. -/
def judgeAddresses (policy : TargetPolicy) (addresses : List SocketAddr) :
    Except TargetSetupFailure (List SocketAddr) :=
  let unique := addresses.foldl pushUnique []
  if unique.isEmpty then .error ⟨502, "target DNS resolution returned no addresses"⟩
  else if !unique.all (fun address =>
      !isUnspecified address.ip.toCanonical && policy.isAllowed address.ip) then
    .error ⟨403, "target denied by policy"⟩
  else .ok unique

section Resolve

variable (parseIp : String → Option IpAddr) (resolver : ℕ → String → Port → LookupOutcome)

/-- The addresses of a host. The resolver's first argument counts the questions before this
one, so that it may answer differently each time. -/
def lookupTarget (host : String) (port : Port) (asked : Questions) :
    Except TargetSetupFailure (List SocketAddr) × Questions :=
  match parseIp host with
  | some ip => (.ok [SocketAddr.new ip port], asked)
  | none =>
    let answer := match resolver asked.length host port with
      | .answered addresses => .ok addresses
      | .failed error => .error ⟨502, s!"target DNS resolution failed: {error}"⟩
      | .timedOut => .error (.timeout "DNS resolution")
    (answer, asked ++ [(host, port)])

def resolveAllowedWith (policy : TargetPolicy) (host : String) (port : Port) (asked : Questions) :
    Except TargetSetupFailure (List SocketAddr) × Questions :=
  if !policy.allowsPort port then (.error ⟨403, "target port denied by policy"⟩, asked)
  else
    let (addresses, asked) := lookupTarget parseIp resolver host port asked
    (addresses.bind (judgeAddresses policy), asked)

/-- The one list of addresses a resolution may use, with the questions asked for it: a literal
address asks none, a name asks one. -/
inductive Snapshot (host : String) (port : Port) (asked : Questions) :
    List SocketAddr → Questions → Prop
  | literal (ip : IpAddr) (parsed : parseIp host = some ip) :
      Snapshot host port asked [SocketAddr.new ip port] asked
  | lookup (answer : List SocketAddr) (named : parseIp host = none)
      (answered : resolver asked.length host port = .answered answer) :
      Snapshot host port asked answer (asked ++ [(host, port)])

end Resolve

variable {parseIp : String → Option IpAddr} {resolver : ℕ → String → Port → LookupOutcome}
  {policy : TargetPolicy} {host : String} {port : Port} {asked : Questions}

lemma Snapshot.lookupTarget_eq {answer : List SocketAddr} {asked' : Questions}
    (h : Snapshot parseIp resolver host port asked answer asked') :
    lookupTarget parseIp resolver host port asked = (.ok answer, asked') := by
  cases h with
  | literal ip parsed => simp only [lookupTarget, parsed]
  | lookup answer named answered => simp only [lookupTarget, named, answered]

lemma snapshot_of_lookupTarget {answer : List SocketAddr}
    (h : (lookupTarget parseIp resolver host port asked).1 = .ok answer) :
    Snapshot parseIp resolver host port asked answer
      (lookupTarget parseIp resolver host port asked).2 := by
  unfold lookupTarget at h ⊢
  cases hparse : parseIp host with
  | some ip =>
    rw [hparse] at h
    cases h
    exact .literal ip hparse
  | none =>
    rw [hparse] at h
    simp only at h ⊢
    cases hanswer : resolver asked.length host port with
    | answered addresses =>
      rw [hanswer] at h
      cases h
      exact .lookup answer hparse hanswer
    | failed error => rw [hanswer] at h; cases h
    | timedOut => rw [hanswer] at h; cases h

def Reachable (policy : TargetPolicy) (address : SocketAddr) : Prop :=
  policy.isAllowed address.ip = true ∧ isUnspecified address.ip.toCanonical = false

lemma judgeAddresses_ok {addresses answer : List SocketAddr}
    (h : judgeAddresses policy answer = .ok addresses) :
    addresses ≠ [] ∧ FirstOccurrences answer addresses ∧
      ∀ address ∈ addresses, Reachable policy address := by
  have hfirst := firstOccurrences_foldl FirstOccurrences.nil answer
  rw [nil_append] at hfirst
  unfold judgeAddresses at h
  simp only at h
  split_ifs at h with hempty hdenied
  cases h
  refine ⟨fun hnil => hempty (by rw [hnil]; rfl), hfirst, fun address hmem => ?_⟩
  have hall : (answer.foldl pushUnique []).all (fun address =>
      !isUnspecified address.ip.toCanonical && policy.isAllowed address.ip) = true := by
    simpa using hdenied
  have hone := List.all_eq_true.mp hall address hmem
  rw [and_eq_true, not_eq_true'] at hone
  exact ⟨hone.2, hone.1⟩

lemma mem_ports_of_allowsPort (h : policy.allowsPort port = true) {rules : TargetRestrictions}
    {ports : List Port} (hrules : policy.restrictions = some rules)
    (hports : rules.ports = some ports) : port ∈ ports := by
  simp only [TargetPolicy.allowsPort, hrules, Option.bind_some, hports, binarySearch,
    beq_iff_eq] at h
  exact mem_of_getElem? h

/-- Target resolution is safe against a resolver that changes its answers: what is returned is
one answer as a whole, or the literal address, without its repeats, and every address of it may
be reached; one address that may not fails the whole resolution. -/
theorem resolveAllowedWith_rebindingSafe (parseIp : String → Option IpAddr)
    (resolver : ℕ → String → Port → LookupOutcome) (policy : TargetPolicy) (host : String)
    (port : Port) (asked : Questions) :
    let outcome := resolveAllowedWith parseIp resolver policy host port asked
    (∀ addresses, outcome.1 = .ok addresses →
      addresses ≠ [] ∧
      (∃ answer, Snapshot parseIp resolver host port asked answer outcome.2 ∧
        FirstOccurrences answer addresses) ∧
      (∀ address ∈ addresses, Reachable policy address) ∧
      policy.allowsPort port = true ∧
      ∀ rules ports, policy.restrictions = some rules → rules.ports = some ports →
        port ∈ ports) ∧
    (∀ answer asked', Snapshot parseIp resolver host port asked answer asked' →
      (∃ address ∈ answer, ¬Reachable policy address) →
      ∃ failure, outcome.1 = .error failure) := by
  intro outcome
  have hsound : ∀ addresses, outcome.1 = .ok addresses → policy.allowsPort port = true ∧
      ∃ answer, Snapshot parseIp resolver host port asked answer outcome.2 ∧
        judgeAddresses policy answer = .ok addresses := by
    intro addresses h
    unfold outcome resolveAllowedWith at h ⊢
    by_cases hport : policy.allowsPort port = true
    · rw [hport] at h ⊢
      simp only [Bool.not_true, false_eq_true, if_false] at h ⊢
      cases hlookup : (lookupTarget parseIp resolver host port asked).1 with
      | error failure => rw [hlookup] at h; cases h
      | ok answer =>
        rw [hlookup] at h
        exact ⟨trivial, answer, snapshot_of_lookupTarget hlookup, h⟩
    · rw [not_eq_true] at hport
      rw [hport] at h
      cases h
  constructor
  · intro addresses h
    obtain ⟨hport, answer, hsnapshot, hjudge⟩ := hsound addresses h
    obtain ⟨hne, hfirst, hreach⟩ := judgeAddresses_ok hjudge
    exact ⟨hne, ⟨answer, hsnapshot, hfirst⟩, hreach, hport,
      fun _ _ => mem_ports_of_allowsPort hport⟩
  · rintro answer asked' hsnapshot ⟨address, hmem, hbad⟩
    cases houtcome : outcome.1 with
    | error failure => exact ⟨failure, rfl⟩
    | ok addresses =>
      obtain ⟨-, answer', hsnapshot', hjudge⟩ := hsound addresses houtcome
      obtain ⟨-, hfirst, hreach⟩ := judgeAddresses_ok hjudge
      have hsame : answer = answer' := by
        have heq := hsnapshot.lookupTarget_eq.symm.trans hsnapshot'.lookupTarget_eq
        cases heq
        rfl
      exact absurd (hreach address ((hfirst.mem_iff address).mpr (hsame ▸ hmem))) hbad

def documentationNet : Cidr 32 := ⟨0xcb007100, 28, by decide⟩

/-- A name with two addresses in `203.0.113.0/28`, the first of which the resolver repeats; asked
again, it answers with a loopback address. -/
def changingResolver (asked : ℕ) (_ : String) (_ : Port) : LookupOutcome :=
  .answered (if asked = 0 then [.v4 0xcb007107 443, .v4 0xcb007108 443, .v4 0xcb007107 443]
    else [.v4 0x7f000001 443])

/-- The first answer is accepted without its repeat, the second is not. -/
theorem resolveAllowedWith_rebindingSafe_changing :
    let policy : TargetPolicy := ⟨[.v4 documentationNet], [], none⟩
    let outcome := resolveAllowedWith (fun _ => none) changingResolver policy "target" 443 []
    outcome.1 = .ok [.v4 0xcb007107 443, .v4 0xcb007108 443] ∧
      (∀ address ∈ [.v4 0xcb007107 443, .v4 0xcb007108 443], Reachable policy address) ∧
      ∃ failure, (resolveAllowedWith (fun _ => none) changingResolver policy "target" 443
        outcome.2).1 = .error failure := by
  intro policy outcome
  have hok : outcome.1 = .ok [.v4 0xcb007107 443, .v4 0xcb007108 443] := by decide +kernel
  have hasked : outcome.2 = [("target", 443)] := by decide +kernel
  refine ⟨hok, ((resolveAllowedWith_rebindingSafe _ _ policy "target" 443 []).1 _ hok).2.2.1, ?_⟩
  refine (resolveAllowedWith_rebindingSafe _ _ policy "target" 443 _).2 [.v4 0x7f000001 443] _
    (.lookup _ rfl (by rw [hasked]; rfl)) ⟨_, mem_singleton_self _, ?_⟩
  unfold Reachable
  decide +kernel

end MasqueServer
