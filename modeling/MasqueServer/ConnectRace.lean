import MasqueServer.Interleaving
import MasqueServer.RetryTokens

/-!
# Racing connection attempts

The addresses of a target are tried in an order that alternates the address families. A new attempt
starts when the delay since the last one has passed, or at once when no attempt is left running; the
first attempt that connects wins.
-/
namespace MasqueServer

open List

def SocketAddr.isIpv4 : SocketAddr → Bool
  | .v4 _ _ => true
  | .v6 _ _ _ _ => false

def SocketAddr.isIpv6 : SocketAddr → Bool
  | .v4 _ _ => false
  | .v6 _ _ _ _ => true

/-- Pop the preferred queue, or else the other one, and prefer the other family next. -/
def interleaveLoop : Bool → List SocketAddr → List SocketAddr → List SocketAddr
  | true, ipv4, address :: ipv6 => address :: interleaveLoop false ipv4 ipv6
  | true, address :: ipv4, [] => address :: interleaveLoop false ipv4 []
  | false, address :: ipv4, ipv6 => address :: interleaveLoop true ipv4 ipv6
  | false, [], address :: ipv6 => address :: interleaveLoop true [] ipv6
  | _, [], [] => []
termination_by _ ipv4 ipv6 => ipv4.length + ipv6.length

def interleaveAddressFamilies (addresses : List SocketAddr) : List SocketAddr :=
  match addresses with
  | [] => []
  | first :: _ =>
    interleaveLoop first.isIpv6 (addresses.filter (·.isIpv4)) (addresses.filter (!·.isIpv4))

/-! ### The race -/

inductive IoError
  | notFound (message : String)
  | other (message : String)
  | connect (message : String)
  deriving DecidableEq

/-- How an attempt ends: with a connection, an error, or a failure of its task. -/
inductive AttemptOutcome (T : Type*)
  | connected (value : T)
  | refused (error : IoError)
  | crashed (error : String)

/-- An attempt that runs: the place of its address in the list, and the address. -/
structure Attempt where
  entry : ℕ
  address : SocketAddr
  deriving DecidableEq

inductive RaceStatus (T : Type*)
  | racing
  | won (value : T) (address : SocketAddr)
  | lost (error : IoError)

/-- The state of the race. The addresses the connector was called with are kept in order, and so
are the entries whose attempts have ended. -/
structure ConnectRace (T : Type*) where
  addresses : List SocketAddr
  next : ℕ
  attempts : List Attempt
  nextLaunch : ℕ
  lastError : Option IoError
  status : RaceStatus T
  launched : List SocketAddr
  joined : List ℕ

inductive RaceEvent
  | joined (now place : ℕ)
  | timer (now : ℕ)

namespace ConnectRace

variable {T : Type*} (connector : ℕ → AttemptOutcome T) (delay now : ℕ)

def launch (r : ConnectRace T) : ConnectRace T :=
  match r.addresses[r.next]? with
  | some address => { r with
      attempts := r.attempts ++ [⟨r.next, address⟩]
      next := r.next + 1
      nextLaunch := now + delay
      launched := r.launched ++ [address] }
  | none => r

/-- The head of the loop: with nothing left the last error is returned, and with nothing
running the next address is tried at once. -/
def loopHead (r : ConnectRace T) : ConnectRace T :=
  if r.next < r.addresses.length ∨ r.attempts ≠ [] then
    if r.attempts = [] ∧ r.next < r.addresses.length then r.launch delay now else r
  else
    { r with status := .lost (r.lastError.getD (.notFound "no target address connected")) }

def start (addresses : List SocketAddr) : ConnectRace T :=
  let order := interleaveAddressFamilies addresses
  let idle : ConnectRace T := ⟨order, 0, [], now, none, .racing, [], []⟩
  if order = [] then { idle with status := .lost (.notFound "no target addresses to connect") }
  else loopHead delay now idle

def join (place : ℕ) (r : ConnectRace T) : Option (ConnectRace T) :=
  (r.attempts[place]?).map fun attempt =>
    let rest := { r with
      attempts := r.attempts.eraseIdx place
      joined := r.joined ++ [attempt.entry] }
    match connector attempt.entry with
    | .connected value => { rest with status := .won value attempt.address }
    | .refused error => loopHead delay now { rest with lastError := some error }
    | .crashed error => loopHead delay now { rest with
        lastError := some (.other s!"target TCP connect task failed: {error}") }

def step (r : ConnectRace T) : RaceEvent → Option (ConnectRace T)
  | event =>
    match r.status with
    | .racing =>
      match event with
      | .joined now place => r.join connector delay now place
      | .timer now =>
        if r.next < r.addresses.length ∧ r.nextLaunch ≤ now then
          some (loopHead delay now (r.launch delay now))
        else none
    | _ => none

end ConnectRace

/-! ### The order of the attempts -/

lemma interleaveLoop_eq_weave (preferIpv6 : Bool) (ipv4 ipv6 : List SocketAddr) :
    interleaveLoop preferIpv6 ipv4 ipv6 =
      if preferIpv6 then weave ipv6 ipv4 else weave ipv4 ipv6 := by
  induction preferIpv6, ipv4, ipv6 using interleaveLoop.induct with
  | case1 ipv4 address ipv6 ih => simp [interleaveLoop, ih]
  | case2 address ipv4 ih => simp [interleaveLoop, ih]
  | case3 address ipv4 ipv6 ih => simp [interleaveLoop, ih]
  | case4 address ipv6 ih => simp [interleaveLoop, ih]
  | case5 preferIpv6 => cases preferIpv6 <;> simp [interleaveLoop]

lemma interleaveAddressFamilies_interleaved (addresses : List SocketAddr) :
    Interleaved SocketAddr.isIpv4 addresses (interleaveAddressFamilies addresses) := by
  cases addresses with
  | nil => exact ⟨.rfl, rfl, fun _ => rfl, fun i a b ha => by cases ha⟩
  | cons first rest =>
    have hwoven := weave_interleaved SocketAddr.isIpv4 first rest
    have hother : first.isIpv6 = !first.isIpv4 := by cases first <;> rfl
    rw [interleaveAddressFamilies, interleaveLoop_eq_weave, hother]
    cases hfirst : first.isIpv4 with
    | true => simpa only [hfirst, Bool.not_true, beq_true, beq_false, Bool.false_eq_true,
        if_false] using hwoven
    | false => simpa only [hfirst, Bool.not_false, beq_true, beq_false, if_true] using hwoven

lemma interleaveAddressFamilies_ne_nil {addresses : List SocketAddr} (h : addresses ≠ []) :
    interleaveAddressFamilies addresses ≠ [] := by
  intro hnil
  have hperm := (interleaveAddressFamilies_interleaved addresses).perm
  rw [hnil] at hperm
  exact h hperm.nil_eq.symm

namespace ConnectRace

variable {T : Type*} {connector : ℕ → AttemptOutcome T} {delay now : ℕ} {r r' : ConnectRace T}
  {order : List SocketAddr}

/-- What holds throughout a race over a list of addresses: every entry before the next one has
been launched once, in order, and is running or has ended; and no attempt that ended before the
race did has connected. -/
structure Sound (connector : ℕ → AttemptOutcome T) (order : List SocketAddr)
    (r : ConnectRace T) : Prop where
  addresses_eq : r.addresses = order
  next_le : r.next ≤ order.length
  launched_eq : r.launched = order.take r.next
  entries : (r.attempts.map Attempt.entry ++ r.joined).Perm (List.range r.next)
  named : ∀ attempt ∈ r.attempts, order[attempt.entry]? = some attempt.address

/-- A race that goes on, or is about to. -/
structure Open (connector : ℕ → AttemptOutcome T) (order : List SocketAddr)
    (r : ConnectRace T) : Prop extends Sound connector order r where
  racing : r.status = .racing
  failed : ∀ i ∈ r.joined, ∀ value, connector i ≠ .connected value

/-- What a race may look like from outside. -/
structure Decided (connector : ℕ → AttemptOutcome T) (order : List SocketAddr)
    (r : ConnectRace T) : Prop extends Sound connector order r where
  racing : r.status = .racing → r.attempts ≠ [] ∧
    ∀ i ∈ r.joined, ∀ value, connector i ≠ .connected value
  lost : ∀ error, r.status = .lost error → r.next = order.length ∧
    ∀ i < order.length, i ∈ r.joined ∧ ∀ value, connector i ≠ .connected value
  won : ∀ value address, r.status = .won value address →
    ∃ i ∈ r.joined, connector i = .connected value ∧ order[i]? = some address

lemma Open.launch (h : Open connector order r) (hnext : r.next < order.length) (delay now : ℕ) :
    Open connector order (r.launch delay now) ∧ (r.launch delay now).attempts ≠ [] := by
  have hget : r.addresses[r.next]? = some order[r.next] := by
    rw [h.addresses_eq]
    exact getElem?_eq_getElem hnext
  unfold ConnectRace.launch
  rw [hget]
  refine ⟨⟨⟨h.addresses_eq, hnext, ?_, ?_, ?_⟩, h.racing, h.failed⟩, by simp⟩
  · show r.launched ++ [order[r.next]] = order.take (r.next + 1)
    rw [h.launched_eq, take_succ_eq_append_getElem hnext]
  · show ((r.attempts ++ [_]).map Attempt.entry ++ r.joined).Perm (List.range (r.next + 1))
    rw [range_succ, map_append, append_assoc]
    refine (perm_append_comm_assoc _ _ _).trans ?_
    refine (perm_append_comm).trans ?_
    exact h.entries.append_right _
  · intro attempt hmem
    rcases mem_append.mp hmem with hold | hnew
    · exact h.named attempt hold
    · obtain rfl := mem_singleton.mp hnew
      exact getElem?_eq_getElem hnext

lemma Open.loopHead (h : Open connector order r) :
    Decided connector order (r.loopHead delay now) := by
  have hgoing (r : ConnectRace T) (h : Open connector order r) (hne : r.attempts ≠ []) :
      Decided connector order r := by
    refine ⟨h.toSound, fun _ => ⟨hne, h.failed⟩, fun _ he => ?_, fun _ _ he => ?_⟩
    · rw [h.racing] at he
      cases he
    · rw [h.racing] at he
      cases he
  unfold ConnectRace.loopHead
  rw [h.addresses_eq]
  split_ifs with hmore hfirst
  · obtain ⟨hopen, hne⟩ := h.launch hfirst.2 delay now
    exact hgoing _ hopen hne
  · refine hgoing r h fun hnil => ?_
    exact hmore.elim (fun hlt => hfirst ⟨hnil, hlt⟩) fun hne => hne hnil
  · rw [not_or, not_lt, not_not] at hmore
    have hall : r.next = order.length := le_antisymm h.next_le hmore.1
    refine ⟨⟨rfl, h.next_le, h.launched_eq, h.entries, h.named⟩, nofun,
      fun _ _ => ⟨hall, fun i hi => ?_⟩, nofun⟩
    have hmem : i ∈ r.joined := by
      have hperm := h.entries
      rw [hmore.2, map_nil, nil_append] at hperm
      exact hperm.mem_iff.mpr (mem_range.mpr (hall ▸ hi))
    exact ⟨hmem, h.failed i hmem⟩

lemma start_decided {addresses : List SocketAddr} (hne : addresses ≠ []) :
    Decided connector (interleaveAddressFamilies addresses)
      (start delay now addresses : ConnectRace T) := by
  unfold start
  rw [if_neg (interleaveAddressFamilies_ne_nil hne)]
  refine Open.loopHead ⟨⟨rfl, Nat.zero_le _, rfl, .rfl, nofun⟩, rfl, nofun⟩

lemma Sound.join {place : ℕ} {attempt : Attempt} (h : Sound connector order r)
    (hget : r.attempts[place]? = some attempt) (lastError : Option IoError)
    (status : RaceStatus T) :
    Sound connector order { r with
      attempts := r.attempts.eraseIdx place
      joined := r.joined ++ [attempt.entry]
      lastError := lastError
      status := status } := by
  refine ⟨h.addresses_eq, h.next_le, h.launched_eq, ?_, fun other hmem => ?_⟩
  · obtain ⟨hlt, rfl⟩ := List.getElem?_eq_some_iff.mp hget
    have hperm := (getElem_cons_eraseIdx_perm hlt).map Attempt.entry
    refine List.Perm.trans ?_ h.entries
    refine List.Perm.trans ?_ (hperm.append_right r.joined)
    rw [← append_assoc, map_cons, cons_append]
    exact perm_append_singleton _ _
  · exact h.named other (mem_of_mem_eraseIdx hmem)

lemma Decided.step {e : RaceEvent} (h : Decided connector order r)
    (hstep : r.step connector delay e = some r') : Decided connector order r' := by
  unfold ConnectRace.step at hstep
  cases hstatus : r.status with
  | won value address => rw [hstatus] at hstep; cases hstep
  | lost error => rw [hstatus] at hstep; cases hstep
  | racing =>
    rw [hstatus] at hstep
    obtain ⟨hne, hfailed⟩ := h.racing hstatus
    have hopen : Open connector order r := ⟨h.toSound, hstatus, hfailed⟩
    cases e with
    | timer now =>
      simp only at hstep
      split_ifs at hstep with hdue
      cases hstep
      exact (hopen.launch (h.addresses_eq ▸ hdue.1) delay now).1.loopHead
    | joined now place =>
      simp only [ConnectRace.join, Option.map_eq_some_iff] at hstep
      obtain ⟨attempt, hget, rfl⟩ := hstep
      have hnext (error : IoError) (hbad : ∀ value, connector attempt.entry ≠ .connected value) :
          Open connector order { r with
            attempts := r.attempts.eraseIdx place
            joined := r.joined ++ [attempt.entry]
            lastError := some error } := by
        refine ⟨h.toSound.join hget (some error) r.status, hstatus, fun i hi => ?_⟩
        rcases mem_append.mp hi with hold | hnew
        · exact hfailed i hold
        · obtain rfl := mem_singleton.mp hnew
          exact hbad
      split
      next value hconnected =>
        refine ⟨h.toSound.join hget r.lastError _, nofun, nofun, fun _ _ hwon => ?_⟩
        cases hwon
        exact ⟨attempt.entry, by simp, hconnected, h.named attempt (mem_of_getElem? hget)⟩
      next error hrefused =>
        exact (hnext error fun v hv => by rw [hrefused] at hv; cases hv).loopHead
      next error hcrashed =>
        exact (hnext _ fun v hv => by rw [hcrashed] at hv; cases hv).loopHead

/-- A race over a list of addresses, after any attempts ended and timers fired: the order
interleaves the families; attempts were started in that order, one for each entry; the race is
lost only after every entry was attempted and failed; and a value is returned with the address
of the attempt that produced it. While the race goes on an attempt is running. -/
theorem happyEyeballs_race {T : Type*} (connector : ℕ → AttemptOutcome T) (delay now : ℕ)
    (addresses : List SocketAddr) (hne : addresses ≠ []) (events : List RaceEvent)
    (r : ConnectRace T)
    (hrun : run (step connector delay) (start delay now addresses) events = some r) :
    let order := interleaveAddressFamilies addresses
    Interleaved SocketAddr.isIpv4 addresses order ∧
    (r.launched = order.take r.next ∧ r.next ≤ order.length ∧
      (r.attempts.map Attempt.entry ++ r.joined).Perm (List.range r.next)) ∧
    (∀ error, r.status = .lost error → r.launched = order ∧
      ∀ i < order.length, i ∈ r.joined ∧ ∀ value, connector i ≠ .connected value) ∧
    (∀ value address, r.status = .won value address →
      ∃ i ∈ r.joined, connector i = .connected value ∧ order[i]? = some address) ∧
    (r.status = .racing → r.attempts ≠ []) := by
  have hdecided : Decided connector (interleaveAddressFamilies addresses) r :=
    run_preserves (fun _ _ _ h => h.step) (start_decided hne) hrun
  refine ⟨interleaveAddressFamilies_interleaved addresses,
    ⟨hdecided.launched_eq, hdecided.next_le, hdecided.entries⟩, fun error hlost => ?_,
    hdecided.won, fun hracing => (hdecided.racing hracing).1⟩
  obtain ⟨hall, hfailed⟩ := hdecided.lost error hlost
  refine ⟨?_, hfailed⟩
  rw [hdecided.launched_eq, hall, take_length]

def dualStack :
    List SocketAddr := [.v6 0x20010db8000000000000000000000001 443 0 0, .v4 0xc0000201 443]

def onlyIpv4 : ℕ → AttemptOutcome Unit
  | 1 => .connected ()
  | _ => .refused (.connect "network unreachable")

lemma interleave_dualStack : interleaveAddressFamilies dualStack = dualStack := by
  simp [dualStack, interleaveAddressFamilies, interleaveLoop, SocketAddr.isIpv4, SocketAddr.isIpv6]

def fellBack : ConnectRace Unit :=
  ⟨dualStack, 2, [], 251, some (.connect "network unreachable"),
    .won () (.v4 0xc0000201 443), dualStack, [0, 1]⟩

theorem happyEyeballs_race_fallback :
    run (step onlyIpv4 250) (start 250 0 dualStack) [.joined 1 0, .joined 2 0] = some fellBack ∧
      ∃ i ∈ fellBack.joined, onlyIpv4 i = .connected () ∧
        (interleaveAddressFamilies dualStack)[i]? = some (.v4 0xc0000201 443) := by
  have hrun : run (step onlyIpv4 250) (start 250 0 dualStack) [.joined 1 0, .joined 2 0] =
      some fellBack := by
    unfold start
    rw [interleave_dualStack]
    rfl
  have hrace := happyEyeballs_race onlyIpv4 250 0 dualStack (by decide) _ fellBack hrun
  exact ⟨hrun, hrace.2.2.2.1 () (.v4 0xc0000201 443) rfl⟩

end ConnectRace

end MasqueServer
