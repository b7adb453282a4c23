import Mathlib.Logic.Function.Basic
import MasqueServer.FiniteTable
import MasqueServer.Runs
import MasqueServer.Octets

/-!
# Early datagrams

Datagrams that arrive before their CONNECT-UDP tunnel can relay are kept in a queue of the stream. A
queue is owned by the stream's wait for authentication, then by its setup, then by its capsule
stream; from there its datagrams are relayed, and whoever else gives up a queue drops it.
-/
namespace MasqueServer

open Function Option Table

def maxEarlyDatagramsPerTunnel : ℕ := 8

def maxEarlyDatagramBytesPerTunnel : ℕ := 64 * 1024

def maxEarlyDatagramBytesPerConnection : ℕ := 64 * 1024

def EarlyUdpBudget.tryReserve (reserved bytes : ℕ) : Option ℕ :=
  if reserved + bytes ≤ maxEarlyDatagramBytesPerConnection then some (reserved + bytes) else none

def EarlyUdpBudget.release (reserved bytes : ℕ) : Option ℕ :=
  if bytes = 0 then some reserved
  else if bytes ≤ reserved then some (reserved - bytes)
  else none

/-- A queue, with the budget it draws on and the number under which it is recorded. -/
structure EarlyUdpDatagrams where
  payloads : List Bytes := []
  bytes : ℕ := 0
  budget : ℕ
  id : ℕ

/-- Retain a payload if the queue and its budget have room: the budget's reserved bytes, the
queue, and whether the payload was retained. -/
def EarlyUdpDatagrams.push (reserved : ℕ) (q : EarlyUdpDatagrams) (payload : Bytes) :
    ℕ × EarlyUdpDatagrams × Bool :=
  if maxEarlyDatagramsPerTunnel ≤ q.payloads.length ∨
      maxEarlyDatagramBytesPerTunnel < q.bytes + payload.length then
    (reserved, q, false)
  else match EarlyUdpBudget.tryReserve reserved payload.length with
    | none => (reserved, q, false)
    | some reserved =>
      (reserved,
        { q with payloads := q.payloads ++ [payload], bytes := q.bytes + payload.length }, true)

/-- The queue takes another payload, and its budget has the bytes for it. -/
def EarlyUdpDatagrams.HasRoom (reserved : ℕ) (q : EarlyUdpDatagrams) (payload : Bytes) :
    Prop :=
  q.payloads.length < maxEarlyDatagramsPerTunnel ∧
    q.bytes + payload.length ≤ maxEarlyDatagramBytesPerTunnel ∧
    reserved + payload.length ≤ maxEarlyDatagramBytesPerConnection

section Push

variable {reserved : ℕ} {q : EarlyUdpDatagrams} {payload : Bytes}

lemma EarlyUdpDatagrams.push_of_hasRoom (h : q.HasRoom reserved payload) :
    q.push reserved payload = (reserved + payload.length,
      { q with payloads := q.payloads ++ [payload], bytes := q.bytes + payload.length }, true) := by
  obtain ⟨hcount, hbytes, hbudget⟩ := h
  rw [push, if_neg (not_or.mpr ⟨not_le.mpr hcount, not_lt.mpr hbytes⟩), EarlyUdpBudget.tryReserve,
    if_pos hbudget]

lemma EarlyUdpDatagrams.push_of_not_hasRoom (h : ¬q.HasRoom reserved payload) :
    q.push reserved payload = (reserved, q, false) := by
  unfold push EarlyUdpBudget.tryReserve
  split_ifs with hfull hbudget
  · rfl
  · obtain ⟨hcount, hbytes⟩ := not_or.mp hfull
    exact absurd ⟨not_le.mp hcount, not_lt.mp hbytes, hbudget⟩ h
  · rfl

lemma EarlyUdpDatagrams.push_accepted_iff :
    (q.push reserved payload).2.2 = true ↔ q.HasRoom reserved payload := by
  by_cases h : q.HasRoom reserved payload
  · simp [push_of_hasRoom h, h]
  · simp [push_of_not_hasRoom h, h]

end Push

namespace EarlyDatagrams

/-- What became of the datagrams of one queue. -/
structure Record where
  accepted : List Bytes := []
  released : ℕ := 0
  relayed : List Bytes := []

/-- The owners of queues, each for one stream. -/
inductive Place where
  | awaitingAuth
  | pendingSetup
  | capsuleStream
  deriving DecidableEq

/-- The queues of one connection. Budget zero is the connection's own. -/
structure Queues where
  reserved : ℕ → ℕ := fun _ => 0
  budgets : ℕ := 1
  slots : Table (Place × ℕ) EarlyUdpDatagrams := ∅
  created : ℕ := 0
  records : ℕ → Record := fun _ => {}

inductive SetupOutcome where
  | failed
  | blocked
  | installed

inductive Event where
  /-- A request waits for its credentials to be verified. -/
  | awaitAuth (stream : ℕ) (connectUdp : Bool)
  /-- A CONNECT-UDP request is set up at once. -/
  | beginSetup (stream : ℕ)
  | datagram (stream : ℕ) (payload : Bytes)
  /-- The verification has ended; an authorized CONNECT-UDP request is set up. -/
  | authDone (stream : ℕ) (setsUp : Bool)
  | setupDone (stream : ℕ) (outcome : SetupOutcome)
  /-- The request body has been read; the datagrams are relayed if the request is still open. -/
  | bodyRead (stream : ℕ) (relays : Bool)
  /-- A reset, a failure, a sweep or the end of the connection. -/
  | discard (place : Place) (stream : ℕ)

namespace Queues

variable (s : Queues)

def releaseBudget (q : EarlyUdpDatagrams) : Option (Queues × EarlyUdpDatagrams) := do
  let reserved ← EarlyUdpBudget.release (s.reserved q.budget) q.bytes
  let record := s.records q.id
  return ({ s with
      reserved := Function.update s.reserved q.budget reserved
      records := Function.update s.records q.id
        { record with released := record.released + q.bytes } },
    { q with bytes := 0 })

def drop (q : EarlyUdpDatagrams) : Option Queues :=
  (s.releaseBudget q).map Prod.fst

def intoPayloads (q : EarlyUdpDatagrams) : Option (Queues × List Bytes) := do
  let (s, emptied) ← s.releaseBudget q
  let s ← s.drop { emptied with payloads := [] }
  return (s, emptied.payloads)

def relay (q : EarlyUdpDatagrams) : Option Queues := do
  let (s, payloads) ← s.intoPayloads q
  let record := s.records q.id
  return { s with
    records := Function.update s.records q.id { record with relayed :=
      record.relayed ++ payloads } }

def clear (slot : Place × ℕ) : Option Queues :=
  match s.slots.get slot with
  | none => some s
  | some q => drop { s with slots := s.slots.remove slot } q

def create (slot : Place × ℕ) (budget : ℕ) : Option Queues := do
  let s ← s.clear slot
  return { s with slots := s.slots.put slot { budget, id := s.created }, created := s.created + 1 }

def move (q : EarlyUdpDatagrams) (source target : Place × ℕ) : Option Queues := do
  let s ← s.clear target
  return { s with slots := (s.slots.remove source).put target q }

def bufferEarlyUdpDatagram (slot : Place × ℕ) (payload : Bytes) : Queues :=
  match s.slots.get slot with
  | none => s
  | some q =>
    match q.push (s.reserved q.budget) payload with
    | (_, _, false) => s
    | (reserved, q', true) =>
      let record := s.records q.id
      { s with
        reserved := Function.update s.reserved q.budget reserved
        slots := s.slots.put slot q'
        records := Function.update s.records q.id
          { record with accepted := record.accepted ++ [payload] } }

def step : Event → Option Queues
  | .awaitAuth stream connectUdp =>
    if connectUdp then s.create (.awaitingAuth, stream) 0 else s.clear (.awaitingAuth, stream)
  | .beginSetup stream => s.create (.pendingSetup, stream) 0
  | .datagram stream payload =>
    some (if s.slots.contains (.pendingSetup, stream) then
        s.bufferEarlyUdpDatagram (.pendingSetup, stream) payload
      else s.bufferEarlyUdpDatagram (.awaitingAuth, stream) payload)
  | .authDone stream setsUp =>
    match s.slots.get (.awaitingAuth, stream), setsUp with
    | some q, true => s.move q (.awaitingAuth, stream) (.pendingSetup, stream)
    | none, true =>
      -- The default queue brings a budget of its own.
      create { s with budgets := s.budgets + 1 } (.pendingSetup, stream) s.budgets
    | _, false => s.clear (.awaitingAuth, stream)
  | .setupDone stream outcome =>
    match s.slots.get (.pendingSetup, stream), outcome with
    | none, _ => some s
    | some _, .failed => s.clear (.pendingSetup, stream)
    | some _, .blocked => some s
    | some q, .installed => s.move q (.pendingSetup, stream) (.capsuleStream, stream)
  | .bodyRead stream relays =>
    match s.slots.get (.capsuleStream, stream), relays with
    | none, _ => some s
    | some _, false => s.clear (.capsuleStream, stream)
    | some q, true => relay { s with slots := s.slots.remove (.capsuleStream, stream) } q
  | .discard place stream => s.clear (place, stream)

/-! ### The balance of a connection -/

def size (payloads : List Bytes) : ℕ := (payloads.map List.length).sum

lemma size_concat (payloads : List Bytes) (payload : Bytes) :
    size (payloads ++ [payload]) = size payloads + payload.length := by
  simp [size]

def weight (budget : ℕ) (q : EarlyUdpDatagrams) : ℕ := if q.budget = budget then q.bytes else 0

def held (budget : ℕ) : ℕ := s.slots.total (weight budget)

/-- A queue that has ended gave back what it accepted, and its datagrams were relayed in their
order or not at all. -/
def Settled (record : Record) : Prop :=
  record.released = size record.accepted ∧
    (record.relayed = [] ∨ record.relayed = record.accepted)

structure Balanced (s : Queues) : Prop where
  reserved_eq : ∀ budget, s.reserved budget = s.held budget
  reserved_le : ∀ budget, s.reserved budget ≤ maxEarlyDatagramBytesPerConnection
  fits : ∀ slot q, s.slots.get slot = some q →
    q.payloads.length ≤ maxEarlyDatagramsPerTunnel ∧ q.bytes = size q.payloads
  live : ∀ slot q, s.slots.get slot = some q →
    q.id < s.created ∧ s.records q.id = { accepted := q.payloads }
  distinct : ∀ slot slot' q q', s.slots.get slot = some q → s.slots.get slot' = some q' →
    q.id = q'.id → slot = slot'
  ended : ∀ id < s.created, (∀ slot q, s.slots.get slot = some q → q.id ≠ id) →
    Settled (s.records id)
  fresh : ∀ id, s.created ≤ id → s.records id = {}

variable {s : Queues} {slot slot' : Place × ℕ} {q : EarlyUdpDatagrams}

lemma balanced_start : Balanced {} := by
  refine ⟨fun _ => rfl, fun _ => Nat.zero_le _, ?_, ?_, ?_, ?_, fun _ _ => rfl⟩ <;> simp

lemma drop_emptied (hbytes : q.bytes = 0) : s.drop q = some s := by
  simp [drop, releaseBudget, EarlyUdpBudget.release, hbytes]

namespace Balanced

variable (h : s.Balanced)
include h

variable (hq : s.slots.get slot = some q)
include hq

lemma bytes_le : q.bytes ≤ s.reserved q.budget := by
  have hle := Table.le_total (f := weight q.budget) hq
  rw [weight, if_pos rfl] at hle
  exact h.reserved_eq q.budget ▸ hle

lemma retire {record : Record} (hrecord : Settled record) : Balanced { s with
      slots := s.slots.remove slot
      reserved := Function.update s.reserved q.budget (s.reserved q.budget - q.bytes)
      records := Function.update s.records q.id record } := by
  have hget : ∀ {slot' q'}, (s.slots.remove slot).get slot' = some q' →
      s.slots.get slot' = some q' ∧ q'.id ≠ q.id := by
    intro slot' q' hq'
    rw [Table.get_remove, ite_eq_iff] at hq'
    obtain ⟨-, hq'⟩ | ⟨hne, hq'⟩ := hq'
    · cases hq'
    · exact ⟨hq', fun heq => hne (h.distinct slot' slot q' q hq' hq heq)⟩
  refine ⟨fun budget => ?_, fun budget => ?_, fun slot' q' hq' => h.fits slot' q' (hget hq').1,
    fun slot' q' hq' => ?_, fun slot' slot'' q' q'' hq' hq'' => ?_, fun id hid hnot => ?_,
    fun id hid => ?_⟩
  · have htotal := total_remove (weight budget) s.slots slot
    have hreserved := h.reserved_eq budget
    rw [hq, map_some, getD_some, weight] at htotal
    rw [held] at hreserved ⊢
    by_cases hb : budget = q.budget
    · subst hb
      rw [if_pos rfl] at htotal
      simp only [update_self]
      omega
    · rw [if_neg (Ne.symm hb)] at htotal
      simp only [update_of_ne hb]
      omega
  · by_cases hb : budget = q.budget
    · subst hb
      simp only [update_self]
      exact (Nat.sub_le _ _).trans (h.reserved_le q.budget)
    · simp only [update_of_ne hb]
      exact h.reserved_le budget
  · obtain ⟨hq', hne⟩ := hget hq'
    simp only [update_of_ne hne]
    exact h.live slot' q' hq'
  · exact h.distinct slot' slot'' q' q'' (hget hq').1 (hget hq'').1
  · by_cases hne : id = q.id
    · subst hne
      simpa only [update_self] using hrecord
    · simp only [update_of_ne hne]
      refine h.ended id hid fun slot' q' hq' => ?_
      by_cases hslot : slot' = slot
      · rw [hslot, hq, some.injEq] at hq'
        exact fun heq => hne (hq' ▸ heq.symm)
      · exact hnot slot' q' (by rw [Table.get_remove, if_neg hslot, hq'])
  · have hne : id ≠ q.id := fun heq => by
      have hlt := (h.live slot q hq).1
      subst heq
      exact absurd hid (not_le.mpr hlt)
    simp only [update_of_ne hne]
    exact h.fresh id hid

lemma settled_drop :
    Settled { s.records q.id with released := (s.records q.id).released + q.bytes } := by
  rw [(h.live slot q hq).2, (h.fits slot q hq).2]
  exact ⟨Nat.zero_add _, .inl rfl⟩

lemma releaseBudget (slots : Table _ _) : Queues.releaseBudget { s with slots } q = some ({ s with
      slots
      reserved := Function.update s.reserved q.budget (s.reserved q.budget - q.bytes)
      records := Function.update s.records q.id
        { s.records q.id with released := (s.records q.id).released + q.bytes } },
      { q with bytes := 0 }) := by
  have hrelease : EarlyUdpBudget.release (s.reserved q.budget) q.bytes =
      some (s.reserved q.budget - q.bytes) := by
    unfold EarlyUdpBudget.release
    by_cases hzero : q.bytes = 0
    · rw [if_pos hzero, hzero, Nat.sub_zero]
    · rw [if_neg hzero, if_pos (h.bytes_le hq)]
  simp only [Queues.releaseBudget, hrelease, bind_eq_bind, bind_some,
    Option.pure_def]

omit hq in
lemma clear (slot : Place × ℕ) : ∃ s', s.clear slot = some s' ∧ s'.Balanced ∧
      ∀ slot', s'.slots.get slot' = if slot' = slot then none else s.slots.get slot' := by
  unfold Queues.clear
  cases hq : s.slots.get slot with
  | none =>
    refine ⟨s, rfl, h, fun slot' => ?_⟩
    split_ifs with hslot
    · rw [hslot, hq]
    · rfl
  | some q =>
    exact ⟨_, congrArg (Option.map Prod.fst) (h.releaseBudget hq _),
      h.retire hq (h.settled_drop hq), fun slot' => Table.get_remove _ _ _⟩

lemma relay : ∃ s', Queues.relay { s with slots := s.slots.remove slot } q = some s' ∧ s'.Balanced ∧
      s'.slots.get slot = none ∧
      s'.records q.id = { accepted := q.payloads, released := q.bytes, relayed := q.payloads } := by
  have hsettled : Settled { accepted := q.payloads, released := q.bytes, relayed := q.payloads } :=
    ⟨(h.fits slot q hq).2, .inr rfl⟩
  refine ⟨_, ?_, h.retire hq hsettled, by simp, update_self ..⟩
  simp [Queues.relay, intoPayloads, h.releaseBudget hq, drop_emptied, (h.live slot q hq).2]

omit hq in
lemma putNew (hslot : s.slots.get slot = none) (budget : ℕ) : Balanced { s with
      slots := s.slots.put slot { budget, id := s.created }
      created := s.created + 1 } := by
  have hget : ∀ {slot' q'},
      (s.slots.put slot { budget, id := s.created }).get slot' = some q' →
      slot' = slot ∧ q' = { budget, id := s.created } ∨
        slot' ≠ slot ∧ s.slots.get slot' = some q' := get_put_cases
  refine ⟨fun b => ?_, h.reserved_le, fun slot' q' hq' => ?_, fun slot' q' hq' => ?_,
    fun slot' slot'' q' q'' hq' hq'' hid => ?_, fun id hid hnot => ?_,
    fun id hid => h.fresh id (Nat.le_of_succ_le hid)⟩
  · have htotal := total_put (weight b) s.slots slot { budget, id := s.created }
    have hreserved := h.reserved_eq b
    have hzero : weight b { budget, id := s.created } = 0 := ite_self 0
    rw [hslot, map_none, getD_none, hzero] at htotal
    show s.reserved b = (s.slots.put slot { budget, id := s.created }).total (weight b)
    rw [hreserved, held]
    omega
  · obtain ⟨-, rfl⟩ | ⟨-, hq'⟩ := hget hq'
    · exact ⟨Nat.zero_le _, rfl⟩
    · exact h.fits slot' q' hq'
  · obtain ⟨-, rfl⟩ | ⟨-, hq'⟩ := hget hq'
    · exact ⟨Nat.lt_succ_self _, h.fresh s.created le_rfl⟩
    · exact ⟨Nat.lt_succ_of_lt (h.live slot' q' hq').1, (h.live slot' q' hq').2⟩
  · obtain ⟨hs', rfl⟩ | ⟨-, hold'⟩ := hget hq' <;> obtain ⟨hs'', rfl⟩ | ⟨-, hold''⟩ := hget hq''
    · exact hs'.trans hs''.symm
    · exact absurd hid (h.live _ _ hold'').1.ne'
    · exact absurd hid (h.live _ _ hold').1.ne
    · exact h.distinct slot' slot'' q' q'' hold' hold'' hid
  · have hne : id ≠ s.created := fun heq =>
      hnot slot { budget, id := s.created } (by rw [get_put, if_pos rfl]) heq.symm
    refine h.ended id (Nat.lt_of_le_of_ne (Nat.le_of_lt_succ hid) hne) fun slot' q' hq' =>
      hnot slot' q' ?_
    have hslot' : slot' ≠ slot := fun heq => by
      rw [heq, hslot] at hq'
      cases hq'
    rw [get_put, if_neg hslot', hq']

lemma putMoved (hslot : s.slots.get slot' = none) :
    Balanced { s with slots := (s.slots.remove slot).put slot' q } := by
  have hne : slot ≠ slot' := fun heq => by
    rw [heq, hslot] at hq
    cases hq
  have hget : ∀ {k p}, ((s.slots.remove slot).put slot' q).get k = some p →
      ∃ k', s.slots.get k' = some p ∧ (k = slot' ∧ k' = slot ∨ k' ≠ slot ∧ k = k') := by
    intro k p hp
    obtain ⟨hk, rfl⟩ | ⟨-, hp⟩ := get_put_cases hp
    · exact ⟨slot, hq, .inl ⟨hk, rfl⟩⟩
    · rw [Table.get_remove, ite_eq_iff] at hp
      obtain ⟨-, hp⟩ | ⟨hks, hp⟩ := hp
      · cases hp
      · exact ⟨k, hp, .inr ⟨hks, rfl⟩⟩
  refine ⟨fun b => ?_, h.reserved_le, fun k p hp => ?_, fun k p hp => ?_,
    fun k k' p p' hp hp' hid => ?_, fun id hid hnot => h.ended id hid fun k p hp => ?_, h.fresh⟩
  · have hput := total_put (weight b) (s.slots.remove slot) slot' q
    have hremove := total_remove (weight b) s.slots slot
    rw [Table.get_remove, if_neg hne.symm, hslot, map_none, getD_none] at hput
    rw [hq, map_some, getD_some] at hremove
    show s.reserved b = ((s.slots.remove slot).put slot' q).total (weight b)
    rw [h.reserved_eq b, held]
    omega
  · obtain ⟨k', hp, -⟩ := hget hp
    exact h.fits k' p hp
  · obtain ⟨k', hp, -⟩ := hget hp
    exact h.live k' p hp
  · obtain ⟨j, hp, hj⟩ := hget hp
    obtain ⟨j', hp', hj'⟩ := hget hp'
    have heq := h.distinct j j' p p' hp hp' hid
    subst heq
    obtain ⟨rfl, rfl⟩ | ⟨hks, rfl⟩ := hj <;> obtain ⟨rfl, h'⟩ | ⟨hks', rfl⟩ := hj'
    · rfl
    · exact absurd rfl hks'
    · exact absurd h' hks
    · rfl
  · by_cases hk : k = slot
    · rw [hk, hq, some.injEq] at hp
      exact hp ▸ hnot slot' q (by rw [get_put, if_pos rfl])
    · have hk' : k ≠ slot' := fun heq => by
        rw [heq, hslot] at hp
        cases hp
      exact hnot k p (by rw [get_put, if_neg hk', Table.get_remove, if_neg hk, hp])

omit hq in
lemma create (slot : Place × ℕ) (budget : ℕ) :
    ∃ s', s.create slot budget = some s' ∧ s'.Balanced := by
  obtain ⟨s₁, hclear, h₁, hget⟩ := h.clear slot
  have hslot : s₁.slots.get slot = none := by rw [hget, if_pos rfl]
  exact ⟨_, by simp only [Queues.create, hclear, bind_eq_bind, bind_some,
    Option.pure_def], h₁.putNew hslot budget⟩

lemma move (slot' : Place × ℕ) (hne : slot ≠ slot') :
    ∃ s', s.move q slot slot' = some s' ∧ s'.Balanced := by
  obtain ⟨s₁, hclear, h₁, hget⟩ := h.clear slot'
  have hsource : s₁.slots.get slot = some q := by rw [hget, if_neg hne, hq]
  have htarget : s₁.slots.get slot' = none := by rw [hget, if_pos rfl]
  exact ⟨_, by simp only [Queues.move, hclear, bind_eq_bind, bind_some,
    Option.pure_def], h₁.putMoved hsource htarget⟩

lemma accept {payload : Bytes} (hroom : q.payloads.length < maxEarlyDatagramsPerTunnel)
    (hbudget : s.reserved q.budget + payload.length ≤ maxEarlyDatagramBytesPerConnection) :
    Balanced { s with
      reserved := Function.update s.reserved q.budget (s.reserved q.budget + payload.length)
      slots := s.slots.put slot
        { q with payloads := q.payloads ++ [payload], bytes := q.bytes + payload.length }
      records := Function.update s.records q.id
        { s.records q.id with accepted := (s.records q.id).accepted ++ [payload] } } := by
  set q' : EarlyUdpDatagrams :=
    { q with payloads := q.payloads ++ [payload], bytes := q.bytes + payload.length }
  have hget : ∀ {k p}, (s.slots.put slot q').get k = some p →
      k = slot ∧ p = q' ∨ s.slots.get k = some p ∧ p.id ≠ q.id := by
    intro k p hp
    obtain hput | ⟨hk, hp⟩ := get_put_cases hp
    · exact .inl hput
    · exact .inr ⟨hp, fun heq => hk (h.distinct k slot p q hp hq heq)⟩
  have hlive := h.live slot q hq
  refine ⟨fun b => ?_, fun b => ?_, fun k p hp => ?_, fun k p hp => ?_,
    fun k k' p p' hp hp' hid => ?_, fun id hid hnot => ?_, fun id hid => ?_⟩
  · have htotal := total_put (weight b) s.slots slot q'
    rw [hq, map_some, getD_some] at htotal
    have hreserved := h.reserved_eq b
    rw [held] at hreserved
    show Function.update s.reserved q.budget _ b = (s.slots.put slot q').total (weight b)
    by_cases hb : b = q.budget
    · have hbytes : q'.bytes = q.bytes + payload.length := rfl
      rw [weight, if_pos hb.symm, weight, if_pos hb.symm] at htotal
      rw [hb, update_self, ← hb]
      omega
    · rw [weight, if_neg (Ne.symm hb), weight, if_neg (Ne.symm hb)] at htotal
      rw [update_of_ne hb]
      omega
  · show Function.update s.reserved q.budget _ b ≤ _
    by_cases hb : b = q.budget
    · rw [hb, update_self]
      exact hbudget
    · rw [update_of_ne hb]
      exact h.reserved_le b
  · obtain ⟨-, rfl⟩ | ⟨hp, -⟩ := hget hp
    · have hfits := (h.fits slot q hq).2
      refine ⟨by simpa [q', Nat.succ_le_iff] using hroom, ?_⟩
      show q.bytes + payload.length = size (q.payloads ++ [payload])
      rw [size_concat, hfits]
    · exact h.fits k p hp
  · obtain ⟨-, rfl⟩ | ⟨hp, hne⟩ := hget hp
    · refine ⟨hlive.1, ?_⟩
      show Function.update s.records q.id _ q.id = _
      rw [update_self, hlive.2]
    · refine ⟨(h.live k p hp).1, ?_⟩
      show Function.update s.records q.id _ p.id = _
      rw [update_of_ne hne, (h.live k p hp).2]
  · obtain ⟨hk, rfl⟩ | ⟨hold, hne⟩ := hget hp <;> obtain ⟨hk', rfl⟩ | ⟨hold', hne'⟩ := hget hp'
    · exact hk.trans hk'.symm
    · exact absurd hid.symm hne'
    · exact absurd hid hne
    · exact h.distinct k k' p p' hold hold' hid
  · have hne : id ≠ q.id := fun heq => hnot slot q' (by rw [get_put, if_pos rfl]) heq.symm
    show Settled (Function.update s.records q.id _ id)
    rw [update_of_ne hne]
    refine h.ended id hid fun k p hp => ?_
    by_cases hk : k = slot
    · rw [hk, hq, some.injEq] at hp
      exact hp ▸ hne.symm
    · exact hnot k p (by rw [get_put, if_neg hk, hp])
  · have hne : id ≠ q.id := fun heq => absurd (heq ▸ hid) (not_le.mpr hlive.1)
    show Function.update s.records q.id _ id = {}
    rw [update_of_ne hne]
    exact h.fresh id hid

omit hq

lemma buffer (slot : Place × ℕ) (payload : Bytes) :
    (s.bufferEarlyUdpDatagram slot payload).Balanced := by
  unfold bufferEarlyUdpDatagram
  cases hq : s.slots.get slot with
  | none => exact h
  | some q =>
    by_cases hroom : q.HasRoom (s.reserved q.budget) payload
    · simp only [EarlyUdpDatagrams.push_of_hasRoom hroom]
      exact h.accept hq hroom.1 hroom.2.2
    · simpa only [EarlyUdpDatagrams.push_of_not_hasRoom hroom] using h

lemma newBudget : Balanced { s with budgets := s.budgets + 1 } :=
  ⟨h.reserved_eq, h.reserved_le, h.fits, h.live, h.distinct, h.ended, h.fresh⟩

lemma step (event : Event) : ∃ s', s.step event = some s' ∧ s'.Balanced := by
  have hclear (slot : Place × ℕ) : ∃ s', s.clear slot = some s' ∧ s'.Balanced := by
    obtain ⟨s', hs', h', -⟩ := h.clear slot
    exact ⟨s', hs', h'⟩
  cases event with
  | awaitAuth stream connectUdp =>
    cases connectUdp with
    | true => exact h.create (.awaitingAuth, stream) 0
    | false => exact hclear (.awaitingAuth, stream)
  | beginSetup stream => exact h.create (.pendingSetup, stream) 0
  | datagram stream payload =>
    refine ⟨_, rfl, ?_⟩
    split_ifs
    · exact h.buffer (.pendingSetup, stream) payload
    · exact h.buffer (.awaitingAuth, stream) payload
  | authDone stream setsUp =>
    cases setsUp with
    | false =>
      obtain ⟨s', hs', h'⟩ := hclear (.awaitingAuth, stream)
      refine ⟨s', ?_, h'⟩
      simp only [Queues.step, hs']
    | true =>
      simp only [Queues.step]
      cases hq : s.slots.get (.awaitingAuth, stream) with
      | none => exact h.newBudget.create (.pendingSetup, stream) s.budgets
      | some q => exact h.move hq (.pendingSetup, stream) (by simp)
  | setupDone stream outcome =>
    simp only [Queues.step]
    cases hq : s.slots.get (.pendingSetup, stream) with
    | none => exact ⟨s, rfl, h⟩
    | some q =>
      cases outcome with
      | failed => exact hclear (.pendingSetup, stream)
      | blocked => exact ⟨s, rfl, h⟩
      | installed => exact h.move hq (.capsuleStream, stream) (by simp)
  | bodyRead stream relays =>
    simp only [Queues.step]
    cases hq : s.slots.get (.capsuleStream, stream) with
    | none => exact ⟨s, rfl, h⟩
    | some q =>
      cases relays with
      | false => exact hclear (.capsuleStream, stream)
      | true =>
        obtain ⟨s', hs', h', -⟩ := h.relay hq
        exact ⟨s', hs', h'⟩
  | discard place stream => exact hclear (place, stream)

end Balanced

def Live (s : Queues) (id : ℕ) (q : EarlyUdpDatagrams) : Prop :=
  ∃ slot, s.slots.get slot = some q ∧ q.id = id

/-- Whatever happens to the queues of a connection: every budget has reserved what its live
queues hold, within its limit; no queue holds more than its share of datagrams; a datagram is
taken, behind the others, exactly when queue and budget have room, and a refused one changes
neither budget nor queue; a live queue holds what it accepted and has given nothing back; when the
body of an open request is read, its queue ends with all it accepted relayed in the order of
arrival; and a queue that has ended in any way gave back what it accepted, its datagrams having been
relayed in that order or not at all. -/
theorem earlyDatagrams_balanced (events : List Event) :
    ∃ s, run step {} events = some s ∧
      (∀ budget, s.reserved budget = s.held budget ∧
        s.reserved budget ≤ maxEarlyDatagramBytesPerConnection) ∧
      (∀ slot q, s.slots.get slot = some q →
        q.payloads.length ≤ maxEarlyDatagramsPerTunnel ∧ q.bytes = size q.payloads) ∧
      (∀ slot q payload, s.slots.get slot = some q →
        ((q.push (s.reserved q.budget) payload).2.2 = true ↔
          q.payloads.length < maxEarlyDatagramsPerTunnel ∧
            q.bytes + payload.length ≤ maxEarlyDatagramBytesPerTunnel ∧
            s.reserved q.budget + payload.length ≤ maxEarlyDatagramBytesPerConnection) ∧
        ((q.push (s.reserved q.budget) payload).2.2 = true →
          q.push (s.reserved q.budget) payload = (s.reserved q.budget + payload.length,
            { q with payloads := q.payloads ++ [payload], bytes := q.bytes + payload.length },
            true) ∧
          (s.bufferEarlyUdpDatagram slot payload).slots.get slot =
            some { q with payloads := q.payloads ++ [payload], bytes :=
              q.bytes + payload.length }) ∧
        ((q.push (s.reserved q.budget) payload).2.2 = false →
          q.push (s.reserved q.budget) payload = (s.reserved q.budget, q, false) ∧
            s.bufferEarlyUdpDatagram slot payload = s)) ∧
      (∀ id q, s.Live id q → s.records id = { accepted := q.payloads }) ∧
      (∀ stream q, s.slots.get (.capsuleStream, stream) = some q →
        ∃ s', s.step (.bodyRead stream true) = some s' ∧
          s'.slots.get (.capsuleStream, stream) = none ∧
          s'.records q.id =
            { accepted := q.payloads, released := q.bytes, relayed := q.payloads }) ∧
      ∀ id, (∀ q, ¬s.Live id q) →
        (s.records id).released = size (s.records id).accepted ∧
          ((s.records id).relayed = [] ∨ (s.records id).relayed = (s.records id).accepted) := by
  have hrun : ∃ s, run step {} events = some s ∧ s.Balanced :=
    run_total (fun s event h => h.step event) balanced_start events
  obtain ⟨s, hs, h⟩ := hrun
  refine ⟨s, hs, fun budget => ⟨h.reserved_eq budget, h.reserved_le budget⟩, h.fits,
    fun slot q payload hq => ⟨EarlyUdpDatagrams.push_accepted_iff, fun htaken => ?_,
      fun hrefused => ?_⟩, ?_, fun stream q hq => ?_, fun id hnot => ?_⟩
  · have hpush := EarlyUdpDatagrams.push_of_hasRoom (EarlyUdpDatagrams.push_accepted_iff.mp htaken)
    refine ⟨hpush, ?_⟩
    simp only [bufferEarlyUdpDatagram, hq, hpush, get_put, if_true]
  · have hnot : ¬q.HasRoom (s.reserved q.budget) payload := fun hroom =>
      Bool.false_ne_true (hrefused ▸ EarlyUdpDatagrams.push_accepted_iff.mpr hroom)
    have hpush := EarlyUdpDatagrams.push_of_not_hasRoom hnot
    refine ⟨hpush, ?_⟩
    simp only [bufferEarlyUdpDatagram, hq, hpush]
  · rintro id q ⟨slot, hq, rfl⟩
    exact (h.live slot q hq).2
  · obtain ⟨s', hs', -, hslot, hrecord⟩ := h.relay hq
    exact ⟨s', by simpa only [Queues.step, hq] using hs', hslot, hrecord⟩
  · by_cases hid : id < s.created
    · exact h.ended id hid fun slot q hq heq => hnot q ⟨slot, hq, heq⟩
    · rw [h.fresh id (not_lt.mp hid)]
      exact ⟨rfl, .inl rfl⟩

/-- A queue that gets its datagrams while its request waits for authentication and for its setup. -/
def queuedEvents : List Event :=
  [.awaitAuth 4 true, .datagram 4 [1], .authDone 4 true, .datagram 4 [2, 3],
    .setupDone 4 .installed]

theorem earlyDatagrams_balanced_relayed :
    ∃ s s' : Queues, run step {} queuedEvents = some s ∧ s.reserved 0 = 3 ∧
      s.step (.bodyRead 4 true) = some s' ∧ s'.reserved 0 = 0 ∧
      s'.records 0 =
        { accepted := [[1], [2, 3]], released := 3, relayed := [[1], [2, 3]] } := by
  obtain ⟨s, hs, -, -, -, -, hrelayed, -⟩ := earlyDatagrams_balanced queuedEvents
  have heq : run step {} queuedEvents = some ((run step {} queuedEvents).get (by decide)) :=
    (some_get _).symm
  obtain rfl := some.inj (hs.symm.trans heq)
  obtain ⟨s', hs', -, hrecord⟩ := hrelayed 4 _ rfl
  obtain rfl : _ = s' := some.inj hs'
  exact ⟨_, _, hs, rfl, hs', rfl, hrecord⟩

end Queues

end EarlyDatagrams

end MasqueServer
