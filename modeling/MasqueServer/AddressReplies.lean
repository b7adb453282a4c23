import MasqueServer.AddressRequests
import MasqueServer.CapsuleEncoder
import MasqueServer.Runs

/-!
# Address requests over the life of a tunnel

Every accepted request uses up identifiers, and there are only so many of them. This bounds the
number of replies of one tunnel and the octets they take, and with them what the control channel
of an HTTP/2 tunnel has to hold when its writer never gets to run.
-/
namespace MasqueServer

open List

def maxControlResponses : ℕ := maxAddressRequestIds

def isV4 : IpAddr → Bool
  | .v4 _ => true
  | .v6 _ => false

def isUnspecified : IpAddr → Bool
  | .v4 ip => ip = 0
  | .v6 ip => ip = 0

namespace AddressRequests

variable {seen seen' : Table ℕ Unit} {requests : List AssignedAddress} {lease : List IpAddr}

def ids (requests : List AssignedAddress) : List ℕ := requests.map AssignedAddress.requestId

/-! ### Recording identifiers -/

lemma record_grows (seen : Table ℕ Unit) (requests : List AssignedAddress) :
    (∀ id, seen.contains id = true → (record seen requests).1.contains id = true) ∧
      seen.size ≤ (record seen requests).1.size ∧
      (record seen requests).1.size ≤ seen.size + requests.length := by
  induction requests generalizing seen with
  | nil => exact ⟨fun _ h => h, le_rfl, le_rfl⟩
  | cons request requests ih =>
    unfold record
    split_ifs with hused
    · exact ⟨fun _ h => h, le_rfl, Nat.le_add_right _ _⟩
    · rw [Bool.or_eq_true, not_or, Bool.not_eq_true, Bool.not_eq_true] at hused
      obtain ⟨hkept, hle, hsize⟩ := ih (seen.put request.requestId ())
      have hput := Table.size_put_of_get_eq_none (Table.contains_eq_false.mp hused.2) ()
      refine ⟨fun id hid => hkept id ?_, by omega, by rw [length_cons]; omega⟩
      rw [Table.contains_iff] at hid ⊢
      obtain ⟨⟨⟩, hid⟩ := hid
      exact ⟨(), by rw [Table.get_put, hid, ite_self]⟩

lemma record_ok (h : record seen requests = (seen', .ok ())) :
    (ids requests).Nodup ∧ (∀ id ∈ ids requests, id ≠ 0 ∧ seen.contains id = false) ∧
      (∀ id ∈ ids requests, seen'.contains id = true) ∧
      seen'.size = seen.size + requests.length := by
  induction requests generalizing seen with
  | nil =>
    cases h
    simp [ids]
  | cons request requests ih =>
    unfold record at h
    split_ifs at h with hused
    · cases h
    rw [Bool.or_eq_true, not_or, decide_eq_true_eq, Bool.not_eq_true] at hused
    obtain ⟨hnodup, hnew, hrecorded, hsize⟩ := ih h
    have hput := Table.size_put_of_get_eq_none (Table.contains_eq_false.mp hused.2) ()
    have hkept := (record_grows (seen.put request.requestId ()) requests).1 request.requestId
    rw [h] at hkept
    have hfirst : (seen.put request.requestId ()).contains request.requestId = true := by
      rw [Table.contains_iff]
      exact ⟨(), by simp⟩
    have hfresh : ∀ id ∈ ids requests, id ≠ request.requestId := by
      rintro id hid rfl
      rw [(hnew _ hid).2] at hfirst
      cases hfirst
    refine ⟨nodup_cons.mpr ⟨fun hmem => hfresh _ hmem rfl, hnodup⟩, ?_, ?_, ?_⟩
    · intro id hid
      obtain rfl | hid := mem_cons.mp hid
      · exact hused
      · refine ⟨(hnew id hid).1, ?_⟩
        have hnone := (hnew id hid).2
        rw [Table.contains_eq_false, Table.get_put, if_neg (hfresh id hid)] at hnone
        exact Table.contains_eq_false.mpr hnone
    · intro id hid
      obtain rfl | hid := mem_cons.mp hid
      · exact hkept hfirst
      · exact hrecorded id hid
    · rw [hsize, hput, length_cons]
      omega

/-! ### Entries of a reply -/

@[simp] lemma ip_assignment (id : ℕ) (ip : IpAddr) : (assignment id ip).ip = ip := by
  cases ip <;> rfl

@[simp] lemma requestId_assignment (id : ℕ) (ip : IpAddr) : (assignment id ip).requestId = id := by
  cases ip <;> rfl

/-- An entry answers its request with a leased address of the same family, or rejects it with the
unspecified one; either way it is a host address under the request's identifier. -/
structure Answers (lease : List IpAddr) (request entry : AssignedAddress) : Prop where
  entry_eq : entry = assignment request.requestId entry.ip
  leased_or_rejected : entry.ip ∈ lease ∧ isV4 entry.ip = isV4 request.ip ∨
    entry.ip = rejected request ∧ entry.ip ∉ lease

variable {request : AssignedAddress}

lemma isV4_of_answers {ip : IpAddr} (h : answers request ip = true) :
    isV4 ip = isV4 request.ip := by
  unfold answers at h
  cases ip <;> cases hip : request.ip <;> simp_all [isV4]

lemma isUnspecified_rejected (request : AssignedAddress) :
    isUnspecified (rejected request) = true := by
  unfold rejected
  cases request.ip <;> simp [isUnspecified]

lemma assign_answers (hlease : ∀ ip ∈ lease, isUnspecified ip = false) (request : AssignedAddress) :
    Answers lease request (assign lease request) := by
  refine ⟨by simp [assign], ?_⟩
  rw [assign, ip_assignment]
  cases hfind : lease.find? (answers request) with
  | none =>
    refine .inr ⟨rfl, fun hmem => ?_⟩
    have hspecified := hlease _ hmem
    rw [Option.getD_none, isUnspecified_rejected] at hspecified
    cases hspecified
  | some ip =>
    exact .inl ⟨mem_of_find?_eq_some hfind, isV4_of_answers (find?_some hfind)⟩

lemma complete_spec (assigned : List AssignedAddress) (lease : List IpAddr) :
    ∃ extra, complete assigned lease = assigned ++ extra ∧
      extra.Sublist (lease.map (assignment 0)) ∧
      (∀ entry ∈ extra, entry.ip ∉ assigned.map AssignedAddress.ip) ∧
      (extra.map AssignedAddress.ip).Nodup ∧
      ∀ ip ∈ lease, ip ∈ (assigned ++ extra).map AssignedAddress.ip := by
  induction lease generalizing assigned with
  | nil => exact ⟨[], by simp [complete], by simp, by simp, by simp, by simp⟩
  | cons ip lease ih =>
    have hcomplete : complete assigned (ip :: lease) = complete
        (if assigned.any fun address => address.ip = ip then assigned
          else assigned ++ [assignment 0 ip]) lease := by
      simp [complete]
    rw [hcomplete]
    split_ifs with hlisted
    · obtain ⟨extra, heq, hsublist, hnew, hnodup, hall⟩ := ih assigned
      refine ⟨extra, heq, hsublist.cons _, hnew, hnodup, fun other hother => ?_⟩
      obtain rfl | hother := mem_cons.mp hother
      · rw [List.any_eq_true] at hlisted
        obtain ⟨entry, hentry, hip⟩ := hlisted
        rw [map_append, mem_append]
        exact .inl (List.mem_map.mpr ⟨entry, hentry, by simpa using hip⟩)
      · exact hall other hother
    · obtain ⟨extra, heq, hsublist, hnew, hnodup, hall⟩ := ih (assigned ++ [assignment 0 ip])
      have hunlisted : ip ∉ assigned.map AssignedAddress.ip := by
        intro hmem
        obtain ⟨entry, hentry, hip⟩ := List.mem_map.mp hmem
        exact hlisted (List.any_eq_true.mpr ⟨entry, hentry, by simp [hip]⟩)
      have happend : assigned ++ [assignment 0 ip] ++ extra = assigned ++
        assignment 0 ip :: extra := by
        simp
      rw [happend] at heq hall
      refine ⟨assignment 0 ip :: extra, heq, hsublist.cons_cons _, ?_, ?_, ?_⟩
      · intro entry hentry
        obtain rfl | hentry := mem_cons.mp hentry
        · rwa [ip_assignment]
        · intro hmem
          exact hnew entry hentry (by rw [map_append]; exact mem_append_left _ hmem)
      · rw [map_cons, nodup_cons, ip_assignment]
        refine ⟨fun hmem => ?_, hnodup⟩
        obtain ⟨entry, hentry, hip⟩ := List.mem_map.mp hmem
        refine hnew entry hentry ?_
        simp [hip]
      · intro other hother
        obtain rfl | hother := mem_cons.mp hother
        · simp
        · exact hall other hother

def Answered (lease : List IpAddr) (requests : List AssignedAddress) (reply : CapsuleFrame) :
    Prop :=
  ∃ entries extra, reply = .addressAssign (entries ++ extra) ∧
    List.Forall₂ (Answers lease) requests entries ∧
    (∀ entry ∈ extra, entry = assignment 0 entry.ip ∧ entry.ip ∈ lease ∧
      entry.ip ∉ entries.map AssignedAddress.ip) ∧
    (extra.map AssignedAddress.ip).Nodup ∧
    ∀ ip ∈ lease, ip ∈ (entries ++ extra).map AssignedAddress.ip

/-! ### One request -/

variable {state state' : AddressRequests} {reply : CapsuleFrame}

lemma respond_bounded (requests : List AssignedAddress) (lease : List IpAddr)
    (h : state.seen.size ≤ maxAddressRequestIds) :
    (state.respond requests lease).1.seen.size ≤ maxAddressRequestIds := by
  unfold respond
  split_ifs with hlimit
  · exact h
  · have hgrows := (record_grows state.seen requests).2.2
    rw [Bool.or_eq_true, not_or, decide_eq_true_eq] at hlimit
    split <;> rename_i hrecord <;> rw [hrecord] at hgrows <;> dsimp only at hgrows ⊢ <;> omega

lemma respond_grows (state : AddressRequests) (requests : List AssignedAddress)
    (lease : List IpAddr) :
    (∀ id, state.seen.contains id = true →
        (state.respond requests lease).1.seen.contains id = true) ∧
      state.seen.size ≤ (state.respond requests lease).1.seen.size := by
  unfold respond
  split_ifs with hlimit
  · exact ⟨fun _ h => h, le_rfl⟩
  · obtain ⟨hkept, hle, -⟩ := record_grows state.seen requests
    split <;> rename_i hrecord <;> rw [hrecord] at hkept hle <;> exact ⟨hkept, hle⟩

/-- What an accepted request has done. -/
structure Accepted (lease : List IpAddr) (state : AddressRequests) (requests : List AssignedAddress)
    (state' : AddressRequests) (reply : CapsuleFrame) : Prop where
  nonempty : requests ≠ []
  nodup : (ids requests).Nodup
  fresh : ∀ id ∈ ids requests, id ≠ 0 ∧ state.seen.contains id = false
  recorded : ∀ id ∈ ids requests, state'.seen.contains id = true
  size_eq : state'.seen.size = state.seen.size + requests.length
  reply_eq : reply = .addressAssign (complete (requests.map (assign lease)) lease)

lemma respond_accepted (h : state.respond requests lease = (state', .ok reply)) :
    Accepted lease state requests state' reply := by
  unfold respond at h
  split_ifs at h with hlimit
  · cases h
  · rw [Bool.or_eq_true, not_or, Bool.not_eq_true, isEmpty_eq_false_iff] at hlimit
    split at h
    · cases h
    · rename_i seen hrecord
      cases h
      obtain ⟨hnodup, hfresh, hrecorded, hsize⟩ := record_ok hrecord
      exact ⟨hlimit.1, hnodup, hfresh, hrecorded, hsize, rfl⟩

lemma Accepted.answered (h : Accepted lease state requests state' reply)
    (hlease : ∀ ip ∈ lease, isUnspecified ip = false) : Answered lease requests reply := by
  obtain ⟨extra, heq, hsublist, hnew, hnodup, hall⟩ :=
    complete_spec (requests.map (assign lease)) lease
  refine ⟨requests.map (assign lease), extra, by rw [h.reply_eq, heq], ?_, ?_, hnodup, hall⟩
  · rw [List.forall₂_map_right_iff, List.forall₂_same]
    exact fun request _ => assign_answers hlease request
  · intro entry hentry
    obtain ⟨ip, hip, rfl⟩ := List.mem_map.mp (hsublist.subset hentry)
    rw [ip_assignment]
    exact ⟨rfl, hip, by simpa using hnew _ hentry⟩

/-! ### Octets of a reply -/

lemma length_shortest_le_eight {value : ℕ} (h : value ≤ Varint.maxValue) :
    (Varint.shortest value).length ≤ 8 := by
  have hdecode := Varint.decode_shortest h []
  exact (Varint.decode_bounds hdecode).2.1

lemma assignment_wellFormed {id : ℕ} (hid : id ≤ Varint.maxValue) (ip : IpAddr) :
    (assignment id ip).WellFormed := by
  cases ip with
  | v4 ip => exact ⟨hid, by simp [assignment, prefixFits]⟩
  | v6 ip => exact ⟨hid, by simp [assignment, prefixFits]⟩

lemma length_assign_le (lease : List IpAddr) (hid : request.requestId ≤ Varint.maxValue) :
    (assign lease request).octets.length ≤ 26 := by
  have hshortest := length_shortest_le_eight hid
  rw [assign, AssignedAddress.octets, requestId_assignment, ip_assignment, length_append,
    length_append, length_singleton]
  cases (lease.find? (answers request)).getD (rejected request) <;>
    simp only [addressOctets, length_cons, length_toBeBytes] <;> omega

lemma length_extra_le {extra : List AssignedAddress}
    (hsublist : extra.Sublist (lease.map (assignment 0))) (hv4 : lease.countP isV4 ≤ 1)
    (hv6 : (lease.countP fun ip => !isV4 ip) ≤ 1) :
    (extra.flatMap AssignedAddress.octets).length ≤ 26 := by
  have hlease : ((lease.map (assignment 0)).flatMap AssignedAddress.octets).length =
      7 * lease.countP isV4 + 19 * lease.countP fun ip => !isV4 ip := by
    clear hsublist hv4 hv6
    induction lease with
    | nil => rfl
    | cons ip lease ih =>
      rw [map_cons, flatMap_cons, length_append, ih, countP_cons, countP_cons]
      cases ip with
      | v4 ip =>
        have hentry : (assignment 0 (.v4 ip)).octets.length = 7 := rfl
        simp only [hentry, isV4]
        simp
        omega
      | v6 ip =>
        have hentry : (assignment 0 (.v6 ip)).octets.length = 19 := rfl
        simp only [hentry, isV4]
        simp
        omega
  have hle := (hsublist.flatMap AssignedAddress.octets).length_le
  omega

/-- A tunnel has at most one address of each family. -/
structure SmallLease (lease : List IpAddr) : Prop where
  v4_le : lease.countP isV4 ≤ 1
  v6_le : (lease.countP fun ip => !isV4 ip) ≤ 1

lemma Accepted.encode_le (h : Accepted lease state requests state' reply)
    (hlease : SmallLease lease)
    (hbounded : state'.seen.size ≤ maxAddressRequestIds)
    (hids : ∀ request ∈ requests, request.requestId ≤ Varint.maxValue) :
    ∃ output, encode reply [] = some output ∧ output.length ≤ 61 * requests.length := by
  obtain ⟨extra, heq, hsublist, -⟩ := complete_spec (requests.map (assign lease)) lease
  have hreply := h.reply_eq
  rw [heq] at hreply
  have hextra := length_extra_le hsublist hlease.v4_le hlease.v6_le
  have hanswers : ((requests.map (assign lease)).flatMap AssignedAddress.octets).length ≤
      26 * requests.length := by
    clear heq hreply h
    induction requests with
    | nil => simp
    | cons request requests ih =>
      have hfirst := length_assign_le lease (hids request mem_cons_self)
      have hrest := ih fun r hr => hids r (mem_cons_of_mem request hr)
      rw [map_cons, flatMap_cons, length_append, length_cons]
      omega
  have hcount : requests.length ≤ 1024 := by
    have := h.size_eq
    unfold maxAddressRequestIds at hbounded
    omega
  have hpos := length_pos_iff.mpr h.nonempty
  have hvalue : reply.valueOctets.length ≤ 26 * requests.length + 26 := by
    rw [hreply, CapsuleFrame.valueOctets, flatMap_append, length_append]
    omega
  have hmax : reply.valueOctets.length ≤ Varint.maxValue := by
    unfold Varint.maxValue
    omega
  have hvalid : reply.Valid := by
    rw [hreply]
    intro entry hentry
    obtain hentry | hentry := mem_append.mp hentry
    · obtain ⟨request, hrequest, rfl⟩ := List.mem_map.mp hentry
      exact assignment_wellFormed (hids request hrequest) _
    · obtain ⟨ip, hip, rfl⟩ := List.mem_map.mp (hsublist.subset hentry)
      exact assignment_wellFormed (Nat.zero_le _) ip
  refine ⟨_, CapsuleFrame.WellFormed.encode ⟨hvalid, hmax⟩ [], ?_⟩
  have htype : (Varint.shortest reply.capsuleType).length = 1 := by
    rw [hreply]
    rfl
  have hlength := length_shortest_le_eight hmax
  rw [nil_append, CapsuleFrame.octets, length_append, length_append]
  omega

/-! ### All requests of a tunnel -/

def respondAll (lease : List IpAddr) : AddressRequests → List (List AssignedAddress) →
    AddressRequests × List (List AssignedAddress × Except DecodeError CapsuleFrame)
  | state, [] => (state, [])
  | state, requests :: more =>
    let (state', reply) := state.respond requests lease
    let (final, replies) := respondAll lease state' more
    (final, (requests, reply) :: replies)

def answered (replies : List (List AssignedAddress × Except DecodeError CapsuleFrame)) :
    List (List AssignedAddress × CapsuleFrame) :=
  replies.filterMap fun p => p.2.toOption.map fun reply => (p.1, reply)

def answeredIds (replies : List (List AssignedAddress × Except DecodeError CapsuleFrame)) :
    List ℕ :=
  (answered replies).flatMap fun p => ids p.1

lemma respondAll_cons (requests : List AssignedAddress) (more : List (List AssignedAddress)) :
    respondAll lease state (requests :: more) =
      ((respondAll lease (state.respond requests lease).1 more).1,
        (requests, (state.respond requests lease).2) ::
          (respondAll lease (state.respond requests lease).1 more).2) := rfl

theorem respondAll_bounded (lease : List IpAddr) (all : List (List AssignedAddress))
    (h : state.seen.size ≤ maxAddressRequestIds) :
    (respondAll lease state all).1.seen.size ≤ maxAddressRequestIds := by
  induction all generalizing state with
  | nil => exact h
  | cons requests more ih =>
    rw [respondAll_cons]
    exact ih (respond_bounded requests lease h)

theorem answeredIds_spec (lease : List IpAddr) (all : List (List AssignedAddress))
    (state : AddressRequests) :
    (answeredIds (respondAll lease state all).2).Nodup ∧
      (∀ id ∈ answeredIds (respondAll lease state all).2,
        id ≠ 0 ∧ state.seen.contains id = false) ∧
      state.seen.size + (answeredIds (respondAll lease state all).2).length ≤
        (respondAll lease state all).1.seen.size := by
  induction all generalizing state with
  | nil => simp [respondAll, answeredIds, answered]
  | cons requests more ih =>
    obtain ⟨hnodup, hfresh, hsize⟩ := ih (state.respond requests lease).1
    rw [respondAll_cons]
    have hmono : ∀ id ∈ answeredIds (respondAll lease (state.respond requests lease).1 more).2,
        id ≠ 0 ∧ state.seen.contains id = false := by
      intro id hid
      refine ⟨(hfresh id hid).1, ?_⟩
      by_contra hseen
      rw [Bool.not_eq_false] at hseen
      have hkept := (respond_grows state requests lease).1 id hseen
      rw [(hfresh id hid).2] at hkept
      cases hkept
    cases hreply : (state.respond requests lease).2 with
    | error e =>
      have hsame : answeredIds ((requests, .error e) ::
          (respondAll lease (state.respond requests lease).1 more).2) =
          answeredIds (respondAll lease (state.respond requests lease).1 more).2 := rfl
      rw [hsame]
      have hle := (respond_grows state requests lease).2
      exact ⟨hnodup, hmono, le_trans (Nat.add_le_add_right hle _) hsize⟩
    | ok reply =>
      have haccepted := respond_accepted (Prod.ext rfl hreply :
        state.respond requests lease = ((state.respond requests lease).1, .ok reply))
      have hcons : answeredIds ((requests, .ok reply) ::
          (respondAll lease (state.respond requests lease).1 more).2) =
          ids requests ++ answeredIds (respondAll lease (state.respond requests lease).1 more).2 :=
            rfl
      rw [hcons]
      refine ⟨?_, ?_, ?_⟩
      · rw [nodup_append]
        refine ⟨haccepted.nodup, hnodup, fun id hid id' hid' heq => ?_⟩
        rw [heq] at hid
        have := haccepted.recorded id' hid
        rw [(hfresh id' hid').2] at this
        cases this
      · intro id hid
        obtain hid | hid := mem_append.mp hid
        · exact haccepted.fresh id hid
        · exact hmono id hid
      · have hsize' := haccepted.size_eq
        rw [length_append, ids, length_map]
        dsimp only
        omega

lemma forall_answered {P : List AssignedAddress → CapsuleFrame → Prop}
    {all : List (List AssignedAddress)}
    (hP : ∀ state requests state' reply, requests ∈ all → state'.seen.size ≤ maxAddressRequestIds →
      Accepted lease state requests state' reply → P requests reply)
    (h : state.seen.size ≤ maxAddressRequestIds) :
    ∀ p ∈ answered (respondAll lease state all).2, P p.1 p.2 := by
  induction all generalizing state with
  | nil => simp [respondAll, answered]
  | cons requests more ih =>
    rw [respondAll_cons]
    have hrest := ih (fun _ _ _ _ hmem => hP _ _ _ _ (mem_cons_of_mem requests hmem))
      (respond_bounded requests lease h)
    cases hreply : (state.respond requests lease).2 with
    | error e => exact hrest
    | ok reply =>
      have haccepted := respond_accepted (Prod.ext rfl hreply :
        state.respond requests lease = ((state.respond requests lease).1, .ok reply))
      intro p hp
      obtain rfl | hp := mem_cons.mp hp
      · exact hP _ _ _ _ mem_cons_self (respond_bounded requests lease h) haccepted
      · exact hrest p hp

/-! ### The control channel -/

end AddressRequests

/-- The identifiers used, and the replies that wait for the writer of an HTTP/2 tunnel. -/
structure ControlChannel where
  requests : AddressRequests
  queue : List Bytes

/-- The client sends a request, or the writer takes a reply. -/
inductive ControlEvent
  | request (requests : List AssignedAddress)
  | write

inductive ControlError
  | refused (e : DecodeError)
  | unencodable
  | queueFull

namespace ControlChannel

def new : ControlChannel := ⟨.new, []⟩

def step (lease : List IpAddr) (c : ControlChannel) :
    ControlEvent → Except ControlError ControlChannel
  | .request requests =>
    match c.requests.respond requests lease with
    | (_, .error e) => .error (.refused e)
    | (state, .ok reply) =>
      match encode reply [] with
      | none => .error .unencodable
      | some output =>
        if c.queue.length < maxControlResponses then .ok ⟨state, c.queue ++ [output]⟩
        else .error .queueFull
  | .write => .ok { c with queue := c.queue.tail }

/-- Every waiting reply has used up an identifier. -/
structure Paid (c : ControlChannel) : Prop where
  bounded : c.requests.seen.size ≤ maxAddressRequestIds
  queue_le : c.queue.length ≤ c.requests.seen.size

lemma step_paid {lease : List IpAddr} {c c' : ControlChannel} {e : ControlEvent} (h : c.Paid)
    (hstep : c.step lease e = .ok c') : c'.Paid := by
  cases e with
  | write =>
    cases hstep
    refine ⟨h.bounded, ?_⟩
    have := h.queue_le
    simp only [length_tail]
    omega
  | request requests =>
    simp only [step] at hstep
    split at hstep
    · cases hstep
    · rename_i state reply hrespond
      have haccepted := AddressRequests.respond_accepted hrespond
      have hbounded := AddressRequests.respond_bounded requests lease h.bounded
      rw [hrespond] at hbounded
      split at hstep
      · cases hstep
      · split_ifs at hstep with hroom
        cases hstep
        refine ⟨hbounded, ?_⟩
        have hpos := length_pos_iff.mpr haccepted.nonempty
        have hsize := haccepted.size_eq
        have hqueue := h.queue_le
        rw [length_append, length_singleton]
        dsimp only
        omega

theorem step_request_ok {lease : List IpAddr} (hlease : AddressRequests.SmallLease lease)
    {events : List ControlEvent} {c : ControlChannel}
    (hrun : run (fun c e => (step lease c e).toOption) new events = some c)
    {requests : List AssignedAddress}
    (hids : ∀ request ∈ requests, request.requestId ≤ Varint.maxValue) {e : ControlError}
    (he : c.step lease (.request requests) = .error e) : ∃ refusal, e = .refused refusal := by
  have hpaid : c.Paid := by
    refine run_preserves (fun s e s' hs hstep => ?_) ⟨Nat.zero_le _, Nat.zero_le _⟩ hrun
    cases hok : step lease s e with
    | error err =>
      rw [hok] at hstep
      cases hstep
    | ok t =>
      rw [hok] at hstep
      cases hstep
      exact step_paid hs hok
  simp only [step] at he
  split at he
  · cases he
    exact ⟨_, rfl⟩
  · rename_i state reply hrespond
    have haccepted := AddressRequests.respond_accepted hrespond
    have hbounded := AddressRequests.respond_bounded requests lease hpaid.bounded
    rw [hrespond] at hbounded
    obtain ⟨output, houtput, -⟩ := haccepted.encode_le hlease hbounded hids
    rw [houtput] at he
    have hroom : c.queue.length < maxControlResponses := by
      have hpos := length_pos_iff.mpr haccepted.nonempty
      have hsize := haccepted.size_eq
      have hqueue := hpaid.queue_le
      unfold maxControlResponses
      dsimp only at hbounded
      omega
    simp only [if_pos hroom] at he
    cases he

end ControlChannel

namespace AddressRequests

variable {lease : List IpAddr}

variable {replies : List (List AssignedAddress × CapsuleFrame)}

lemma outputs_le
    (h : ∀ p ∈ replies, ∃ output, encode p.2 [] = some output ∧ output.length ≤ 61 * p.1.length) :
    ∃ outputs, replies.mapM (fun p => encode p.2 []) = some outputs ∧
      (outputs.map List.length).sum ≤ 61 * (replies.flatMap fun p => ids p.1).length := by
  induction replies with
  | nil => exact ⟨[], rfl, by simp⟩
  | cons p replies ih =>
    obtain ⟨output, houtput, hlength⟩ := h p mem_cons_self
    obtain ⟨outputs, houtputs, hsum⟩ := ih fun q hq => h q (mem_cons_of_mem p hq)
    refine ⟨output :: outputs, by simp [mapM_cons, houtput, houtputs], ?_⟩
    rw [map_cons, sum_cons, flatMap_cons, length_append, ids, length_map]
    omega

lemma length_answered_le (h : ∀ p ∈ replies, p.1 ≠ []) :
    replies.length ≤ (replies.flatMap fun p => ids p.1).length := by
  induction replies with
  | nil => simp
  | cons p replies ih =>
    have hpos := length_pos_iff.mpr (h p mem_cons_self)
    have hrest := ih fun q hq => h q (mem_cons_of_mem p hq)
    rw [flatMap_cons, length_append, ids, length_map, length_cons]
    omega

/-- Over the life of a tunnel: identifiers are bounded, an identifier is answered at most once and
zero never, every reply is exactly what was asked for and leased, and with a lease of at most one
address of each family the replies are few, short, and never too many for the control channel. -/
theorem addressRequests_lifetime (hlease : ∀ ip ∈ lease, isUnspecified ip = false) :
    (∀ all, (respondAll lease new all).1.seen.size ≤ maxAddressRequestIds) ∧
    (∀ all, (answeredIds (respondAll lease new all).2).Nodup ∧
      0 ∉ answeredIds (respondAll lease new all).2) ∧
    (∀ all, ∀ p ∈ answered (respondAll lease new all).2, Answered lease p.1 p.2) ∧
    (SmallLease lease →
      (∀ all, (answered (respondAll lease new all).2).length ≤ 1024) ∧
      (∀ all, (∀ requests ∈ all, ∀ request ∈ requests, request.requestId ≤ Varint.maxValue) →
        ∃ outputs, (answered (respondAll lease new all).2).mapM (fun p => encode p.2 []) =
          some outputs ∧ (outputs.map List.length).sum < 64 * 1024) ∧
      ∀ events c requests e,
        run (fun c e => (ControlChannel.step lease c e).toOption) .new events = some c →
        (∀ request ∈ requests, request.requestId ≤ Varint.maxValue) →
        c.step lease (.request requests) = .error e → ∃ refusal, e = .refused refusal) := by
  have hnew : new.seen.size ≤ maxAddressRequestIds := Nat.zero_le _
  have hcount : ∀ all, (answeredIds (respondAll lease new all).2).length ≤ 1024 := by
    intro all
    have hspec := (answeredIds_spec lease all new).2.2
    have hbounded := respondAll_bounded lease all hnew
    unfold maxAddressRequestIds at hbounded
    omega
  refine ⟨fun all => respondAll_bounded lease all hnew, fun all => ?_, fun all => ?_,
    fun hsmall => ⟨fun all => ?_, fun all hids => ?_, ?_⟩⟩
  · obtain ⟨hnodup, hfresh, -⟩ := answeredIds_spec lease all new
    exact ⟨hnodup, fun hzero => (hfresh 0 hzero).1 rfl⟩
  · exact forall_answered (fun _ _ _ _ _ _ haccepted => haccepted.answered hlease) hnew
  · have hnonempty : ∀ p ∈ answered (respondAll lease new all).2, p.1 ≠ [] :=
      forall_answered (fun _ _ _ _ _ _ haccepted => haccepted.nonempty) hnew
    exact (length_answered_le hnonempty).trans (hcount all)
  · obtain ⟨outputs, houtputs, hsum⟩ := outputs_le (forall_answered
      (fun _ _ _ _ hmem hbounded haccepted => haccepted.encode_le hsmall hbounded (hids _ hmem))
        hnew)
    refine ⟨outputs, houtputs, ?_⟩
    have hids := hcount all
    unfold answeredIds at hids
    omega
  · intro events c requests e hrun hids he
    exact ControlChannel.step_request_ok hsmall hrun hids he

/-- A tunnel with one address, asked for it twice under one identifier. -/
theorem addressRequests_lifetime_reused :
    let lease : List IpAddr := [.v4 0x0A000002#32]
    let all : List (List AssignedAddress) := [[⟨5, .v4 0, 32⟩], [⟨5, .v4 0, 32⟩]]
    answeredIds (respondAll lease new all).2 = [5] ∧
      (answeredIds (respondAll lease new all).2).Nodup ∧
      (answered (respondAll lease new all).2).length ≤ 1024 := by
  intro lease all
  have hspecified : ∀ ip ∈ lease, isUnspecified ip = false := by decide
  have hlife := addressRequests_lifetime hspecified
  exact ⟨by decide, (hlife.2.1 all).1, (hlife.2.2.2 ⟨by decide, by decide⟩).1 all⟩

end AddressRequests

end MasqueServer
