import MasqueServer.TcpUpload

/-!
# Flow control of the upload

The counter is the bytes on their way to the target, so it bounds them, and the shard is never
refused what it was offered. Every byte is at one place between HTTP/3 and the target, and the
places keep their order.
-/
namespace MasqueServer

open List Option

namespace ShardPhase

def inHand : ShardPhase → Bytes
  | .reserving data | .exchanging data _ | .sending data => data
  | .idle | .arming | .rechecking | .offered _ | .undoing _ | .refused | .gone => []

/-- What `queue_client_data` has added to the counter ahead of its send. -/
def reserved : ShardPhase → ℕ
  | .sending data => data.length
  | .undoing len => len
  | .idle | .arming | .rechecking | .offered _ | .reserving _ | .exchanging _ _ | .refused
  | .gone => 0

def claim : ShardPhase → ℕ
  | .offered capacity => capacity
  | .reserving data | .exchanging data _ => data.length
  | .idle | .arming | .rechecking | .sending _ | .undoing _ | .refused | .gone => 0

def holds : ShardPhase → Bool
  | .reserving _ | .exchanging _ _ | .sending _ => true
  | .idle | .arming | .rechecking | .offered _ | .undoing _ | .refused | .gone => false

def asks : ShardPhase → Bool
  | .arming | .rechecking | .offered _ => true
  | .idle | .reserving _ | .exchanging _ _ | .sending _ | .undoing _ | .refused | .gone => false

def turnedAway : ShardPhase → Bool
  | .undoing _ | .refused => true
  | .idle | .arming | .rechecking | .offered _ | .reserving _ | .exchanging _ _ | .sending _
  | .gone => false

/-- Between its calls, or asking for room, or at its end. -/
def waits : ShardPhase → Bool
  | .idle | .arming | .rechecking | .offered _ | .gone => true
  | .reserving _ | .exchanging _ _ | .sending _ | .undoing _ | .refused => false

lemma of_waits {p : ShardPhase} (h : p.waits = true) :
    p.inHand = [] ∧ p.reserved = 0 ∧ p.holds = false ∧ p.turnedAway = false := by
  cases p <;> first | exact ⟨rfl, rfl, rfl, rfl⟩ | cases h

lemma inHand_eq_nil {p : ShardPhase} (h : p.holds = false) : p.inHand = [] := by
  cases p with
  | reserving data => cases h
  | exchanging data current => cases h
  | sending data => cases h
  | _ => rfl

end ShardPhase

namespace WriterPhase

def chunk : WriterPhase → ℕ
  | .writing _ len | .releasing len _ => len
  | .receiving | .checking | .swapping | .notifying | .closing | .reporting _ | .ended => 0

def rest : WriterPhase → Bytes
  | .writing rest _ => rest
  | .releasing _ _ | .receiving | .checking | .swapping | .notifying | .closing | .reporting _
  | .ended => []

def stopped : WriterPhase → Bool
  | .releasing _ false | .reporting _ | .ended => true
  | .releasing _ true | .writing _ _ | .receiving | .checking | .swapping | .notifying
  | .closing => false

end WriterPhase

lemma commandBytes_concat (channel : List TcpCommand) (c : TcpCommand) :
    commandBytes (channel ++ [c]) = commandBytes channel ++ c.bytes := by
  simp [commandBytes]

lemma commandBytes_cons (c : TcpCommand) (channel : List TcpCommand) :
    commandBytes (c :: channel) = c.bytes ++ commandBytes channel := rfl

namespace TcpUpload

/-- The account of counter and bytes. -/
structure Sound (s : TcpUpload) : Prop where
  unconnected : s.connected = false →
    s.queuedClientBytes = 0 ∧ (s.shard = .idle ∨ s.shard = .gone)
  pending_finished : s.pendingFinished = true → s.streamFinished = true
  client_finished : s.clientFinished = true →
    s.streamFinished = true ∧ s.early = [] ∧ s.shard.holds = false
  handed_over : s.shard.asks = true → s.early = []
  counted : s.writer ≠ .ended →
    s.queuedClientBytes =
      (commandBytes s.channel).length + s.writer.chunk + s.shard.reserved
  reserved_le : s.shard.reserved ≤ s.queuedClientBytes
  room : s.queuedClientBytes + s.shard.claim + s.earlyBytes ≤ maxBufferedClientBytes
  current : ∀ data current, s.shard = .exchanging data current →
    s.queuedClientBytes ≤ current ∧
      current + data.length + s.earlyBytes ≤ maxBufferedClientBytes
  turned_away : s.shard.turnedAway = true → s.writer = .ended
  bytes : s.writer.stopped = false →
    s.target ++ (s.writer.rest ++ (commandBytes s.channel ++ (s.shard.inHand ++
      (s.early.flatten ++ s.unread)))) = s.request
  target_prefix : s.target <+: s.request
  finish_last : ∀ before after, s.channel = before ++ .finish :: after →
    after = [] ∧ s.clientFinished = true
  closing : s.writer = .closing → s.channel = [] ∧ s.clientFinished = true
  shut : s.shut = true → s.fin = true ∧ s.target = s.request ∧ s.writer.stopped = true

variable {s s' : TcpUpload} {bodyLen : ℕ}

lemma opened_sound : opened.Sound where
  unconnected _ := ⟨rfl, .inl rfl⟩
  pending_finished h := nomatch h
  client_finished h := nomatch h
  handed_over _ := rfl
  counted _ := rfl
  reserved_le := le_rfl
  room := Nat.zero_le _
  current _ _ h := nomatch h
  turned_away h := nomatch h
  bytes _ := rfl
  target_prefix := prefix_refl _
  finish_last before after h := by
    change [] = before ++ .finish :: after at h
    simp at h
  closing h := nomatch h
  shut h := nomatch h

lemma streamFinished_iff : s.streamFinished = true ↔ s.fin = true ∧ s.unread = [] := by
  simp [streamFinished]

lemma relaying_iff : s.relaying = true ↔
    s.shard = .idle ∧ s.connected = true ∧ s.early = [] ∧
      (s.pendingFinished = true → s.clientFinished = true) := by
  simp [relaying, and_assoc, imp_iff_not_or]

lemma Sound.not_shut (h : s.Sound) (hover : s.writer.stopped = false) : s.shut = false := by
  by_contra hne
  rw [Bool.not_eq_false] at hne
  rw [(h.shut hne).2.2] at hover
  cases hover

lemma Sound.not_finished (h : s.Sound) (hholds : s.shard.holds = true) :
    s.clientFinished = false := by
  by_contra hne
  rw [Bool.not_eq_false] at hne
  rw [(h.client_finished hne).2.2] at hholds
  cases hholds

lemma Sound.finish_not_mem (h : s.Sound) (hfinished : s.clientFinished = false) :
    .finish ∉ s.channel := by
  intro hmem
  obtain ⟨before, after, hsplit⟩ := append_of_mem hmem
  rw [(h.finish_last before after hsplit).2] at hfinished
  cases hfinished

lemma clientStep_sound (h : s.Sound) {e : ClientStep} (hstep : s.clientStep e = some s') :
    s'.Sound := by
  cases e with
  | arrive bytes =>
    obtain ⟨hfin, hstep⟩ := ite_none_left_eq_some.mp hstep
    cases hstep
    have hnot : ¬s.streamFinished = true := fun hf => hfin (streamFinished_iff.mp hf).1
    refine { h with
      pending_finished := fun hf => absurd (h.pending_finished hf) hnot
      client_finished := fun hf => absurd (h.client_finished hf).1 hnot
      bytes := fun hover => ?_
      target_prefix := h.target_prefix.trans (prefix_append _ _)
      shut := fun hs => absurd (h.shut hs).1 hfin }
    rw [← h.bytes hover]
    simp only [append_assoc]
  | fin =>
    cases hstep
    have hkeeps : s.streamFinished = true →
        streamFinished { s with fin := true } = true := by
      rw [streamFinished_iff, streamFinished_iff]
      exact fun hf => ⟨rfl, hf.2⟩
    exact { h with
      pending_finished := fun hf => hkeeps (h.pending_finished hf)
      client_finished := fun hf => ⟨hkeeps (h.client_finished hf).1, (h.client_finished hf).2⟩
      shut := fun hs => ⟨rfl, (h.shut hs).2⟩ }

lemma send_of_alive (c : TcpCommand) (hw : s.writer ≠ .ended) :
    s.send c = { s with channel := s.channel ++ [c] } := if_neg hw

lemma Sound.connected_of_busy (h : s.Sound) (hbusy : s.shard ≠ .idle ∧ s.shard ≠ .gone) :
    s.connected = true := by
  by_contra hne
  rw [Bool.not_eq_true] at hne
  obtain hidle | hgone := (h.unconnected hne).2
  · exact hbusy.1 hidle
  · exact hbusy.2 hgone

/-! ### The steps of the shard -/

lemma Sound.buffer (h : s.Sound) {n : ℕ} (hidle : s.shard = .idle) (hconn : s.connected = false)
    (hpos : 0 < n) (hn : n ≤ s.unread.length) (hroom : n ≤ maxBufferedClientBytes - s.earlyBytes) :
    Sound { s with early := s.early ++ [s.unread.take n], unread := s.unread.drop n } := by
  have hunread : s.unread ≠ [] := ne_nil_of_length_pos (by omega)
  have hnot : ¬s.streamFinished = true := fun hf => hunread (streamFinished_iff.mp hf).2
  have hzero := (h.unconnected hconn).1
  have hbefore := h.room
  refine { h with
    pending_finished := fun hf => absurd (h.pending_finished hf) hnot
    client_finished := fun hf => absurd (h.client_finished hf).1 hnot
    handed_over := fun hp => ?_
    room := ?_
    current := fun data current hp => ?_
    bytes := fun hover => ?_ }
  · rw [hidle] at hp
    cases hp
  · change s.queuedClientBytes + s.shard.claim + (s.early ++ [s.unread.take n]).flatten.length ≤ _
    rw [hidle, hzero] at hbefore ⊢
    simp only [ShardPhase.claim, earlyBytes] at hbefore hroom ⊢
    rw [flatten_append, length_append, flatten_singleton, length_take]
    omega
  · simp [hidle] at hp
  · rw [← h.bytes hover]
    simp

variable {data : Bytes} {history : List UploadRecord} {len : ℕ}

variable (h : s.Sound)
include h

lemma Sound.transfer {rest : List Bytes} (hearly : s.early = data :: rest)
    (hidle : s.shard = .idle) (hconn : s.connected = true) :
    Sound { s with early := rest, shard := .reserving data } := by
  have hunfinished : s.clientFinished = false := by
    by_contra hne
    rw [Bool.not_eq_false] at hne
    simp [(h.client_finished hne).2.1] at hearly
  have hroom := h.room
  have hlength : s.earlyBytes = data.length + rest.flatten.length := by
    rw [earlyBytes, hearly, flatten_cons, length_append]
  rw [hidle, hlength] at hroom
  refine { h with
    unconnected := fun hc => absurd hc (by simp [hconn])
    client_finished := fun hf => absurd hf (by simp [hunfinished])
    handed_over := fun hp => nomatch hp
    counted := fun hw => ?_
    reserved_le := Nat.zero_le _
    room := ?_
    current := fun _ _ hp => nomatch hp
    turned_away := fun hp => nomatch hp
    bytes := fun hover => ?_ }
  · have hcounted := h.counted hw
    rw [hidle] at hcounted
    exact hcounted
  · simp only [ShardPhase.claim, earlyBytes] at hroom ⊢
    omega
  · rw [← h.bytes hover, hidle, hearly]
    simp [ShardPhase.inHand]

lemma Sound.finishClient (hidle : s.shard = .idle) (hearly : s.early = [])
    (hdone : s.streamFinished = true) : s.finishClient.Sound := by
  unfold TcpUpload.finishClient
  split_ifs with hf
  · exact h
  · have hnot := h.finish_not_mem (Bool.not_eq_true _ ▸ hf)
    have hclosed : ∀ _ : (true : Bool) = true, s.streamFinished = true ∧ s.early = [] ∧
        s.shard.holds = false := fun _ => ⟨hdone, hearly, by rw [hidle]; rfl⟩
    by_cases hw : s.writer = .ended
    · rw [send, if_pos hw]
      exact { h with
        client_finished := hclosed
        finish_last := fun before after hc => ⟨(h.finish_last before after hc).1, rfl⟩
        closing := fun hp => ⟨(h.closing hp).1, rfl⟩ }
    · rw [send_of_alive _ hw]
      refine { h with
        client_finished := hclosed
        counted := fun hw' => ?_
        bytes := fun hover => ?_
        finish_last := fun before after hc => ⟨?_, rfl⟩
        closing := fun hp => absurd (h.closing hp).2 hf }
      · change s.queuedClientBytes = (commandBytes (s.channel ++ [.finish])).length + _ + _
        rw [commandBytes_concat, TcpCommand.bytes, append_nil]
        exact h.counted hw'
      · change s.target ++ (s.writer.rest ++ (commandBytes (s.channel ++ [.finish]) ++ _)) = _
        rw [commandBytes_concat, TcpCommand.bytes, append_nil]
        exact h.bytes hover
      · obtain rfl | ⟨after', last, rfl⟩ := after.eq_nil_or_concat
        · rfl
        · change s.channel ++ [.finish] = before ++ .finish :: after'.concat last at hc
          rw [concat_eq_append, ← cons_append, ← append_assoc] at hc
          obtain ⟨hchannel, -⟩ := append_inj' hc rfl
          exact absurd (by rw [hchannel]; simp) hnot

lemma Sound.move {p : ShardPhase} {waiter : Bool} {wakeups : ℕ}
    (hconn : s.connected = false → p = .idle ∨ p = .gone) (hhand : p.inHand = s.shard.inHand)
    (hres : p.reserved = s.shard.reserved) (hholds : p.holds = true → s.shard.holds = true)
    (hearly : p.asks = true → s.early = [])
    (hclaim : s.queuedClientBytes + p.claim + s.earlyBytes ≤ maxBufferedClientBytes)
    (hcurrent : ∀ data current, p = .exchanging data current → s.queuedClientBytes ≤ current ∧
      current + data.length + s.earlyBytes ≤ maxBufferedClientBytes)
    (haway : p.turnedAway = true → s.writer = .ended) : Sound { s with
      shard := p, clientCapacityWaiter := waiter, wakeups := wakeups, history := history } := by
  refine { h with
    unconnected := fun hc => ⟨(h.unconnected hc).1, hconn hc⟩
    client_finished := fun hf => ⟨(h.client_finished hf).1, (h.client_finished hf).2.1, ?_⟩
    handed_over := hearly
    counted := fun hw => (h.counted hw).trans (congrArg _ hres.symm)
    reserved_le := hres.trans_le h.reserved_le
    room := hclaim
    current := hcurrent
    turned_away := haway
    bytes := fun hover => ?_ }
  · rw [← Bool.not_eq_true]
    intro hp
    have hnone := (h.client_finished hf).2.2
    rw [hholds hp] at hnone
    cases hnone
  · change _ ++ (_ ++ (_ ++ (p.inHand ++ _))) = _
    rw [hhand]
    exact h.bytes hover

/-- A shard without bytes in hand goes to a phase in which it has none either. -/
lemma Sound.turn {p : ShardPhase} {waiter : Bool} {wakeups : ℕ}
    (hempty : s.shard.inHand = [] ∧ s.shard.reserved = 0) (hwaits : p.waits = true)
    (hasks : p.asks = true → s.connected = true ∧ s.early = [])
    (hclaim : s.queuedClientBytes + p.claim + s.earlyBytes ≤ maxBufferedClientBytes) :
    Sound { s with
      shard := p, clientCapacityWaiter := waiter, wakeups := wakeups, history := history } := by
  have hconn : s.connected = false → p = .idle ∨ p = .gone := fun hc => by
    cases p <;> simp_all [ShardPhase.waits, ShardPhase.asks]
  obtain ⟨hhand, hreserved, hholds, haway⟩ := ShardPhase.of_waits hwaits
  refine h.move hconn (hhand.trans hempty.1.symm) (hreserved.trans hempty.2.symm)
    (fun hp => absurd hp (by simp [hholds])) (fun hp => (hasks hp).2) hclaim ?_
    fun hp => absurd hp (by simp [haway])
  rintro data current rfl
  cases hwaits

omit h in
lemma earlyBytes_eq_zero (hearly : s.early = []) : s.earlyBytes = 0 := by
  rw [earlyBytes, hearly]
  rfl

lemma Sound.loadCapacity (hready : s.relaying = true) : s.loadCapacity.Sound := by
  obtain ⟨hidle, hconn, hearly, -⟩ := relaying_iff.mp hready
  have hzero := earlyBytes_eq_zero hearly
  have hroom := h.room
  have hempty : s.shard.inHand = [] ∧ s.shard.reserved = 0 := by
    rw [hidle]
    exact ⟨rfl, rfl⟩
  unfold TcpUpload.loadCapacity
  split_ifs with hless
  · refine h.turn hempty rfl (fun _ => ⟨hconn, hearly⟩) ?_
    simp only [ShardPhase.claim]
    omega
  · refine h.turn hempty rfl (fun _ => ⟨hconn, hearly⟩) ?_
    simp only [ShardPhase.claim]
    omega

lemma Sound.arm (hp : s.shard = .arming) {waiter : Bool} :
    Sound { s with shard := .rechecking, clientCapacityWaiter := waiter, history := history } := by
  have hroom := h.room
  rw [hp] at hroom
  exact h.turn (by rw [hp]; exact ⟨rfl, rfl⟩) rfl
    (fun _ => ⟨h.connected_of_busy (by simp [hp]), h.handed_over (by rw [hp]; rfl)⟩) hroom

lemma Sound.reload (hp : s.shard = .rechecking) : s.reloadCapacity.Sound := by
  have hearly := h.handed_over (by rw [hp]; rfl)
  have hzero := earlyBytes_eq_zero hearly
  have hroom := h.room
  have hempty : s.shard.inHand = [] ∧ s.shard.reserved = 0 := by
    rw [hp]
    exact ⟨rfl, rfl⟩
  unfold TcpUpload.reloadCapacity
  dsimp only
  split_ifs with hfull
  · refine h.turn hempty rfl (fun hasks => nomatch hasks) ?_
    simp only [ShardPhase.claim]
    omega
  · refine h.turn hempty rfl (fun _ => ⟨h.connected_of_busy (by simp [hp]), hearly⟩) ?_
    simp only [ShardPhase.claim]
    omega

/-- From whatever was claimed or refused, nothing is claimed any more. -/
lemma Sound.letGo {p : ShardPhase} (hempty : s.shard.inHand = [] ∧ s.shard.reserved = 0)
    (hp : p = .idle ∨ p = .gone) : Sound { s with shard := p } := by
  have hroom := h.room
  obtain rfl | rfl := hp <;>
  · refine h.turn hempty rfl (fun hasks => nomatch hasks) ?_
    simp only [ShardPhase.claim]
    omega

lemma Sound.leave {capacity : ℕ} (hp : s.shard = .offered capacity) :
    Sound { s with shard := .idle } :=
  h.letGo (by rw [hp]; exact ⟨rfl, rfl⟩) (.inl rfl)

lemma Sound.drop (hp : s.shard = .idle ∨ s.shard = .refused) : Sound { s with shard := .gone } :=
  h.letGo (by obtain hp | hp := hp <;> rw [hp] <;> exact ⟨rfl, rfl⟩) (.inr rfl)

lemma Sound.recvBody {capacity n : ℕ} (hp : s.shard = .offered capacity) (hpos : 0 < n)
    (hn : n ≤ s.unread.length) (hcap : n ≤ capacity) :
    Sound { s with shard := .reserving (s.unread.take n), unread := s.unread.drop n } := by
  have hunread : s.unread ≠ [] := ne_nil_of_length_pos (by omega)
  have hnot : ¬s.streamFinished = true := fun hf => hunread (streamFinished_iff.mp hf).2
  have hconn := h.connected_of_busy (by simp [hp])
  have hroom := h.room
  refine { h with
    unconnected := fun hc => absurd hc (by simp [hconn])
    pending_finished := fun hf => absurd (h.pending_finished hf) hnot
    client_finished := fun hf => absurd (h.client_finished hf).1 hnot
    handed_over := fun hp' => nomatch hp'
    counted := fun hw => ?_
    reserved_le := Nat.zero_le _
    room := ?_
    current := fun _ _ hp' => nomatch hp'
    turned_away := fun hp' => nomatch hp'
    bytes := fun hover => ?_ }
  · have hcounted := h.counted hw
    rw [hp] at hcounted
    exact hcounted
  · change s.queuedClientBytes + (s.unread.take n).length + s.earlyBytes ≤ _
    rw [hp] at hroom
    simp only [ShardPhase.claim] at hroom
    rw [length_take]
    omega
  · rw [← h.bytes hover, hp, h.handed_over (by rw [hp]; rfl)]
    simp [ShardPhase.inHand]

/-- The counter as it is now is what the next exchange expects. -/
lemma Sound.exchangeAgain (hconn : s.connected = true)
    (hhand : s.shard.inHand = data ∧ s.shard.reserved = 0 ∧ s.shard.holds = true ∧
      s.shard.claim = data.length) :
    Sound { s with shard := .exchanging data s.queuedClientBytes } := by
  obtain ⟨hdata, hreserved, hholds, hclaim⟩ := hhand
  have hroom := h.room
  rw [hclaim] at hroom
  refine h.move (fun hc => absurd hc (by simp [hconn])) hdata.symm hreserved.symm (fun _ => hholds)
    (fun hp => nomatch hp) hroom ?_ fun hp => nomatch hp
  intro data' current hp
  cases hp
  exact ⟨le_rfl, hroom⟩

lemma Sound.exchange {current : ℕ} (hp : s.shard = .exchanging data current) (spurious : Bool) :
    (s.exchange data current spurious).Sound := by
  have hconn := h.connected_of_busy (by simp [hp])
  have hunfinished := h.not_finished (by rw [hp]; rfl)
  obtain ⟨hle, hfits⟩ := h.current data current hp
  have hroom := h.room
  rw [hp] at hroom
  simp only [ShardPhase.claim] at hroom
  unfold TcpUpload.exchange
  rw [if_pos (by omega)]
  split_ifs with heq
  · refine { h with
      unconnected := fun hc => absurd hc (by simp [hconn])
      client_finished := fun hf => absurd hf (by simp [hunfinished])
      handed_over := fun hp' => nomatch hp'
      counted := fun hw => ?_
      reserved_le := Nat.le_add_left _ _
      room := hfits
      current := fun _ _ hp' => nomatch hp'
      turned_away := fun hp' => nomatch hp'
      bytes := fun hover => ?_ }
    · have hcounted := h.counted hw
      rw [hp, heq.1] at hcounted
      change current + data.length = _ + _ + data.length
      rw [hcounted]
      rfl
    · rw [← h.bytes hover, hp]
      rfl
  · exact h.exchangeAgain hconn (by rw [hp]; exact ⟨rfl, rfl, rfl, rfl⟩)

lemma Sound.sendCommand (hp : s.shard = .sending data) : Sound { s.send (.data data) with
      shard := if s.writer = .ended then .undoing data.length else .idle } := by
  have hconn := h.connected_of_busy (by simp [hp])
  have hunfinished := h.not_finished (by rw [hp]; rfl)
  have hnot := h.finish_not_mem hunfinished
  have hroom := h.room
  rw [hp] at hroom
  by_cases hw : s.writer = .ended
  · rw [send, if_pos hw, if_pos hw]
    refine { h with
      unconnected := fun hc => absurd hc (by simp [hconn])
      client_finished := fun hf => absurd hf (by simp [hunfinished])
      handed_over := fun hp' => nomatch hp'
      counted := fun hw' => absurd hw hw'
      reserved_le := ?_
      room := hroom
      current := fun _ _ hp' => nomatch hp'
      turned_away := fun _ => hw
      bytes := fun hover => ?_ }
    · have hle := h.reserved_le
      rw [hp] at hle
      exact hle
    · rw [hw] at hover
      cases hover
  · rw [send_of_alive _ hw, if_neg hw]
    refine { h with
      unconnected := fun hc => absurd hc (by simp [hconn])
      client_finished := fun hf => absurd hf (by simp [hunfinished])
      handed_over := fun hp' => nomatch hp'
      counted := fun _ => ?_
      reserved_le := Nat.zero_le _
      room := hroom
      current := fun _ _ hp' => nomatch hp'
      turned_away := fun hp' => nomatch hp'
      bytes := fun hover => ?_
      finish_last := fun before after hc => absurd ?_ hnot
      closing := fun hp' => absurd (h.closing hp').2 (by simp [hunfinished]) }
    · have hcounted := h.counted hw
      rw [hp] at hcounted
      change s.queuedClientBytes = (commandBytes (s.channel ++ [.data data])).length + _ + 0
      rw [commandBytes_concat, length_append, hcounted]
      simp only [TcpCommand.bytes, ShardPhase.reserved]
      omega
    · change _ ++ (_ ++ (commandBytes (s.channel ++ [.data data]) ++ _)) = _
      rw [commandBytes_concat, ← h.bytes hover, hp]
      simp [TcpCommand.bytes, ShardPhase.inHand]
    · have hmem : .finish ∈ s.channel ++ [.data data] := by
        rw [show s.channel ++ [.data data] = before ++ .finish :: after from hc]
        simp
      simpa using hmem

lemma Sound.undo (hp : s.shard = .undoing len) :
    Sound { s with queuedClientBytes := s.queuedClientBytes - len, shard := .refused } := by
  have hconn := h.connected_of_busy (by simp [hp])
  have hended := h.turned_away (by rw [hp]; rfl)
  have hroom := h.room
  rw [hp] at hroom
  refine { h with
    unconnected := fun hc => absurd hc (by simp [hconn])
    client_finished := fun hf => ⟨(h.client_finished hf).1, (h.client_finished hf).2.1, rfl⟩
    handed_over := fun hp' => nomatch hp'
    counted := fun hw => absurd hended hw
    reserved_le := Nat.zero_le _
    room := ?_
    current := fun _ _ hp' => nomatch hp'
    turned_away := fun _ => hended
    bytes := fun hover => ?_ }
  · change s.queuedClientBytes - len + 0 + s.earlyBytes ≤ _
    simp only [ShardPhase.claim] at hroom
    omega
  · rw [hended] at hover
    cases hover

lemma shardStep_sound {e : ShardStep} (hstep : s.shardStep bodyLen e = some s') : s'.Sound := by
  cases e with
  | buffer n =>
    obtain ⟨⟨hidle, hconn, hpos, hn, hmin⟩, rfl⟩ := by
      simpa only [shardStep, bufferClientData, ite_none_right_eq_some,
        some.injEq] using hstep
    exact h.buffer hidle hconn hpos hn (le_trans hmin (min_le_right _ _))
  | markFinished =>
    obtain ⟨⟨-, -, hdone⟩, hs⟩ := ite_none_right_eq_some.mp hstep
    cases hs
    exact { h with pending_finished := fun _ => hdone }
  | connect =>
    obtain ⟨-, hs⟩ := ite_none_right_eq_some.mp hstep
    cases hs
    exact { h with unconnected := fun hc => nomatch hc }
  | transfer =>
    cases hearly : s.early with
    | nil => simp [shardStep, hearly] at hstep
    | cons data rest =>
      simp only [shardStep, hearly, ite_none_right_eq_some, some.injEq] at hstep
      obtain ⟨⟨hidle, hconn⟩, rfl⟩ := hstep
      exact h.transfer hearly hidle hconn
  | finishClient =>
    obtain ⟨⟨hidle, -, hearly, hdone⟩, hs⟩ := ite_none_right_eq_some.mp hstep
    cases hs
    exact h.finishClient hidle hearly (hdone.elim h.pending_finished id)
  | loadCapacity =>
    obtain ⟨hready, hs⟩ := ite_none_right_eq_some.mp hstep
    cases hs
    exact h.loadCapacity hready
  | arm =>
    obtain ⟨hp, hs⟩ := ite_none_right_eq_some.mp hstep
    cases hs
    exact h.arm hp
  | reload =>
    obtain ⟨hp, hs⟩ := ite_none_right_eq_some.mp hstep
    cases hs
    exact h.reload hp
  | recvBody n =>
    cases hp : s.shard with
    | offered capacity =>
      simp only [shardStep, hp, ite_none_right_eq_some, some.injEq] at hstep
      obtain ⟨⟨hpos, hn, hmin⟩, rfl⟩ := hstep
      exact h.recvBody hp hpos hn (le_trans hmin (min_le_right _ _))
    | _ => simp [shardStep, hp] at hstep
  | leave =>
    cases hp : s.shard with
    | offered capacity =>
      simp only [shardStep, hp, some.injEq] at hstep
      subst hstep
      exact h.leave hp
    | _ => simp [shardStep, hp] at hstep
  | loadReserve =>
    cases hp : s.shard with
    | reserving data =>
      have hconn := h.connected_of_busy (by simp [hp])
      simp only [shardStep, hp, some.injEq] at hstep
      rw [if_neg (by simp [h.not_finished (by rw [hp]; rfl)])] at hstep
      subst hstep
      exact h.exchangeAgain hconn (by rw [hp]; exact ⟨rfl, rfl, rfl, rfl⟩)
    | _ => simp [shardStep, hp] at hstep
  | exchange spurious =>
    cases hp : s.shard with
    | exchanging data current =>
      simp only [shardStep, hp, some.injEq] at hstep
      subst hstep
      exact h.exchange hp spurious
    | _ => simp [shardStep, hp] at hstep
  | sendCommand =>
    cases hp : s.shard with
    | sending data =>
      simp only [shardStep, hp, some.injEq] at hstep
      subst hstep
      exact h.sendCommand hp
    | _ => simp [shardStep, hp] at hstep
  | undo =>
    cases hp : s.shard with
    | undoing len =>
      simp only [shardStep, hp, some.injEq] at hstep
      subst hstep
      exact h.undo hp
    | _ => simp [shardStep, hp] at hstep
  | receiveWritable =>
    obtain ⟨-, hs⟩ := ite_none_right_eq_some.mp hstep
    cases hs
    exact { h with }
  | drop =>
    obtain ⟨hp, hs⟩ := ite_none_right_eq_some.mp hstep
    cases hs
    exact h.drop hp

/-! ### The steps of the writer -/

lemma Sound.write_moves {p : WriterPhase} {waiter : Bool} {wakeups : ℕ} (halive : s.writer ≠ .ended)
    (hchunk : p.chunk = s.writer.chunk)
    (hbytes : p.stopped = false → s.writer.stopped = false ∧ p.rest = s.writer.rest)
    (hclosing : p ≠ .closing) (hover : s.writer.stopped = true → p.stopped = true) : Sound { s with
      writer := p, clientCapacityWaiter := waiter, wakeups := wakeups, history := history } := by
  refine { h with
    counted := fun _ => ?_
    turned_away := fun hp => absurd (h.turned_away hp) halive
    bytes := fun hp => ?_
    closing := fun hp => absurd hp hclosing
    shut := fun hs => ⟨(h.shut hs).1, (h.shut hs).2.1, hover (h.shut hs).2.2⟩ }
  · change s.queuedClientBytes = _ + p.chunk + _
    rw [hchunk]
    exact h.counted halive
  · obtain ⟨hgoing, hrest⟩ := hbytes hp
    change s.target ++ (p.rest ++ _) = _
    rw [hrest]
    exact h.bytes hgoing

lemma Sound.take {c : TcpCommand} {channel : List TcpCommand} (hw : s.writer = .receiving)
    (hc : s.channel = c :: channel) {p : WriterPhase} (hchunk : p.chunk = c.bytes.length)
    (hrest : p.rest = c.bytes) (hclosing : p = .closing → c = .finish) :
    Sound { s with channel, writer := p } := by
  have halive : s.writer ≠ .ended := by simp [hw]
  have hgoing : s.writer.stopped = false := by rw [hw]; rfl
  have hcounted := h.counted halive
  have hbytes := h.bytes hgoing
  rw [hw, hc, commandBytes_cons] at hcounted hbytes
  refine { h with
    counted := fun _ => ?_
    turned_away := fun hp => absurd (h.turned_away hp) halive
    bytes := fun _ => ?_
    finish_last := fun before after hsplit => ?_
    closing := fun hp => ?_
    shut := fun hs => absurd hs (by simp [h.not_shut hgoing]) }
  · change s.queuedClientBytes = (commandBytes channel).length + p.chunk + _
    rw [hcounted, hchunk, length_append]
    simp only [WriterPhase.chunk]
    omega
  · change s.target ++ (p.rest ++ (commandBytes channel ++ _)) = _
    rw [← hbytes, hrest]
    simp [WriterPhase.rest]
  · refine h.finish_last (c :: before) after ?_
    rw [hc, show channel = _ from hsplit]
    rfl
  · have hfinish := hclosing hp
    rw [hfinish] at hc
    exact h.finish_last [] channel hc

lemma Sound.write {rest : Bytes} (hw : s.writer = .writing rest len) (n : ℕ) :
    Sound { s with target := s.target ++ rest.take n, writer := .writing (rest.drop n) len } := by
  have halive : s.writer ≠ .ended := by simp [hw]
  have hgoing : s.writer.stopped = false := by rw [hw]; rfl
  have hbytes := h.bytes hgoing
  rw [hw] at hbytes
  have hwhole : s.target ++ rest.take n ++ (rest.drop n ++ (commandBytes s.channel ++
      (s.shard.inHand ++ (s.early.flatten ++ s.unread)))) = s.request := by
    rw [← hbytes]
    simp only [WriterPhase.rest]
    rw [append_assoc, ← append_assoc (rest.take n), take_append_drop]
  refine { h with
    counted := fun _ => ?_
    turned_away := fun hp => absurd (h.turned_away hp) halive
    bytes := fun _ => hwhole
    target_prefix := ⟨_, hwhole⟩
    closing := fun hp => nomatch hp
    shut := fun hs => absurd hs (by simp [h.not_shut hgoing]) }
  have hcounted := h.counted halive
  rw [hw] at hcounted
  exact hcounted

lemma Sound.fetchSub {ok : Bool} (hw : s.writer = .releasing len ok) : Sound { s with
      queuedClientBytes := s.queuedClientBytes - len
      writer := if ok then .checking else .reporting true } := by
  have halive : s.writer ≠ .ended := by simp [hw]
  have hcounted := h.counted halive
  have hroom := h.room
  rw [hw] at hcounted
  simp only [WriterPhase.chunk] at hcounted
  refine { h with
    unconnected := fun hc => ⟨by simp [(h.unconnected hc).1], (h.unconnected hc).2⟩
    counted := fun _ => ?_
    reserved_le := ?_
    room := ?_
    current := fun data current hp => ?_
    turned_away := fun hp => absurd (h.turned_away hp) halive
    bytes := fun hover => ?_
    closing := fun hp => ?_
    shut := fun hs => ⟨(h.shut hs).1, (h.shut hs).2.1, ?_⟩ }
  · have hchunk : (if ok then WriterPhase.checking else .reporting true).chunk = 0 := by
      cases ok <;> rfl
    change s.queuedClientBytes - len = (commandBytes s.channel).length + _ + s.shard.reserved
    rw [hchunk]
    omega
  · change s.shard.reserved ≤ s.queuedClientBytes - len
    omega
  · change s.queuedClientBytes - len + s.shard.claim + s.earlyBytes ≤ _
    omega
  · exact ⟨(Nat.sub_le _ _).trans (h.current data current hp).1, (h.current data current hp).2⟩
  · cases ok with
    | true =>
      have hbytes := h.bytes (by rw [hw]; rfl)
      rw [hw] at hbytes
      exact hbytes
    | false => cases hover
  · cases ok <;> cases hp
  · have hover := (h.shut hs).2.2
    rw [hw] at hover
    cases ok with
    | true => cases hover
    | false => rfl

lemma Sound.shutdown (hw : s.writer = .closing) (ok : Bool) :
    Sound { s with shut := ok, writer := .reporting !ok } := by
  have halive : s.writer ≠ .ended := by simp [hw]
  obtain ⟨hchannel, hfinished⟩ := h.closing hw
  obtain ⟨hdone, hearly, hholds⟩ := h.client_finished hfinished
  obtain ⟨hfin, hunread⟩ := streamFinished_iff.mp hdone
  have hwhole : s.target = s.request := by
    rw [← h.bytes (by rw [hw]; rfl), hw, hchannel, ShardPhase.inHand_eq_nil hholds, hearly, hunread]
    simp [WriterPhase.rest, commandBytes]
  refine { h with
    counted := fun _ => ?_
    turned_away := fun hp => absurd (h.turned_away hp) halive
    bytes := fun hp => nomatch hp
    closing := fun hp => nomatch hp
    shut := fun _ => ⟨hfin, hwhole, rfl⟩ }
  have hcounted := h.counted halive
  rw [hw] at hcounted
  exact hcounted

lemma Sound.ends : Sound { s with writer := .ended } :=
  { h with
    counted := fun hw => absurd rfl hw
    turned_away := fun _ => rfl
    bytes := fun hp => nomatch hp
    closing := fun hp => nomatch hp
    shut := fun hs => ⟨(h.shut hs).1, (h.shut hs).2.1, rfl⟩ }

lemma writerStep_sound {e : WriterStep} (hstep : s.writerStep e = some s') : s'.Sound := by
  cases e with
  | take =>
    cases hw : s.writer with
    | receiving =>
      cases hc : s.channel with
      | nil => simp [writerStep, hw, hc] at hstep
      | cons c channel =>
        cases c with
        | data bytes =>
          simp only [writerStep, hw, hc, some.injEq] at hstep
          subst hstep
          exact h.take hw hc rfl rfl (fun hp => nomatch hp)
        | finish =>
          simp only [writerStep, hw, hc, some.injEq] at hstep
          subst hstep
          exact h.take hw hc rfl rfl (fun _ => rfl)
    | _ => simp [writerStep, hw] at hstep
  | write n =>
    cases hw : s.writer with
    | writing rest len =>
      simp only [writerStep, hw, some.injEq] at hstep
      subst hstep
      exact h.write hw n
    | _ => simp [writerStep, hw] at hstep
  | writeDone =>
    cases hw : s.writer with
    | writing rest len =>
      cases rest with
      | nil =>
        simp only [writerStep, hw, some.injEq] at hstep
        subst hstep
        exact h.write_moves (by simp [hw]) (by rw [hw]; rfl) (fun _ => by rw [hw]; exact ⟨rfl, rfl⟩)
          (by simp) (fun hp => by rw [hw] at hp; cases hp)
      | cons byte rest => simp [writerStep, hw] at hstep
    | _ => simp [writerStep, hw] at hstep
  | writeFails =>
    cases hw : s.writer with
    | writing rest len =>
      simp only [writerStep, hw, some.injEq] at hstep
      subst hstep
      exact h.write_moves (by simp [hw]) (by rw [hw]; rfl) (fun hp => nomatch hp) (by simp)
        (fun _ => rfl)
    | _ => simp [writerStep, hw] at hstep
  | fetchSub =>
    cases hw : s.writer with
    | releasing len ok =>
      simp only [writerStep, hw, some.injEq] at hstep
      subst hstep
      exact h.fetchSub hw
    | _ => simp [writerStep, hw] at hstep
  | loadWaiter =>
    obtain ⟨hw, hs⟩ := ite_none_right_eq_some.mp hstep
    cases hs
    refine h.write_moves (by simp [hw]) ?_ (fun _ => ?_) ?_ (fun hp => by rw [hw] at hp; cases hp)
    · rw [hw]
      split_ifs <;> rfl
    · rw [hw]
      split_ifs <;> exact ⟨rfl, rfl⟩
    · split_ifs <;> simp
  | swapWaiter =>
    obtain ⟨hw, hs⟩ := ite_none_right_eq_some.mp hstep
    cases hs
    refine h.write_moves (by simp [hw]) ?_ (fun _ => ?_) ?_ (fun hp => by rw [hw] at hp; cases hp)
    · rw [hw]
      split_ifs <;> rfl
    · rw [hw]
      split_ifs <;> exact ⟨rfl, rfl⟩
    · split_ifs <;> simp
  | notify =>
    obtain ⟨hw, hs⟩ := ite_none_right_eq_some.mp hstep
    cases hs
    exact h.write_moves (by simp [hw]) (by rw [hw]; rfl) (fun _ => by rw [hw]; exact ⟨rfl, rfl⟩)
      (by simp) (fun hp => by rw [hw] at hp; cases hp)
  | shutdown ok =>
    obtain ⟨hw, hs⟩ := ite_none_right_eq_some.mp hstep
    cases hs
    exact h.shutdown hw ok
  | report =>
    cases hw : s.writer with
    | reporting failed =>
      simp only [writerStep, hw, some.injEq] at hstep
      subst hstep
      exact h.ends
    | _ => simp [writerStep, hw] at hstep
  | abort =>
    obtain ⟨-, hs⟩ := ite_none_right_eq_some.mp hstep
    cases hs
    exact h.ends

theorem step_sound {e : UploadEvent} (hstep : s.step bodyLen e = some s') : s'.Sound := by
  cases e with
  | client e => exact clientStep_sound h hstep
  | shard e => exact shardStep_sound h hstep
  | writer e => exact writerStep_sound h hstep

end TcpUpload

end MasqueServer
