import MasqueServer.UploadSafety

/-!
# Wakeups of the upload

A shard that found no room twice has armed the waiter in between. Until a wakeup is sent after that,
the flag is still set and the writer has a look at it ahead: it has lowered the counter and not yet
checked, or the counter is still full.
-/
namespace MasqueServer

open List Option

namespace TcpUpload

/-- The call that ends here has been answered since it armed the waiter. -/
def AnsweredInCall (before : List UploadRecord) : Prop :=
  ∃ earlier k, before = earlier ++ .armed :: List.replicate (k + 1) .writable

/-- Some call returned no room, and no wakeup was sent since it armed the waiter. -/
def AwaitsWakeup : List UploadRecord → Prop :=
  Outstanding (fun before => ¬AnsweredInCall before) (.returned 0) .writable

/-- Some call returned no room, and the shard received no wakeup after it. -/
def Unheard : List UploadRecord → Prop :=
  Outstanding (fun _ => True) (.returned 0) .received

/-- The flag is set, or the writer has taken it down and is about to answer, unless it is over. -/
def Noticed (s : TcpUpload) : Prop :=
  s.writer.stopped = true ∨ s.writer = .notifying ∨ s.clientCapacityWaiter = true

/-- The writer looks at the flag again before it can become idle. -/
def Answering (s : TcpUpload) : Prop :=
  s.writer.stopped = true ∨ s.writer = .notifying ∨
    s.clientCapacityWaiter = true ∧ (s.writer = .checking ∨ s.writer = .swapping ∨
      s.queuedClientBytes = maxBufferedClientBytes ∧ s.shard.reserved = 0)

structure Alert (s : TcpUpload) : Prop where
  answering : AwaitsWakeup s.history → s.Answering
  rechecking : s.shard = .rechecking → ∃ earlier k,
    s.history = earlier ++ .armed :: List.replicate k .writable ∧
      (k = 0 → s.Noticed) ∧ (0 < k → 0 < s.wakeups)
  unheard : Unheard s.history → 0 < s.wakeups ∨ AwaitsWakeup s.history

variable {s s' : TcpUpload} {bodyLen : ℕ} {history : List UploadRecord}

lemma opened_alert : opened.Alert where
  answering h := absurd h not_outstanding_nil
  rechecking h := nomatch h
  unheard h := absurd h not_outstanding_nil

/-! ### The history -/

lemma awaitsWakeup_of_other {r : UploadRecord} (hr : r ≠ .returned 0)
    (h : AwaitsWakeup (history ++ [r])) : AwaitsWakeup history := by
  obtain ⟨he, -⟩ | ⟨-, hbefore⟩ := outstanding_concat.mp h
  · exact absurd he hr
  · exact hbefore

lemma awaitsWakeup_concat {r : UploadRecord} (hr : r ≠ .writable) (h : AwaitsWakeup history) :
    AwaitsWakeup (history ++ [r]) :=
  outstanding_concat.mpr (.inr ⟨hr, h⟩)

lemma unheard_of_other {r : UploadRecord} (hr : r ≠ .returned 0) (h : Unheard (history ++ [r])) :
    Unheard history := by
  obtain ⟨he, -⟩ | ⟨-, hbefore⟩ := outstanding_concat.mp h
  · exact absurd he hr
  · exact hbefore

lemma not_awaitsWakeup_writable : ¬AwaitsWakeup (history ++ [.writable]) := by
  intro h
  obtain ⟨he, -⟩ | ⟨hne, -⟩ := outstanding_concat.mp h
  · cases he
  · exact hne rfl

lemma not_unheard_received : ¬Unheard (history ++ [.received]) := by
  intro h
  obtain ⟨he, -⟩ | ⟨hne, -⟩ := outstanding_concat.mp h
  · cases he
  · exact hne rfl

lemma not_answeredInCall_armed : ¬AnsweredInCall (history ++ [.armed]) := by
  rintro ⟨earlier, k, h⟩
  rw [replicate_succ', ← cons_append, ← append_assoc] at h
  obtain ⟨-, hlast⟩ := append_inj' h rfl
  cases hlast

/-! ### The steps -/

variable (h : s.Alert)
include h

lemma Alert.shard_moves {p : ShardPhase} {queued : ℕ} (hp : p ≠ .rechecking)
    (hfull : s.queuedClientBytes = maxBufferedClientBytes → s.shard.reserved = 0 →
      queued = maxBufferedClientBytes ∧ p.reserved = 0)
    (hw : s'.writer = s.writer) (hflag : s'.clientCapacityWaiter = s.clientCapacityWaiter)
    (hwakeups : s'.wakeups = s.wakeups) (hhistory : s'.history = s.history) (hshard : s'.shard = p)
    (hqueued : s'.queuedClientBytes = queued) : s'.Alert := by
  refine ⟨fun hwaits => ?_, fun hr => absurd (hshard.symm.trans hr) hp, fun hun => ?_⟩
  · rw [hhistory] at hwaits
    unfold Answering
    rw [hw, hflag, hqueued, hshard]
    obtain hover | hnotify | ⟨hset, hchecks⟩ := h.answering hwaits
    · exact .inl hover
    · exact .inr (.inl hnotify)
    · refine .inr (.inr ⟨hset, ?_⟩)
      obtain hcheck | hswap | ⟨hq, hr⟩ := hchecks
      · exact .inl hcheck
      · exact .inr (.inl hswap)
      · exact .inr (.inr (hfull hq hr))
  · rw [hhistory] at hun ⊢
    rw [hwakeups]
    exact h.unheard hun

lemma Alert.returns_room {capacity : ℕ} (hpos : 0 < capacity) (hres : s.shard.reserved = 0) :
    Alert { s with
      shard := .offered capacity, history := s.history ++ [.returned capacity] } := by
  have hne : UploadRecord.returned capacity ≠ .returned 0 := by
    intro he
    cases he
    exact absurd hpos (Nat.lt_irrefl _)
  refine ⟨fun hwaits => ?_, fun hr => (nomatch hr), fun hun => ?_⟩
  · have hanswer := h.answering (awaitsWakeup_of_other hne hwaits)
    unfold Answering at hanswer
    rw [hres] at hanswer
    exact hanswer
  · exact (h.unheard (unheard_of_other hne hun)).imp id (awaitsWakeup_concat (by simp))

lemma Alert.arm (hp : s.shard = .arming) : Alert { s with
      shard := .rechecking, clientCapacityWaiter := true, history := s.history ++ [.armed] } := by
  refine ⟨fun hwaits => ?_, fun _ => ⟨s.history, 0, rfl, fun _ => .inr (.inr rfl), by omega⟩,
    fun hun => ?_⟩
  · obtain hover | hnotify | ⟨-, hchecks⟩ := h.answering (awaitsWakeup_of_other (by simp) hwaits)
    · exact .inl hover
    · exact .inr (.inl hnotify)
    · rw [hp] at hchecks
      exact .inr (.inr ⟨rfl, hchecks⟩)
  · exact (h.unheard (unheard_of_other (by simp) hun)).imp id (awaitsWakeup_concat (by simp))

/-- The second load finds no room: either the call has been answered already and the wakeup is
on its way to the shard, or the flag stands against a full counter. -/
lemma Alert.returns_none (hs : s.Sound) (hp : s.shard = .rechecking)
    (hfull : maxBufferedClientBytes - s.queuedClientBytes = 0) :
    Alert { s with shard := .idle, history := s.history ++ [.returned 0] } := by
  obtain ⟨earlier, k, hhistory, hnoticed, hpending⟩ := h.rechecking hp
  have hroom := hs.room
  have hq : s.queuedClientBytes = maxBufferedClientBytes := by omega
  refine ⟨fun hwaits => ?_, fun hr => (nomatch hr), fun _ => ?_⟩
  · obtain ⟨-, hcall⟩ | ⟨-, hbefore⟩ := outstanding_concat.mp hwaits
    · cases k with
      | zero =>
        obtain hover | hnotify | hset := hnoticed rfl
        · exact .inl hover
        · exact .inr (.inl hnotify)
        · exact .inr (.inr ⟨hset, .inr (.inr ⟨hq, rfl⟩)⟩)
      | succ k => exact absurd ⟨earlier, k, hhistory⟩ hcall
    · have hanswer := h.answering hbefore
      unfold Answering at hanswer
      rw [hp] at hanswer
      exact hanswer
  · cases k with
    | zero =>
      refine .inr (outstanding_concat.mpr (.inl ⟨rfl, ?_⟩))
      rw [hhistory]
      exact not_answeredInCall_armed
    | succ k => exact .inl (hpending (Nat.succ_pos k))

lemma shardStep_alert (hs : s.Sound) {e : ShardStep} (hstep : s.shardStep bodyLen e = some s') :
    s'.Alert := by
  cases e with
  | buffer n =>
    simp only [shardStep, bufferClientData, ite_none_right_eq_some,
      some.injEq] at hstep
    obtain ⟨-, rfl⟩ := hstep
    exact { h with }
  | markFinished =>
    obtain ⟨-, he⟩ := ite_none_right_eq_some.mp hstep
    cases he
    exact { h with }
  | connect =>
    obtain ⟨-, he⟩ := ite_none_right_eq_some.mp hstep
    cases he
    exact { h with }
  | transfer =>
    cases hearly : s.early with
    | nil => simp [shardStep, hearly] at hstep
    | cons data rest =>
      simp only [shardStep, hearly, ite_none_right_eq_some, some.injEq] at hstep
      obtain ⟨-, rfl⟩ := hstep
      exact h.shard_moves (by simp) (fun hq _ => ⟨hq, rfl⟩) rfl rfl rfl rfl rfl rfl
  | finishClient =>
    obtain ⟨-, he⟩ := ite_none_right_eq_some.mp hstep
    cases he
    unfold finishClient send
    split_ifs
    · exact h
    · exact { h with }
    · exact { h with }
  | loadCapacity =>
    obtain ⟨hready, he⟩ := ite_none_right_eq_some.mp hstep
    cases he
    have hres : s.shard.reserved = 0 := by
      rw [(relaying_iff.mp hready).1]
      rfl
    unfold loadCapacity
    split_ifs with hless
    · exact h.returns_room (Nat.sub_pos_of_lt hless) hres
    · exact h.shard_moves (by simp) (fun hq _ => ⟨hq, rfl⟩) rfl rfl rfl rfl rfl rfl
  | arm =>
    obtain ⟨hp, he⟩ := ite_none_right_eq_some.mp hstep
    cases he
    exact h.arm hp
  | reload =>
    obtain ⟨hp, he⟩ := ite_none_right_eq_some.mp hstep
    cases he
    unfold reloadCapacity
    dsimp only
    split_ifs with hfull
    · rw [hfull]
      exact h.returns_none hs hp hfull
    · exact h.returns_room (Nat.pos_of_ne_zero hfull) (by rw [hp]; rfl)
  | recvBody n =>
    cases hp : s.shard with
    | offered capacity =>
      simp only [shardStep, hp, ite_none_right_eq_some, some.injEq] at hstep
      obtain ⟨-, rfl⟩ := hstep
      exact h.shard_moves (by simp) (fun hq _ => ⟨hq, rfl⟩) rfl rfl rfl rfl rfl rfl
    | _ => simp [shardStep, hp] at hstep
  | leave =>
    cases hp : s.shard with
    | offered capacity =>
      simp only [shardStep, hp, some.injEq] at hstep
      subst hstep
      exact h.shard_moves (by simp) (fun hq _ => ⟨hq, rfl⟩) rfl rfl rfl rfl rfl rfl
    | _ => simp [shardStep, hp] at hstep
  | loadReserve =>
    cases hp : s.shard with
    | reserving data =>
      simp only [shardStep, hp, some.injEq] at hstep
      subst hstep
      refine h.shard_moves ?_ (fun hq _ => ⟨hq, ?_⟩) rfl rfl rfl rfl rfl rfl
      · split_ifs <;> simp
      · split_ifs <;> rfl
    | _ => simp [shardStep, hp] at hstep
  | exchange spurious =>
    cases hp : s.shard with
    | exchanging data current =>
      simp only [shardStep, hp, some.injEq] at hstep
      subst hstep
      unfold exchange
      split_ifs with hfits heq
      · refine h.shard_moves (by simp) (fun hq _ => ?_) rfl rfl rfl rfl rfl rfl
        have hcurrent := heq.1
        simp only [ShardPhase.reserved]
        omega
      · exact h.shard_moves (by simp) (fun hq _ => ⟨hq, rfl⟩) rfl rfl rfl rfl rfl rfl
      · exact h.shard_moves (by simp) (fun hq _ => ⟨hq, rfl⟩) rfl rfl rfl rfl rfl rfl
    | _ => simp [shardStep, hp] at hstep
  | sendCommand =>
    cases hp : s.shard with
    | sending data =>
      simp only [shardStep, hp, some.injEq] at hstep
      subst hstep
      unfold send
      split_ifs
      · refine h.shard_moves (by simp) (fun hq hr => ⟨hq, ?_⟩) rfl rfl rfl rfl rfl rfl
        rw [hp] at hr
        exact hr
      · exact h.shard_moves (by simp) (fun hq _ => ⟨hq, rfl⟩) rfl rfl rfl rfl rfl rfl
    | _ => simp [shardStep, hp] at hstep
  | undo =>
    cases hp : s.shard with
    | undoing len =>
      simp only [shardStep, hp, some.injEq] at hstep
      subst hstep
      refine h.shard_moves (by simp) (fun hq hr => ⟨?_, rfl⟩) rfl rfl rfl rfl rfl rfl
      rw [hp] at hr
      simp only [ShardPhase.reserved] at hr
      change s.queuedClientBytes - len = maxBufferedClientBytes
      omega
    | _ => simp [shardStep, hp] at hstep
  | receiveWritable =>
    obtain ⟨⟨hready, -⟩, he⟩ := ite_none_right_eq_some.mp hstep
    cases he
    refine ⟨fun hwaits => h.answering (awaitsWakeup_of_other (by simp) hwaits), fun hr => ?_,
      fun hun => absurd hun not_unheard_received⟩
    have hidle := (relaying_iff.mp hready).1
    exact absurd (hidle.symm.trans hr) (by simp)
  | drop =>
    obtain ⟨hp, he⟩ := ite_none_right_eq_some.mp hstep
    cases he
    exact h.shard_moves (by simp) (fun hq _ => ⟨hq, rfl⟩) rfl rfl rfl rfl rfl rfl

lemma Alert.writer_moves (hanswer : s.Answering → s'.Answering) (hnotice : s.Noticed → s'.Noticed)
    (hshard : s'.shard = s.shard) (hwakeups : s'.wakeups = s.wakeups)
    (hhistory : s'.history = s.history) : s'.Alert := by
  refine ⟨fun hwaits => ?_, fun hr => ?_, fun hun => ?_⟩
  · rw [hhistory] at hwaits
    exact hanswer (h.answering hwaits)
  · rw [hshard] at hr
    obtain ⟨earlier, k, he, hnoticed, hpending⟩ := h.rechecking hr
    rw [hhistory, hwakeups]
    exact ⟨earlier, k, he, fun hk => hnotice (hnoticed hk), hpending⟩
  · rw [hhistory] at hun ⊢
    rw [hwakeups]
    exact h.unheard hun

lemma Alert.writer_works (hover : s.writer.stopped = false)
    (hout : s.writer ≠ .notifying ∧ s.writer ≠ .checking ∧ s.writer ≠ .swapping)
    (hflag : s'.clientCapacityWaiter = s.clientCapacityWaiter)
    (hqueued : s'.queuedClientBytes = s.queuedClientBytes) (hshard : s'.shard = s.shard)
    (hwakeups : s'.wakeups = s.wakeups) (hhistory : s'.history = s.history) : s'.Alert := by
  refine h.writer_moves (fun hanswer => ?_) (fun hnotice => ?_) hshard hwakeups hhistory
  · obtain hp | hp | ⟨hset, hp | hp | hfull⟩ := hanswer
    · rw [hover] at hp
      cases hp
    · exact absurd hp hout.1
    · exact absurd hp hout.2.1
    · exact absurd hp hout.2.2
    · refine .inr (.inr ⟨hflag.trans hset, .inr (.inr ?_)⟩)
      rw [hqueued, hshard]
      exact hfull
  · obtain hp | hp | hset := hnotice
    · rw [hover] at hp
      cases hp
    · exact absurd hp hout.1
    · exact .inr (.inr (hflag.trans hset))

lemma Alert.writer_stops (hover : s'.writer.stopped = true) (hshard : s'.shard = s.shard)
    (hwakeups : s'.wakeups = s.wakeups) (hhistory : s'.history = s.history) : s'.Alert :=
  h.writer_moves (fun _ => .inl hover) (fun _ => .inl hover) hshard hwakeups hhistory

lemma Alert.fetchSub {len : ℕ} {ok : Bool} (hw : s.writer = .releasing len ok) : Alert { s with
      queuedClientBytes := s.queuedClientBytes - len
      writer := if ok then .checking else .reporting true } := by
  cases ok with
  | false => exact h.writer_stops rfl rfl rfl rfl
  | true =>
    refine h.writer_moves (fun hanswer => ?_) (fun hnotice => ?_) rfl rfl rfl
    · unfold Answering at hanswer
      rw [hw] at hanswer
      obtain hp | hp | ⟨hset, -⟩ := hanswer
      · cases hp
      · cases hp
      · exact .inr (.inr ⟨hset, .inl rfl⟩)
    · unfold Noticed at hnotice
      rw [hw] at hnotice
      obtain hp | hp | hset := hnotice
      · cases hp
      · cases hp
      · exact .inr (.inr hset)

omit h in
lemma Answering.flag_set (h : s.Answering) (hover : s.writer.stopped = false)
    (hw : s.writer ≠ .notifying) : s.clientCapacityWaiter = true := by
  obtain hp | hp | ⟨hset, -⟩ := h
  · rw [hover] at hp
    cases hp
  · exact absurd hp hw
  · exact hset

omit h in
lemma Noticed.flag_set (h : s.Noticed) (hover : s.writer.stopped = false)
    (hw : s.writer ≠ .notifying) : s.clientCapacityWaiter = true := by
  obtain hp | hp | hset := h
  · rw [hover] at hp
    cases hp
  · exact absurd hp hw
  · exact hset

lemma Alert.loadWaiter (hw : s.writer = .checking) :
    Alert { s with writer := if s.clientCapacityWaiter then .swapping else .receiving } := by
  have hover : s.writer.stopped = false := by rw [hw]; rfl
  have hnot : s.writer ≠ .notifying := by simp [hw]
  refine h.writer_moves (fun hanswer => ?_) (fun hnotice => ?_) rfl rfl rfl
  · have hset := hanswer.flag_set hover hnot
    exact .inr (.inr ⟨hset, .inr (.inl (if_pos hset))⟩)
  · exact .inr (.inr (hnotice.flag_set hover hnot))

lemma Alert.swapWaiter (hw : s.writer = .swapping) : Alert { s with
      clientCapacityWaiter := false
      writer := if s.clientCapacityWaiter then .notifying else .receiving } := by
  have hover : s.writer.stopped = false := by rw [hw]; rfl
  have hnot : s.writer ≠ .notifying := by simp [hw]
  refine h.writer_moves (fun hanswer => ?_) (fun hnotice => ?_) rfl rfl rfl
  · exact .inr (.inl (if_pos (hanswer.flag_set hover hnot)))
  · exact .inr (.inl (if_pos (hnotice.flag_set hover hnot)))

lemma Alert.notify : Alert { s with
      writer := .receiving, wakeups := s.wakeups + 1, history := s.history ++ [.writable] } := by
  refine ⟨fun hwaits => absurd hwaits not_awaitsWakeup_writable, fun hr => ?_,
    fun _ => .inl (Nat.succ_pos _)⟩
  obtain ⟨earlier, k, he, -, -⟩ := h.rechecking hr
  refine ⟨earlier, k + 1, ?_, fun hk => (nomatch hk), fun _ => Nat.succ_pos _⟩
  change s.history ++ [.writable] = _
  rw [he, replicate_succ', append_assoc, cons_append]

lemma writerStep_alert {e : WriterStep} (hstep : s.writerStep e = some s') : s'.Alert := by
  cases e with
  | take =>
    cases hw : s.writer with
    | receiving =>
      have hover : s.writer.stopped = false := by rw [hw]; rfl
      cases hc : s.channel with
      | nil => simp [writerStep, hw, hc] at hstep
      | cons c channel =>
        cases c with
        | data bytes =>
          simp only [writerStep, hw, hc, some.injEq] at hstep
          subst hstep
          exact h.writer_works hover (by simp [hw]) rfl rfl rfl rfl rfl
        | finish =>
          simp only [writerStep, hw, hc, some.injEq] at hstep
          subst hstep
          exact h.writer_works hover (by simp [hw]) rfl rfl rfl rfl rfl
    | _ => simp [writerStep, hw] at hstep
  | write n =>
    cases hw : s.writer with
    | writing rest len =>
      simp only [writerStep, hw, some.injEq] at hstep
      subst hstep
      exact h.writer_works (by rw [hw]; rfl) (by simp [hw]) rfl rfl rfl rfl rfl
    | _ => simp [writerStep, hw] at hstep
  | writeDone =>
    cases hw : s.writer with
    | writing rest len =>
      cases rest with
      | nil =>
        simp only [writerStep, hw, some.injEq] at hstep
        subst hstep
        exact h.writer_works (by rw [hw]; rfl) (by simp [hw]) rfl rfl rfl rfl rfl
      | cons byte rest => simp [writerStep, hw] at hstep
    | _ => simp [writerStep, hw] at hstep
  | writeFails =>
    cases hw : s.writer with
    | writing rest len =>
      simp only [writerStep, hw, some.injEq] at hstep
      subst hstep
      exact h.writer_stops rfl rfl rfl rfl
    | _ => simp [writerStep, hw] at hstep
  | fetchSub =>
    cases hw : s.writer with
    | releasing len ok =>
      simp only [writerStep, hw, some.injEq] at hstep
      subst hstep
      exact h.fetchSub hw
    | _ => simp [writerStep, hw] at hstep
  | loadWaiter =>
    obtain ⟨hw, he⟩ := ite_none_right_eq_some.mp hstep
    cases he
    exact h.loadWaiter hw
  | swapWaiter =>
    obtain ⟨hw, he⟩ := ite_none_right_eq_some.mp hstep
    cases he
    exact h.swapWaiter hw
  | notify =>
    obtain ⟨-, he⟩ := ite_none_right_eq_some.mp hstep
    cases he
    exact h.notify
  | shutdown ok =>
    obtain ⟨-, he⟩ := ite_none_right_eq_some.mp hstep
    cases he
    exact h.writer_stops rfl rfl rfl rfl
  | report =>
    cases hw : s.writer with
    | reporting failed =>
      simp only [writerStep, hw, some.injEq] at hstep
      subst hstep
      exact h.writer_stops rfl rfl rfl rfl
    | _ => simp [writerStep, hw] at hstep
  | abort =>
    obtain ⟨-, he⟩ := ite_none_right_eq_some.mp hstep
    cases he
    exact h.writer_stops rfl rfl rfl rfl

lemma clientStep_alert {e : ClientStep} (hstep : s.clientStep e = some s') : s'.Alert := by
  cases e with
  | arrive bytes =>
    obtain ⟨-, he⟩ := ite_none_left_eq_some.mp hstep
    cases he
    exact { h with }
  | fin =>
    cases hstep
    exact { h with }

theorem step_alert (hs : s.Sound) {e : UploadEvent} (hstep : s.step bodyLen e = some s') :
    s'.Alert := by
  cases e with
  | client e => exact clientStep_alert h hstep
  | shard e => exact shardStep_alert h hs hstep
  | writer e => exact writerStep_alert h hstep

omit h

lemma run_sound_alert {es : List UploadEvent} (hrun : run (step bodyLen) opened es = some s) :
    s.Sound ∧ s.Alert := by
  have hpreserves : ∀ s e s', s.Sound ∧ s.Alert → step bodyLen s e = some s' →
      s'.Sound ∧ s'.Alert := fun _ _ _ hi hs => ⟨step_sound hi.1 hs, step_alert hi.2 hi.1 hs⟩
  exact run_preserves hpreserves ⟨opened_sound, opened_alert⟩ hrun

lemma not_awaitsWakeup_of_idle (hs : s.Sound) (h : s.Alert) (hw : s.writer = .receiving)
    (hc : s.channel = []) : ¬AwaitsWakeup s.history := by
  intro hwaits
  have hanswer := h.answering hwaits
  have hcounted := hs.counted (by simp [hw])
  unfold Answering at hanswer
  rw [hw] at hanswer hcounted
  rw [hc] at hcounted
  obtain hp | hp | ⟨-, hp | hp | ⟨hq, hr⟩⟩ := hanswer
  · cases hp
  · cases hp
  · cases hp
  · cases hp
  · rw [hq, hr] at hcounted
    cases hcounted

/-! ### A wakeup ahead of the return

The channel is filled with whole chunks. The writer has written one of them and lowered the
counter; before it looks at the flag, the shard fills the gap and asks for more room. The writer
answers the flag between the two loads, and then writes everything without finding it set. -/

section EarlyWakeup

variable (n : ℕ) (chunk request : Bytes)

def buffered (k : ℕ) : TcpUpload :=
  { opened with request := (List.replicate k chunk).flatten, early := List.replicate k chunk }

def transferred (k : ℕ) : TcpUpload :=
  { opened with
    request := request
    connected := true
    early := List.replicate (n + 1 - k) chunk
    queuedClientBytes := k * relayBodyLen
    channel := List.replicate k (.data chunk) }

def drained (k : ℕ) : TcpUpload :=
  { opened with
    request := request
    connected := true
    queuedClientBytes := (n + 1 - k) * relayBodyLen
    channel := List.replicate (n + 1 - k) (.data chunk)
    target := (List.replicate (k + 1) chunk).flatten
    wakeups := 1
    history := [.returned relayBodyLen, .armed, .writable, .returned 0] }

def bufferChunk : List UploadEvent := [.client (.arrive chunk), .shard (.buffer relayBodyLen)]

def transferChunk : List UploadEvent :=
  [.shard .transfer, .shard .loadReserve, .shard (.exchange false), .shard .sendCommand]

def drainChunk : List UploadEvent :=
  [.writer .take, .writer (.write relayBodyLen), .writer .writeDone, .writer .fetchSub,
    .writer .loadWaiter]

/-- One chunk is written and its room free, but the flag not looked at yet. -/
def freed : TcpUpload :=
  { opened with
    request := request
    connected := true
    queuedClientBytes := maxBufferedClientBytes - relayBodyLen
    channel := List.replicate n (.data chunk)
    writer := .checking
    target := chunk }

def refilled : TcpUpload :=
  { freed n chunk (request ++ chunk) with
    queuedClientBytes := maxBufferedClientBytes
    channel := List.replicate (n + 1) (.data chunk)
    history := [.returned relayBodyLen] }

def freeChunk : List UploadEvent :=
  [.writer .take, .writer (.write relayBodyLen), .writer .writeDone, .writer .fetchSub]

def refillChunk : List UploadEvent :=
  [.client (.arrive chunk), .shard .loadCapacity, .shard (.recvBody relayBodyLen),
    .shard .loadReserve, .shard (.exchange false), .shard .sendCommand]

def overtakenCall : List UploadEvent :=
  [.shard .loadCapacity, .shard .arm, .writer .loadWaiter, .writer .swapWaiter, .writer .notify,
    .shard .reload]

variable {n chunk request} (hchunk : chunk.length = relayBodyLen)
  (hfull : (n + 1) * relayBodyLen = maxBufferedClientBytes)

include hchunk

lemma run_drained : run (step relayBodyLen) (drained n chunk request 0)
    (List.replicate (n + 1) drainChunk).flatten = some (drained n chunk request (n + 1)) := by
  refine run_repeat (drained n chunk request) (n + 1) fun k hk => ?_
  obtain ⟨j, hj⟩ : ∃ j, n + 1 - k = j + 1 := ⟨n - k, by omega⟩
  have hnext : n + 1 - (k + 1) = j := by omega
  have hchannel : List.replicate (j + 1) (TcpCommand.data chunk) =
      .data chunk :: List.replicate j (.data chunk) := rfl
  have htake : chunk.take relayBodyLen = chunk := take_of_length_le hchunk.le
  have hdrop : chunk.drop relayBodyLen = [] := drop_of_length_le hchunk.le
  simp [run, drainChunk, step, writerStep, drained, opened, hj, hnext, hchannel, hchunk, htake,
    hdrop, Nat.succ_mul]
  rw [replicate_succ' (n := k + 1), flatten_append, flatten_singleton]

include hfull

lemma run_buffered : run (step relayBodyLen) opened
    (List.replicate (n + 1) (bufferChunk chunk)).flatten = some (buffered chunk (n + 1)) := by
  refine run_repeat (buffered chunk) (n + 1) fun k hk => ?_
  have hroom : relayBodyLen ≤ maxBufferedClientBytes - k * relayBodyLen := by
    rw [← hfull, ← Nat.sub_mul]
    exact Nat.le_mul_of_pos_left _ (by omega)
  have hpos : 0 < relayBodyLen := by decide
  simp [run, bufferChunk, step, clientStep, shardStep, bufferClientData, buffered, opened,
    earlyBytes, hchunk, hroom, hpos, replicate_succ', take_of_length_le,
    drop_of_length_le]

lemma run_transferred : run (step relayBodyLen) (transferred n chunk request 0)
    (List.replicate (n + 1) transferChunk).flatten =
      some (transferred n chunk request (n + 1)) := by
  refine run_repeat (transferred n chunk request) (n + 1) fun k hk => ?_
  obtain ⟨j, hj⟩ : ∃ j, n + 1 - k = j + 1 := ⟨n - k, by omega⟩
  have hnext : n + 1 - (k + 1) = j := by omega
  have hroom : k * relayBodyLen + relayBodyLen ≤ maxBufferedClientBytes := by
    rw [← hfull, ← Nat.succ_mul]
    exact Nat.mul_le_mul_right _ hk
  have hearly : List.replicate (j + 1) chunk = chunk :: List.replicate j chunk := rfl
  simp [run, transferChunk, step, shardStep, exchange, send, transferred, opened, hj, hnext,
    hearly, hchunk, hroom, Nat.succ_mul]
  exact replicate_succ'.symm

lemma run_freed : run (step relayBodyLen) (transferred n chunk request (n + 1)) freeChunk =
    some (freed n chunk request) := by
  have hchannel : List.replicate (n + 1) (TcpCommand.data chunk) =
      .data chunk :: List.replicate n (.data chunk) := rfl
  have htake : chunk.take relayBodyLen = chunk := take_of_length_le hchunk.le
  have hdrop : chunk.drop relayBodyLen = [] := drop_of_length_le hchunk.le
  simp [run, freeChunk, step, writerStep, transferred, freed, opened, hchunk, hchannel, htake,
    hdrop, hfull]

omit hfull in
lemma run_refilled : run (step relayBodyLen) (freed n chunk request) (refillChunk chunk) =
    some (refilled n chunk request) := by
  have htake : chunk.take relayBodyLen = chunk := take_of_length_le hchunk.le
  have hdrop : chunk.drop relayBodyLen = [] := drop_of_length_le hchunk.le
  have hpos : 0 < relayBodyLen := by decide
  have hless : maxBufferedClientBytes - relayBodyLen < maxBufferedClientBytes := by decide
  have hgap : maxBufferedClientBytes - (maxBufferedClientBytes - relayBodyLen) = relayBodyLen := by
    decide
  have hback : maxBufferedClientBytes - relayBodyLen + relayBodyLen = maxBufferedClientBytes := by
    decide
  simp [run, refillChunk, step, clientStep, shardStep, relaying, loadCapacity, exchange, send,
    freed, refilled, opened, hchunk, htake, hdrop, hpos, hless, hgap, hback]
  exact replicate_succ'.symm

omit hchunk in
lemma run_overtakenCall : run (step relayBodyLen) (refilled n chunk request) overtakenCall =
    some (drained n chunk (request ++ chunk) 0) := by
  simp [run, overtakenCall, step, shardStep, writerStep, relaying, loadCapacity, reloadCapacity,
    freed, refilled, drained, opened, hfull]

end EarlyWakeup

/-- A whole run with real sizes: sixty-four chunks fill the channel. -/
def earlyWakeup (chunk : Bytes) : List UploadEvent :=
  (List.replicate 64 (bufferChunk chunk)).flatten ++ (.shard .connect ::
    ((List.replicate 64 transferChunk).flatten ++ (freeChunk ++ (refillChunk chunk ++
      (overtakenCall ++ (List.replicate 64 drainChunk).flatten)))))

lemma run_earlyWakeup {chunk : Bytes} (hchunk : chunk.length = relayBodyLen) :
    run (step relayBodyLen) opened (earlyWakeup chunk) =
      some (drained 63 chunk ((List.replicate 64 chunk).flatten ++ chunk) 64) := by
  have hfull : (63 + 1) * relayBodyLen = maxBufferedClientBytes := by decide
  have hconnect : step relayBodyLen (buffered chunk 64) (.shard .connect) =
      some (transferred 63 chunk (List.replicate 64 chunk).flatten 0) := rfl
  rw [earlyWakeup, run_append, run_buffered hchunk hfull, bind_some, run_cons, hconnect,
    bind_some, run_append, run_transferred hchunk hfull, bind_some, run_append,
    run_freed hchunk hfull, bind_some, run_append, run_refilled hchunk, bind_some,
    run_append, run_overtakenCall hfull, bind_some]
  exact run_drained hchunk

/-! ### The promises of the upload -/

/-- What the upload promises in every state: the counter is the bytes on their way, with those a
running `queue_client_data` has reserved; only a writer at its end refuses data; a writer that
is idle has sent a wakeup for every call that found no room, after that call armed the waiter,
and the shard has received one after the call or still will; and the target gets the body in
order, its end last. -/
structure FlowControlled (s : TcpUpload) : Prop where
  counter_eq : s.writer ≠ .ended →
    s.queuedClientBytes = (commandBytes s.channel).length + s.writer.chunk + s.shard.reserved
  counter_le : s.queuedClientBytes ≤ maxBufferedClientBytes
  not_refused : s.writer ≠ .ended → s.shard.turnedAway = false
  woken : s.writer = .receiving → s.channel = [] → ∀ before after,
    s.history = before ++ .returned 0 :: after →
      (.writable ∈ after ∨ AnsweredInCall before) ∧ (.received ∈ after ∨ 0 < s.wakeups)
  target_prefix : s.target <+: s.request
  shut_last : s.shut = true → s.fin = true ∧ s.target = s.request

theorem tcpUpload_flowControlled (bodyLen : ℕ) (es : List UploadEvent) (s : TcpUpload)
    (hrun : run (step bodyLen) opened es = some s) : s.FlowControlled := by
  obtain ⟨hs, h⟩ := run_sound_alert hrun
  have hroom := hs.room
  refine ⟨hs.counted, by omega, fun hw => ?_, ?_, hs.target_prefix,
    fun hshut => ⟨(hs.shut hshut).1, (hs.shut hshut).2.1⟩⟩
  · rw [← Bool.not_eq_true]
    exact fun haway => hw (hs.turned_away haway)
  · intro hw hc before after hsplit
    have hnone := not_awaitsWakeup_of_idle hs h hw hc
    refine ⟨?_, ?_⟩
    · by_contra hnot
      rw [not_or] at hnot
      exact hnone ⟨before, after, hsplit, hnot.2, hnot.1⟩
    · by_cases hheard : .received ∈ after
      · exact .inl hheard
      · have hunheard : Unheard s.history := ⟨before, after, hsplit, trivial, hheard⟩
        exact .inr ((h.unheard hunheard).resolve_right hnone)

def twoChunks : List UploadEvent :=
  [.client (.arrive [1, 2, 3]), .shard (.buffer 2), .shard .connect, .shard .transfer,
    .shard .loadReserve, .shard (.exchange true), .shard (.exchange false),
    .shard .sendCommand, .writer .take, .client .fin, .shard .loadCapacity, .writer (.write 1),
    .shard (.recvBody 1), .shard .loadReserve, .writer (.write 1), .writer .writeDone,
    .writer .fetchSub, .shard (.exchange false), .shard (.exchange false), .writer .loadWaiter,
    .shard .sendCommand, .shard .finishClient, .writer .take, .writer (.write 5),
    .writer .writeDone, .writer .fetchSub, .writer .loadWaiter, .writer .take,
    .writer (.shutdown true)]

/-- Two chunks with the end of the body behind them; and a full counter, where a call returns no
room and is answered. -/
theorem tcpUpload_flowControlled_twoChunks :
    (∃ s, run (step relayBodyLen) opened twoChunks = some s ∧ s.shut = true ∧
      s.target = [1, 2, 3] ∧ s.FlowControlled) ∧
    ∃ s, run (step relayBodyLen) opened (earlyWakeup (List.replicate relayBodyLen 0)) = some s ∧
      .returned 0 ∈ s.history ∧ s.FlowControlled := by
  have hearly := run_earlyWakeup (length_replicate (a := 0))
  refine ⟨⟨(run (step relayBodyLen) opened twoChunks).get (by decide +kernel),
    (some_get _).symm, by decide +kernel, by decide +kernel, ?_⟩, _, hearly, by simp [drained],
    tcpUpload_flowControlled relayBodyLen _ _ hearly⟩
  exact tcpUpload_flowControlled relayBodyLen twoChunks _ (some_get _).symm

/-- The writer is idle on an empty channel after a call that returned no room, and the only
wakeup was sent before that call returned. -/
theorem wakeup_before_return :
    ∃ s, run (step relayBodyLen) opened (earlyWakeup (List.replicate relayBodyLen 0)) = some s ∧
      s.writer = .receiving ∧ s.channel = [] ∧
      s.history = [.returned 16384, .armed, .writable, .returned 0] ∧
      ¬∀ before after, s.history = before ++ .returned 0 :: after → .writable ∈ after := by
  exact ⟨_, run_earlyWakeup length_replicate, rfl, rfl, rfl,
    fun h => absurd (h [.returned 16384, .armed, .writable] [] rfl) not_mem_nil⟩

end TcpUpload

end MasqueServer
