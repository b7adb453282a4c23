import MasqueServer.AuthenticationSafety

/-!
# Every step of a password verification keeps its parts together

One lemma for each thing a request or a leader task can do, and one for a step of the whole.
-/
namespace MasqueServer

open Option Table

namespace Authentication

variable {Key Digest : Type} [DecidableEq Digest] {p : BasicPrimitives Key Digest}
  {s s' : Authentication Key Digest} {id : ℕ} {r : AuthRequest} {task : LeaderTask Digest}

/-! ### Dropping a leader -/

variable (leader : PasswordLeader Digest)

@[simp] lemma leaders_dropLeader : (s.dropLeader leader).leaders = s.leaders := by
  unfold dropLeader
  dsimp only
  split_ifs <;> rfl

@[simp] lemma credentials_dropLeader : (s.dropLeader leader).credentials = s.credentials := by
  unfold dropLeader
  dsimp only
  split_ifs <;> rfl

@[simp] lemma requests_dropLeader : (s.dropLeader leader).requests = s.requests := by
  unfold dropLeader
  dsimp only
  split_ifs <;> rfl

lemma requests_endTask (id : ℕ) (task : LeaderTask Digest) (result : Option Bool) :
    (s.endTask id task result).requests = s.requests := requests_dropLeader task.leader

lemma flights_dropLeader : (s.dropLeader leader).flights = if leader.completed then s.flights
      else (s.send leader.flight .abandoned).flights := by
  unfold dropLeader
  dsimp only
  split_ifs <;> rfl

lemma dropLeader_sound (h : s.Sound p) (leader : PasswordLeader Digest) :
    (s.dropLeader leader).Sound p := by
  have hstate : ∀ s : Authentication Key Digest, s.Sound p →
      (if leader.completed then s else s.send leader.flight .abandoned).Sound p := by
    intro s h
    split_ifs
    · exact h
    · exact send_sound h (by simp) (by simp)
  unfold dropLeader
  dsimp only
  refine hstate _ ?_
  split_ifs
  · refine setVerification_sound h ?_ ?_ (h.success leader.credential)
    · intro digest flight hget
      rw [Table.get_remove] at hget
      split_ifs at hget
      exact h.registered leader.credential digest flight hget
    · exact (size_remove_le _ _).trans (h.bounded leader.credential)
  · exact h

variable {watch : Watch FlightResult} {credential : ℕ} {password : Bytes} {digest : Digest}
  {flight : ℕ} {state : VerificationState Digest}

lemma dropLeader_settled (h : s.Sound p) (ht : s.leaders.get id = some task)
    (hwatch : (s.dropLeader task.leader).flights[task.leader.flight]? = some watch) :
    watch.value ≠ .pending := by
  rw [flights_dropLeader] at hwatch
  split_ifs at hwatch with hcompleted
  · exact (h.task id task ht).completed hcompleted watch hwatch
  · rw [getElem?_send, map_eq_some_iff] at hwatch
    obtain ⟨watch', -, rfl⟩ := hwatch
    simp

lemma endTask_sound (h : s.Sound p) (ht : s.leaders.get id = some task) {result : Option Bool}
    (hresult : result = some true →
      p.verdict s.credentials task.leader.credential task.password = some true) :
    (s.endTask id task result).Sound p := by
  have hdrop := dropLeader_sound h task.leader
  have htask : (s.dropLeader task.leader).leaders.get id = some task := by
    rw [leaders_dropLeader, ht]
  have hsound := hdrop.task id task htask
  refine setLeader_sound hdrop htask rfl rfl rfl ?_ (.inr fun watch => dropLeader_settled h ht)
  refine ⟨hsound.digest, ?_, hsound.allocated, hsound.completed, hsound.answered⟩
  rw [credentials_dropLeader]
  exact hresult

/-! ### The steps -/

lemma cached_verdict (h : s.Sound p) (hcached : s.cached p credential password = true) :
    p.verdict s.credentials credential password = some true := by
  unfold cached at hcached
  split at hcached
  · rename_i c tag expires hc hsuccess
    rw [Bool.and_eq_true, decide_eq_true_eq, decide_eq_true_eq] at hcached
    obtain ⟨password', hdigest, hverdict⟩ := h.success credential tag expires hsuccess
    have hown : p.digest s.credentials credential password = some tag := by
      rw [BasicPrimitives.digest, hc, map_some, hcached.2]
    rwa [BasicPrimitives.digest_inj hown hdigest]
  · cases hcached

lemma precheck_sound (h : s.Sound p) (header : Option Bytes)
    (hnone : s.leaders.get id = none) :
    s.PhaseSound p id ⟨header, s.current, false, (s.precheck p header).phase⟩ := by
  have hrejected : s.PhaseSound p id ⟨header, s.current, false, .reported (some false)⟩ := by
    intro hfalse
    cases hfalse
  unfold precheck
  split
  · exact hrejected
  · rename_i username password hparse
    split
    · exact hrejected
    · rename_i credential huser
      split_ifs with hcached
      · exact fun _ => ⟨credential, password, ⟨username, hparse, huser⟩, cached_verdict h hcached⟩
      · exact ⟨⟨username, hparse, huser⟩, hnone⟩

lemma pruned_registered (hget : (s.pruned credential).inFlight.get digest = some flight) :
    (s.verificationOf credential).inFlight.get digest = some flight := by
  rw [pruned, get_retain, filter_eq_some_iff] at hget
  exact hget.1

lemma pruned_bounded (h : s.Sound p) (credential : ℕ) :
    (s.pruned credential).inFlight.size ≤ maxInFlightPasswords :=
  (size_retain_le _ _).trans (h.bounded credential)

@[simp] lemma success_register (state : VerificationState Digest) (digest : Digest) (flight : ℕ) :
    (state.register digest flight).success = state.success := by
  unfold VerificationState.register
  split_ifs <;> rfl

lemma register_get {digest' : Digest} {flight' : ℕ}
    (h : (state.register digest flight).inFlight.get digest' = some flight') :
    digest' = digest ∧ flight' = flight ∨ state.inFlight.get digest' = some flight' := by
  unfold VerificationState.register at h
  split_ifs at h
  · exact (get_put_cases h).imp_right And.right
  · exact .inr h

/-- Pruning the registrations and adding one for a flight of the same digest. -/
lemma register_sound (h : s.Sound p)
    (hstate : ∀ digest flight, state.inFlight.get digest = some flight →
      (s.verificationOf credential).inFlight.get digest = some flight)
    (hbounded : state.inFlight.size ≤ maxInFlightPasswords)
    (hsuccess : state.success = (s.verificationOf credential).success)
    (hleads : s.Leads flight credential password)
    (hdigest : p.digest s.credentials credential password = some digest) :
    (s.setVerification credential (state.register digest flight)).Sound p := by
  refine setVerification_sound h ?_ ?_ ?_
  · intro digest' flight' hget
    obtain ⟨rfl, rfl⟩ | hold := register_get hget
    · exact ⟨password, hleads, hdigest⟩
    · exact h.registered credential digest' flight' (hstate digest' flight' hold)
  · unfold VerificationState.register
    split_ifs with hlt
    · exact (size_put_le _ _ _).trans hlt
    · exact hbounded
  · rw [success_register, hsuccess]
    exact h.success credential

/-- The state in which a request has become the leader of a new flight. -/
def elected (s : Authentication Key Digest) (id : ℕ) (r : AuthRequest) (credential : ℕ)
    (password : Bytes) (digest : Digest) : Authentication Key Digest :=
  (((s.setVerification credential
    ((s.pruned credential).register digest s.flights.length)).openFlight).setLeader id
      ⟨⟨credential, digest, s.flights.length, false⟩, password, .waitingPermit⟩).setRequest id
        { r with phase := .leading }

/-- What the head of the loop can do. -/
lemma resume_cases (hstep : s.resume p id r = some s') :
    ∃ credential password, r.phase = .resuming credential password ∧
      (s' = s.setRequest id (r.finish (.reported none)) ∨
      s.cached p credential password = true ∧
        s' = s.setRequest id (r.finish (.reported (some true))) ∨
      ∃ digest, p.digest s.credentials credential password = some digest ∧
        ((∃ flight, (s.pruned credential).inFlight.get digest = some flight ∧
          s' = (s.setVerification credential (s.pruned credential)).setRequest id
            { r with phase := .following credential password flight none }) ∨
        (s.pruned credential).inFlight.get digest = none ∧
          s' = s.elected id r credential password digest)) := by
  unfold resume at hstep
  split at hstep
  · rename_i credential password hphase
    refine ⟨credential, password, hphase, ?_⟩
    split_ifs at hstep
    · exact .inl (some.inj hstep).symm
    · obtain ⟨c, hc, hstep⟩ := map_eq_some_iff.mp hstep
      have hdigest : p.digest s.credentials credential password =
          some (p.hmac c.cacheKey password) := by
        rw [BasicPrimitives.digest, hc, map_some]
      have hheld : ((s.pruned credential).inFlight.get (p.hmac c.cacheKey password)).filter
        s.isHeld =
          (s.pruned credential).inFlight.get (p.hmac c.cacheKey password) := by
        simp [pruned, Option.filter_filter]
      unfold beginVerification at hstep
      by_cases hcached : s.cached p credential password = true
      · rw [if_pos hcached] at hstep
        exact .inr (.inl ⟨hcached, hstep.symm⟩)
      · rw [if_neg hcached] at hstep
        dsimp only at hstep
        rw [hheld] at hstep
        refine .inr (.inr ⟨_, hdigest, ?_⟩)
        cases hget : (s.pruned credential).inFlight.get (p.hmac c.cacheKey password) with
        | some flight =>
          rw [hget] at hstep
          exact .inl ⟨flight, rfl, hstep.symm⟩
        | none =>
          rw [hget] at hstep
          exact .inr ⟨rfl, hstep.symm⟩
  · cases hstep

variable (h : s.Sound p)
include h

variable (hr : s.requests.get id = some r)
include hr

lemma finish_sound {result : Option Bool} (hresult : result = some true → s.Authorized p r) :
    (s.setRequest id (r.finish (.reported result))).Sound p :=
  updateRequest_sound h hr rfl rfl hresult

lemma elected_sound (hnone : s.leaders.get id = none) (hpresents : r.Presents p credential password)
    (hdigest : p.digest s.credentials credential password = some digest) :
    (s.elected id r credential password digest).Sound p := by
  have hleading : (s.setRequest id { r with phase := .leading }).Sound p :=
    updateRequest_sound h hr rfl rfl trivial
  have hlead := lead_sound hleading (r := { r with phase := .leading }) (by simp [setRequest]) rfl
    hnone hpresents hdigest
  have hleads : Leads (((s.setRequest id { r with phase := .leading }).openFlight).setLeader id
      ⟨⟨credential, digest, s.flights.length, false⟩, password, .waitingPermit⟩)
      s.flights.length credential password :=
    ⟨id, _, by rw [setLeader, get_put, if_pos rfl], rfl, rfl, rfl⟩
  exact register_sound hlead (fun _ _ => pruned_registered) (pruned_bounded h credential) rfl hleads
    hdigest

lemma resume_sound (hstep : s.resume p id r = some s') : s'.Sound p := by
  obtain ⟨credential, password, hphase, hcases⟩ := resume_cases hstep
  have hrequest := h.request id r hr
  rw [PhaseSound, hphase] at hrequest
  obtain ⟨hpresents, hnone⟩ := hrequest
  obtain rfl | ⟨hcached, rfl⟩ | ⟨digest, hdigest, ⟨flight, hflight, rfl⟩ | ⟨-, rfl⟩⟩ := hcases
  · exact finish_sound h hr (by simp)
  · exact finish_sound h hr fun _ => ⟨credential, password, hpresents, cached_verdict h hcached⟩
  · obtain ⟨password', hleads, hdigest'⟩ := h.registered credential digest flight
      (pruned_registered hflight)
    rw [← BasicPrimitives.digest_inj hdigest hdigest'] at hleads
    have hpruned : (s.setVerification credential (s.pruned credential)).Sound p :=
      setVerification_sound h (fun digest flight hget =>
        h.registered credential digest flight (pruned_registered hget))
        (pruned_bounded h credential) (h.success credential)
    refine updateRequest_sound hpruned hr rfl rfl ⟨hpresents, hnone, hleads, ?_⟩
    obtain ⟨id', task, ht, rfl, -⟩ := hleads
    exact ⟨_, List.getElem?_eq_getElem (h.task id' task ht).allocated, by simp⟩
  · exact elected_sound h hr hnone hpresents hdigest

omit hr in
/-- A flight that was answered has the verdict on the password of each of its followers. -/
lemma answered_verdict (hleads : s.Leads flight credential password) {authorized : Bool}
    (hwatch : s.flights[flight]? = some watch) (hvalue : watch.value = .complete authorized) :
    p.verdict s.credentials credential password = some authorized := by
  obtain ⟨id, task, ht, rfl, rfl, rfl⟩ := hleads
  exact (h.task id task ht).answered watch authorized hwatch hvalue

lemma poll_sound (hstep : s.poll id r = some s') : s'.Sound p := by
  unfold poll at hstep
  split at hstep
  · rename_i credential password flight asleep hphase
    have hrequest := h.request id r hr
    rw [PhaseSound, hphase] at hrequest
    obtain ⟨hpresents, hnone, hleads, watch, hwatch, -⟩ := hrequest
    rw [hwatch, bind_some] at hstep
    split at hstep
    · split_ifs at hstep
      cases hstep
      exact updateRequest_sound h hr rfl rfl ⟨hpresents, hnone, hleads, watch, hwatch, by simp⟩
    · cases hstep
      split
      · rename_i authorized hvalue
        refine finish_sound h hr fun hresult => ⟨credential, password, hpresents, ?_⟩
        rw [answered_verdict h hleads hwatch hvalue, hresult]
      · exact updateRequest_sound h hr rfl rfl ⟨hpresents, hnone⟩
      · rename_i hvalue
        refine updateRequest_sound h hr rfl rfl ⟨hpresents, hnone, hleads, watch, hwatch, ?_⟩
        intro seen hseen
        cases hseen
        exact Watch.awaits_version hvalue
  · cases hstep

omit hr in
omit h in
omit [DecidableEq Digest] in
lemma waitingTask_eq (hwait : s.waitingTask id r = some task) :
    r.phase = .leading ∧ s.leaders.get id = some task ∧ task.stage = .waitingPermit := by
  unfold waitingTask at hwait
  split at hwait
  · rename_i hphase
    rw [filter_eq_some_iff, decide_eq_true_eq] at hwait
    exact ⟨hphase, hwait⟩
  · cases hwait

omit hr in
lemma advance_sound (ht : s.leaders.get id = some task) {stage : LeaderStage}
    (hlive : stage.isLive = true)
    (hstage : stage.Sound (p.verdict s.credentials task.leader.credential task.password)) :
    (s.setLeader id { task with stage }).Sound p := by
  have hsound := h.task id task ht
  exact setLeader_sound h ht rfl rfl rfl ⟨hsound.digest, hstage, hsound.allocated, hsound.completed,
    hsound.answered⟩ (.inl hlive)

lemma join_sound (hstep : s.join id r = some s') : s'.Sound p := by
  unfold join at hstep
  split at hstep
  · rename_i leader password result hphase ht
    cases hstep
    obtain ⟨r', hr', hpresents⟩ := h.presented id _ ht
    rw [hr, some.injEq] at hr'
    subst hr'
    exact finish_sound h hr fun hresult => ⟨_, _, hpresents, (h.task id _ ht).stage hresult⟩
  · cases hstep

lemma dropRequest_sound (hstep : s.dropRequest id r = some s') : s'.Sound p := by
  have hdropped : ∀ s : Authentication Key Digest, s.Sound p → s.requests.get id = some r →
      (s.setRequest id (r.finish .dropped)).Sound p := by
    intro s h hr
    exact updateRequest_sound h hr rfl rfl trivial
  unfold dropRequest at hstep
  split at hstep
  · cases hstep
  · cases hstep
  · cases hstep
    cases hwait : s.waitingTask id r with
    | none => exact hdropped s h hr
    | some task =>
      obtain ⟨-, ht, -⟩ := waitingTask_eq hwait
      refine hdropped _ (endTask_sound h ht (by simp)) ?_
      rw [elim_some, requests_endTask, hr]

omit hr

lemma answer_sound (ht : s.leaders.get id = some task) {authorized : Bool}
    (hstage : task.stage = .answering authorized) :
    ((s.send task.leader.flight (.complete authorized)).setLeader id { task with
      leader := { task.leader with completed := true }
      stage := .closing authorized }).Sound p := by
  have hverdict := (h.task id task ht).stage
  rw [hstage] at hverdict
  have hsend : (s.send task.leader.flight (.complete authorized)).Sound p := by
    refine send_sound h (by simp) ?_
    intro id' task' authorized' ht' hflight hvalue
    cases hvalue
    rw [h.unique id' id task' task ht' ht hflight, ht, some.injEq] at ht'
    rw [← ht']
    exact hverdict
  have hsound := hsend.task id task ht
  refine setLeader_sound hsend ht rfl rfl rfl ⟨hsound.digest, hverdict, hsound.allocated, ?_,
    hsound.answered⟩ (.inl rfl)
  intro _ watch hwatch
  rw [getElem?_send, map_eq_some_iff] at hwatch
  obtain ⟨watch', -, rfl⟩ := hwatch
  simp

lemma remember_sound {expires : ℕ}
    (hdigest : p.digest s.credentials credential password = some digest)
    (hverdict : p.verdict s.credentials credential password = some true) :
    (s.setVerification credential { s.verificationOf credential with
      success := some (digest, expires) }).Sound p := by
  refine setVerification_sound h (h.registered credential) (h.bounded credential) ?_
  intro digest' expires' hsuccess
  cases hsuccess
  exact ⟨password, hdigest, hverdict⟩

lemma work_sound (ht : s.leaders.get id = some task) (hstep : s.work p id task = some s') :
    s'.Sound p := by
  have hsound := (h.task id task ht).stage
  unfold work at hstep
  split at hstep <;> rename_i hstage
  · split_ifs at hstep
    · cases hstep
      exact endTask_sound h ht (by simp)
    · cases hstep
      exact advance_sound h ht rfl trivial
  · obtain ⟨c, hc, rfl⟩ := map_eq_some_iff.mp hstep
    have hverdict : p.verdict s.credentials task.leader.credential task.password =
        some (p.verify c task.password) := by
      rw [BasicPrimitives.verdict, hc, map_some]
    split_ifs with hverify
    · exact advance_sound h ht rfl (hverdict.trans (congrArg some hverify))
    · exact advance_sound h ht rfl (hverdict.trans (congrArg some (by simpa using hverify)))
  · obtain ⟨c, hc, rfl⟩ := map_eq_some_iff.mp hstep
    rw [hstage] at hsound
    refine advance_sound (remember_sound h ?_ hsound) ht rfl ?_
    · rw [BasicPrimitives.digest, hc, map_some]
    · exact hsound
  · cases hstep
    exact answer_sound h ht hstage
  · cases hstep
    rw [hstage] at hsound
    exact endTask_sound h ht fun hresult => hsound.trans hresult
  · cases hstep
  · cases hstep

lemma crash_sound (ht : s.leaders.get id = some task) (hstep : s.crash id task = some s') :
    s'.Sound p := by
  unfold crash at hstep
  split at hstep
  · cases hstep
  · cases hstep
  · cases hstep
    exact endTask_sound h ht (by simp)

theorem step_sound {e : AuthEvent Key} (hstep : s.step p e = some s') : s'.Sound p := by
  cases e with
  | tick elapsed =>
    cases hstep
    exact ⟨h.request, h.task, h.presented, h.unique, h.pending, h.registered, h.bounded, h.success⟩
  | replace keys auth =>
    rw [step] at hstep
    split at hstep
    · rename_i current credentials hfrom
      cases hstep
      exact replace_sound h (fromSection_keeps hfrom) current
    · cases hstep
  | arrive id header =>
    simp only [step] at hstep
    split_ifs at hstep with hcontains
    cases hstep
    rw [Bool.not_eq_true, contains_eq_false] at hcontains
    have hnone : s.leaders.get id = none := by
      cases ht : s.leaders.get id with
      | none => rfl
      | some task =>
        obtain ⟨r, hr, -⟩ := h.presented id task ht
        rw [hcontains] at hr
        cases hr
    refine setRequest_sound h (precheck_sound h header hnone) fun task ht => ?_
    rw [hnone] at ht
    cases ht
  | resume id =>
    obtain ⟨r, hr, hstep⟩ := bind_eq_some_iff.mp hstep
    exact resume_sound h hr hstep
  | poll id =>
    obtain ⟨r, hr, hstep⟩ := bind_eq_some_iff.mp hstep
    exact poll_sound h hr hstep
  | permit id =>
    obtain ⟨r, hr, hstep⟩ := bind_eq_some_iff.mp hstep
    obtain ⟨task, hwait, rfl⟩ := map_eq_some_iff.mp hstep
    exact advance_sound h (waitingTask_eq hwait).2.1 rfl trivial
  | refuse id =>
    obtain ⟨r, hr, hstep⟩ := bind_eq_some_iff.mp hstep
    obtain ⟨task, hwait, rfl⟩ := map_eq_some_iff.mp hstep
    refine finish_sound (endTask_sound h (waitingTask_eq hwait).2.1 (by simp)) ?_ (by simp)
    rw [requests_endTask, hr]
  | work id =>
    obtain ⟨task, ht, hstep⟩ := bind_eq_some_iff.mp hstep
    exact work_sound h ht hstep
  | crash id =>
    obtain ⟨task, ht, hstep⟩ := bind_eq_some_iff.mp hstep
    exact crash_sound h ht hstep
  | join id =>
    obtain ⟨r, hr, hstep⟩ := bind_eq_some_iff.mp hstep
    exact join_sound h hr hstep
  | cancel id =>
    obtain ⟨r, hr, rfl⟩ := map_eq_some_iff.mp hstep
    exact updateRequest_sound h hr rfl rfl (h.request id r hr)
  | drop id =>
    obtain ⟨r, hr, hstep⟩ := bind_eq_some_iff.mp hstep
    exact dropRequest_sound h hr hstep

omit h

lemma new_sound {keys : ℕ → Option Key} {auth : AuthSection} (h : new p keys auth = .ok s) :
    s.Sound p := by
  rw [new, bind_ok_iff] at h
  obtain ⟨⟨current, credentials⟩, -, h⟩ := h
  cases h
  refine ⟨?_, ?_, ?_, ?_, ?_, ?_, fun _ => Nat.zero_le _, ?_⟩
  · intro id r hr
    cases hr
  · intro id task ht
    cases ht
  · intro id task ht
    cases ht
  · intro id id' task task' ht
    cases ht
  · intro flight watch hwatch
    cases hwatch
  · intro credential digest flight hget
    cases hget
  · intro credential digest expires hsuccess
    cases hsuccess

end Authentication

end MasqueServer
