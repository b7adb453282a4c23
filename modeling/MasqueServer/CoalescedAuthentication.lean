import MasqueServer.AuthenticationSteps

/-!
# Basic authentication is sound under coalescing

Over every interleaving of requests, leaders, cancellations, expiries and reloads, a request is
reported authorized only on its own password and the credential it read, only successes are
remembered, and no follower is left to a leader that is gone.
-/
namespace MasqueServer

open List Option Table

def AuthPhase.isFollowing : AuthPhase → Bool
  | .following _ _ _ _ => true
  | _ => false

namespace Authentication

variable {Key Digest : Type} [DecidableEq Digest] {p : BasicPrimitives Key Digest}
  {s s' : Authentication Key Digest} {e : AuthEvent Key} {id : ℕ} {r : AuthRequest}
  {task : LeaderTask Digest}

/-! ### What a step does to the remembered successes and the registrations -/

/-- The ways in which a step can touch what the locks guard. -/
inductive Touches (s : Authentication Key Digest) (e : AuthEvent Key)
    (s' : Authentication Key Digest) : Prop
  | nothing (hverification : s'.verification = s.verification)
  | ended {id : ℕ} {task : LeaderTask Digest} {result : Option Bool}
      (ht : s.leaders.get id = some task)
      (hverification : s'.verification = (s.dropLeader task.leader).verification)
      (hleaders : s'.leaders = s.leaders.put id { task with stage := .ended result })
  | joined {credential : ℕ}
      (hverification : s'.verification = s.verification.put credential (s.pruned credential))
      (hleaders : s'.leaders = s.leaders)
  | elected {id : ℕ} {r : AuthRequest} {credential : ℕ} {password : Bytes} {digest : Digest}
      (hget : (s.pruned credential).inFlight.get digest = none)
      (hstate : s' = s.elected id r credential password digest)
  | remembered {id : ℕ} {task : LeaderTask Digest} {digest : Digest} {expires : ℕ}
      (he : e = .work id) (ht : s.leaders.get id = some task)
      (hstage : task.stage = .storing expires)
      (hverification : s'.verification = s.verification.put task.leader.credential
        { s.verificationOf task.leader.credential with success := some (digest, expires) })

lemma endTask_touches (ht : s.leaders.get id = some task) {result : Option Bool}
    (hverification : s'.verification = (s.endTask id task result).verification)
    (hleaders : s'.leaders = (s.endTask id task result).leaders)
    (hcredentials : s'.credentials = (s.endTask id task result).credentials) :
    s.Touches e s' ∧ s.credentials <+: s'.credentials := by
  rw [endTask, setLeader, leaders_dropLeader] at hleaders
  have hsame : s'.credentials = s.credentials := by
    rw [hcredentials, endTask, setLeader, credentials_dropLeader]
  exact ⟨.ended ht hverification hleaders, hsame ▸ prefix_rfl⟩

lemma work_touches (ht : s.leaders.get id = some task) (hstep : s.work p id task = some s') :
    s.Touches (.work id : AuthEvent Key) s' ∧ s.credentials <+: s'.credentials := by
  unfold work at hstep
  split at hstep <;> rename_i hstage
  · split_ifs at hstep <;> cases hstep
    · exact endTask_touches ht rfl rfl rfl
    · exact ⟨.nothing rfl, prefix_rfl⟩
  · obtain ⟨c, -, rfl⟩ := map_eq_some_iff.mp hstep
    exact ⟨.nothing rfl, prefix_rfl⟩
  · obtain ⟨c, -, rfl⟩ := map_eq_some_iff.mp hstep
    exact ⟨.remembered rfl ht hstage rfl, prefix_rfl⟩
  · cases hstep
    exact ⟨.nothing rfl, prefix_rfl⟩
  · cases hstep
    exact endTask_touches ht rfl rfl rfl
  · cases hstep
  · cases hstep

theorem step_touches (hstep : s.step p e = some s') :
    s.Touches e s' ∧ s.credentials <+: s'.credentials := by
  cases e with
  | tick elapsed =>
    cases hstep
    exact ⟨.nothing rfl, prefix_rfl⟩
  | replace keys auth =>
    rw [step] at hstep
    split at hstep <;> cases hstep
    rename_i hfrom
    exact ⟨.nothing rfl, fromSection_keeps hfrom⟩
  | arrive id header =>
    simp only [step] at hstep
    split_ifs at hstep
    cases hstep
    exact ⟨.nothing rfl, prefix_rfl⟩
  | resume id =>
    obtain ⟨r, -, hstep⟩ := bind_eq_some_iff.mp hstep
    obtain ⟨credential, password, -, hcases⟩ := resume_cases hstep
    obtain rfl | ⟨-, rfl⟩ | ⟨digest, -, ⟨flight, -, rfl⟩ | ⟨hget, hstate⟩⟩ := hcases
    · exact ⟨.nothing rfl, prefix_rfl⟩
    · exact ⟨.nothing rfl, prefix_rfl⟩
    · exact ⟨.joined rfl rfl, prefix_rfl⟩
    · refine ⟨.elected hget hstate, ?_⟩
      rw [hstate]
      exact prefix_rfl
  | poll id =>
    obtain ⟨r, -, hstep⟩ := bind_eq_some_iff.mp hstep
    unfold poll at hstep
    split at hstep
    · obtain ⟨watch, -, hstep⟩ := bind_eq_some_iff.mp hstep
      split at hstep
      · split_ifs at hstep
        cases hstep
        exact ⟨.nothing rfl, prefix_rfl⟩
      · cases hstep
        exact ⟨.nothing rfl, prefix_rfl⟩
    · cases hstep
  | permit id =>
    obtain ⟨r, -, hstep⟩ := bind_eq_some_iff.mp hstep
    obtain ⟨task, -, rfl⟩ := map_eq_some_iff.mp hstep
    exact ⟨.nothing rfl, prefix_rfl⟩
  | refuse id =>
    obtain ⟨r, -, hstep⟩ := bind_eq_some_iff.mp hstep
    obtain ⟨task, hwait, rfl⟩ := map_eq_some_iff.mp hstep
    exact endTask_touches (waitingTask_eq hwait).2.1 rfl rfl rfl
  | work id =>
    obtain ⟨task, ht, hstep⟩ := bind_eq_some_iff.mp hstep
    exact work_touches ht hstep
  | crash id =>
    obtain ⟨task, ht, hstep⟩ := bind_eq_some_iff.mp hstep
    unfold crash at hstep
    split at hstep <;> cases hstep
    exact endTask_touches ht rfl rfl rfl
  | join id =>
    obtain ⟨r, -, hstep⟩ := bind_eq_some_iff.mp hstep
    unfold join at hstep
    split at hstep <;> cases hstep
    exact ⟨.nothing rfl, prefix_rfl⟩
  | cancel id =>
    obtain ⟨r, -, rfl⟩ := map_eq_some_iff.mp hstep
    exact ⟨.nothing rfl, prefix_rfl⟩
  | drop id =>
    obtain ⟨r, -, hstep⟩ := bind_eq_some_iff.mp hstep
    unfold dropRequest at hstep
    split at hstep <;> cases hstep
    cases hwait : s.waitingTask id r with
    | none => exact ⟨.nothing rfl, prefix_rfl⟩
    | some task => exact endTask_touches (waitingTask_eq hwait).2.1 rfl rfl rfl

omit [DecidableEq Digest] in
lemma verificationOf_eq (h : s'.verification = s.verification) (credential : ℕ) :
    s'.verificationOf credential = s.verificationOf credential := by
  rw [verificationOf, h]
  rfl

lemma verificationOf_dropLeader (leader : PasswordLeader Digest) (credential : ℕ) :
    ((s.dropLeader leader).verificationOf credential).success =
        (s.verificationOf credential).success ∧
      ∀ digest flight, (s.verificationOf credential).inFlight.get digest = some flight →
        flight ≠ leader.flight →
          ((s.dropLeader leader).verificationOf credential).inFlight.get digest = some flight := by
  have hsend : (s.dropLeader leader).verification =
      (if (s.verificationOf leader.credential).inFlight.get leader.digest = some leader.flight then
        s.setVerification leader.credential { s.verificationOf leader.credential with
          inFlight := (s.verificationOf leader.credential).inFlight.remove leader.digest }
      else s).verification := by
    unfold dropLeader
    dsimp only
    split_ifs <;> rfl
  rw [verificationOf_eq hsend]
  split_ifs with howns
  · rw [verificationOf_setVerification]
    split_ifs with heq
    · subst heq
      refine ⟨rfl, fun digest flight hget hne => ?_⟩
      rw [Table.get_remove, if_neg, hget]
      rintro rfl
      rw [howns, some.injEq] at hget
      exact hne hget.symm
    · exact ⟨rfl, fun _ _ hget _ => hget⟩
  · exact ⟨rfl, fun _ _ hget _ => hget⟩

variable {credential : ℕ} {password : Bytes} {digest : Digest} {flight : ℕ}

lemma verificationOf_elected {id : ℕ} {r : AuthRequest}
    (h : s' = s.elected id r credential password digest) (credential' : ℕ) :
    s'.verificationOf credential' = if credential' = credential then
      (s.pruned credential).register digest s.flights.length else s.verificationOf credential' := by
  subst h
  exact verificationOf_put rfl credential'

theorem success_step (hstep : s.step p e = some s') (credential : ℕ) :
    (s'.verificationOf credential).success = (s.verificationOf credential).success ∨
      ∃ id task digest expires, e = .work id ∧ s.leaders.get id = some task ∧
        task.stage = .storing expires ∧ task.leader.credential = credential ∧
          (s'.verificationOf credential).success = some (digest, expires) := by
  cases (step_touches hstep).1 with
  | nothing hverification => exact .inl (by rw [verificationOf_eq hverification])
  | ended ht hverification hleaders =>
    rw [verificationOf_eq hverification]
    exact .inl (verificationOf_dropLeader _ credential).1
  | joined hverification hleaders =>
    rename_i credential'
    left
    rw [verificationOf_put hverification]
    split_ifs with heq
    · rw [heq]
      rfl
    · rfl
  | elected hget hstate =>
    rename_i id r credential' password digest
    left
    rw [verificationOf_elected hstate]
    split_ifs with heq
    · rw [success_register, heq]
      rfl
    · rfl
  | remembered he ht hstage hverification =>
    rename_i id task digest expires
    rw [verificationOf_put hverification]
    split_ifs with heq
    · exact .inr ⟨id, task, digest, expires, he, ht, hstage, heq.symm, rfl⟩
    · exact .inl rfl

omit [DecidableEq Digest] in
lemma HasLeader.isHeld (h : s.HasLeader flight) : s.isHeld flight = true := by
  obtain ⟨id, task, ht, hlive, hflight⟩ := h
  rw [Authentication.isHeld, Bool.or_eq_true, List.any_eq_true, List.any_eq_true]
  exact .inr ⟨⟨id, task⟩, mem_entries.mpr ht, by simp [hlive, hflight]⟩

lemma pruned_get (hget : (s.verificationOf credential).inFlight.get digest = some flight)
    (hleader : s.HasLeader flight) :
    (s.pruned credential).inFlight.get digest = some flight := by
  rw [pruned, get_retain, filter_eq_some_iff]
  exact ⟨hget, hleader.isHeld⟩

theorem registered_step (h : s.Sound p) (hstep : s.step p e = some s')
    (hget : (s.verificationOf credential).inFlight.get digest = some flight)
    (hleader : s'.HasLeader flight) :
    (s'.verificationOf credential).inFlight.get digest = some flight := by
  cases (step_touches hstep).1 with
  | nothing hverification => rw [verificationOf_eq hverification, hget]
  | ended ht hverification hleaders =>
    rename_i id task result
    rw [verificationOf_eq hverification]
    refine (verificationOf_dropLeader _ credential).2 digest flight hget ?_
    rintro rfl
    obtain ⟨id', task', ht', hlive, hflight⟩ := hleader
    rw [hleaders] at ht'
    obtain ⟨-, rfl⟩ | ⟨hne, ht'⟩ := get_put_cases ht'
    · cases hlive
    · exact hne (h.unique id' id task' task ht' ht hflight)
  | joined hverification hleaders =>
    rename_i credential'
    have hleader' : s.HasLeader flight := by
      rw [HasLeader, ← hleaders]
      exact hleader
    rw [verificationOf_put hverification]
    split_ifs with heq
    · subst heq
      exact pruned_get hget hleader'
    · exact hget
  | elected hfree hstate =>
    rename_i id r credential' password digest'
    subst hstate
    have hleader' : s.HasLeader flight := by
      obtain ⟨id', task', ht', hlive, hflight⟩ := hleader
      obtain ⟨-, rfl⟩ | ⟨-, ht'⟩ := get_put_cases ht'
      · obtain ⟨password', ⟨id₀, task₀, ht₀, hflight₀, -⟩, -⟩ :=
          h.registered credential digest flight hget
        have hlt := (h.task id₀ task₀ ht₀).allocated
        simp only at hflight
        omega
      · exact ⟨id', task', ht', hlive, hflight⟩
    rw [verificationOf_elected rfl]
    split_ifs with heq
    · subst heq
      have hpruned := pruned_get hget hleader'
      unfold VerificationState.register
      split_ifs
      · rw [get_put, if_neg, hpruned]
        rintro rfl
        rw [hfree] at hpruned
        cases hpruned
      · exact hpruned
    · exact hget
  | remembered he ht hstage hverification =>
    rename_i id task digest' expires
    rw [verificationOf_put hverification]
    split_ifs with heq
    · subst heq
      exact hget
    · exact hget

/-! ### Followers -/

lemma poll_awake {watch : Watch FlightResult} (hr : s.requests.get id = some r)
    (hphase : r.phase = .following credential password flight none)
    (hwatch : s.flights[flight]? = some watch) (hvalue : watch.value ≠ .pending) :
    ∃ s' r', s.step p (.poll id) = some s' ∧ s'.requests.get id = some r' ∧
      r'.phase.isFollowing = false := by
  have hpoll : ∀ r', s.poll id r = some (s.setRequest id r') →
      s.step p (.poll id) = some (s.setRequest id r') ∧
        (s.setRequest id r').requests.get id = some r' := by
    intro r' hpoll
    refine ⟨?_, by simp [setRequest]⟩
    rw [step, hr, bind_some, hpoll]
  unfold poll at hpoll
  rw [hphase] at hpoll
  simp only [hwatch, bind_some] at hpoll
  cases hcase : watch.value with
  | pending => exact absurd hcase hvalue
  | complete authorized =>
    rw [hcase] at hpoll
    obtain ⟨hstep, hget⟩ := hpoll _ rfl
    exact ⟨_, _, hstep, hget, rfl⟩
  | abandoned =>
    rw [hcase] at hpoll
    obtain ⟨hstep, hget⟩ := hpoll _ rfl
    exact ⟨_, _, hstep, hget, rfl⟩

theorem follower_returns (h : s.Sound p) {asleep : Option ℕ} (hr : s.requests.get id = some r)
    (hphase : r.phase = .following credential password flight asleep)
      (hgone : ¬s.HasLeader flight) :
    ∃ n ≤ 2, ∃ s' r', run (step p) s (List.replicate n (.poll id)) = some s' ∧
      s'.requests.get id = some r' ∧ r'.phase.isFollowing = false := by
  have hrequest := h.request id r hr
  rw [PhaseSound, hphase] at hrequest
  obtain ⟨-, -, -, watch, hwatch, hawaits⟩ := hrequest
  have hvalue : watch.value ≠ .pending :=
    fun hpending => hgone (h.pending flight watch hwatch hpending)
  cases asleep with
  | none =>
    obtain ⟨s', r', hstep, hget, hleft⟩ := poll_awake hr hphase hwatch hvalue
    refine ⟨1, by decide, s', r', ?_, hget, hleft⟩
    rw [replicate_one, run_cons, hstep, bind_some, run_nil]
  | some seen =>
    have hchanged := (hawaits seen rfl).changed hvalue
    have hwake : s.step p (.poll id) = some (s.setRequest id
        { r with phase := .following credential password flight none }) := by
      rw [step, hr, bind_some, poll, hphase]
      simp only [hwatch, bind_some]
      rw [if_pos hchanged]
    have hget : (s.setRequest id
        { r with phase := .following credential password flight none }).requests.get id =
        some { r with phase := .following credential password flight none } := by
      simp [setRequest]
    obtain ⟨s', r', hstep, hget', hleft⟩ := poll_awake hget rfl hwatch hvalue
    refine ⟨2, le_rfl, s', r', ?_, hget', hleft⟩
    rw [replicate_succ, replicate_one, run_cons, hwake, bind_some, run_cons, hstep,
      bind_some, run_nil]

/-- In every state that requests, leaders, cancellations, expiries and reloads can lead to:

* a request reported authorized has the password of its own header accepted by the hash its
  username had in the set the request read, and no step changes a credential;
* a password whose digest is remembered was accepted by the hash of its credential, and a
  remembered success is only replaced by a leader that verified its password, never by a hit;
* at most one live leader is registered under one digest of a credential, and a credential has
  at most 256 registrations;
* a step takes no registration from a leader that is still there after it;
* a pending flight has a live leader, and a follower whose leader is gone stops waiting within
  two polls. -/
theorem basicAuthentication_sound (p : BasicPrimitives Key Digest) {keys : ℕ → Option Key}
    {auth : AuthSection} {s₀ : Authentication Key Digest} {es : List (AuthEvent Key)}
    (hnew : new p keys auth = .ok s₀) (hrun : run (step p) s₀ es = some s) :
    (∀ id r, s.requests.get id = some r → r.phase = .reported (some true) →
      ∃ username password credential c,
        r.header.bind (parseBasic p.decodeBase64) = some (username, password) ∧
        r.snapshot.get username = some credential ∧ s.credentials[credential]? = some c ∧
        p.verify c password = true) ∧
    (∀ e s', s.step p e = some s' → s.credentials <+: s'.credentials) ∧
    (∀ (credential : ℕ) c password expires, s.credentials[credential]? = some c →
      (s.verificationOf credential).success = some (p.hmac c.cacheKey password, expires) →
      p.verify c password = true) ∧
    (∀ e s' credential, s.step p e = some s' →
      (s'.verificationOf credential).success = (s.verificationOf credential).success ∨
      ∃ id task digest expires, e = .work id ∧ s.leaders.get id = some task ∧
        task.stage = .storing expires ∧ task.leader.credential = credential ∧
        p.verdict s.credentials credential task.password = some true ∧
        (s'.verificationOf credential).success = some (digest, expires)) ∧
    (∀ id id' task task', s.leaders.get id = some task → s.leaders.get id' = some task' →
      task.stage.isLive = true → task'.stage.isLive = true →
      task.leader.credential = task'.leader.credential → task.leader.digest = task'.leader.digest →
      (s.verificationOf task.leader.credential).inFlight.get task.leader.digest =
        some task.leader.flight →
      (s.verificationOf task'.leader.credential).inFlight.get task'.leader.digest =
        some task'.leader.flight → id = id') ∧
    (∀ credential, (s.verificationOf credential).inFlight.size ≤ 256) ∧
    (∀ e s' credential digest flight, s.step p e = some s' →
      (s.verificationOf credential).inFlight.get digest = some flight → s'.HasLeader flight →
      (s'.verificationOf credential).inFlight.get digest = some flight) ∧
    (∀ (flight : ℕ) watch, s.flights[flight]? = some watch → watch.value = .pending →
      s.HasLeader flight) ∧
    ∀ id r credential password flight asleep, s.requests.get id = some r →
      r.phase = .following credential password flight asleep → ¬s.HasLeader flight →
      ∃ n ≤ 2, ∃ s' r', run (step p) s (List.replicate n (.poll id)) = some s' ∧
        s'.requests.get id = some r' ∧ r'.phase.isFollowing = false := by
  have h : s.Sound p := run_preserves (fun _ _ _ h => step_sound h) (new_sound hnew) hrun
  refine ⟨?_, fun _ _ hstep => (step_touches hstep).2, ?_, ?_, ?_, h.bounded, ?_, h.pending, ?_⟩
  · intro id r hr hphase
    have hrequest := h.request id r hr
    rw [PhaseSound, hphase] at hrequest
    obtain ⟨credential, password, ⟨username, hparse, huser⟩, hverdict⟩ := hrequest rfl
    obtain ⟨c, hc, hverify⟩ := map_eq_some_iff.mp hverdict
    exact ⟨username, password, credential, c, hparse, huser, hc, hverify⟩
  · intro credential c password expires hc hsuccess
    obtain ⟨password', hdigest, hverdict⟩ := h.success credential _ expires hsuccess
    have hown : p.digest s.credentials credential password = some (p.hmac c.cacheKey password) := by
      rw [BasicPrimitives.digest, hc, map_some]
    rw [← BasicPrimitives.digest_inj hown hdigest, BasicPrimitives.verdict, hc, map_some,
      some.injEq] at hverdict
    exact hverdict
  · intro e s' credential hstep
    obtain hsame | ⟨id, task, digest, expires, he, ht, hstage, rfl, hsuccess⟩ :=
      success_step hstep credential
    · exact .inl hsame
    · have hverdict := (h.task id task ht).stage
      rw [hstage] at hverdict
      exact .inr ⟨id, task, digest, expires, he, ht, hstage, rfl, hverdict, hsuccess⟩
  · intro id id' task task' ht ht' _ _ hcredential hdigest hget hget'
    rw [hcredential, hdigest, hget', some.injEq] at hget
    exact h.unique id id' task task' ht ht' hget.symm
  · intro e s' credential digest flight hstep hget hleader
    exact registered_step h hstep hget hleader
  · intro id r credential password flight asleep hr hphase hgone
    exact follower_returns h hr hphase hgone

/-- Digests keep key and password apart; the decoder knows the text of `u:secret`, and every hash
accepts the password `secret`. -/
def transparentPrimitives : BasicPrimitives ℕ (ℕ × Bytes) where
  decodeBase64 := fun text =>
    if text = asBytes "dTpzZWNyZXQ=" then some (asBytes "u:secret") else none
  hmac := Prod.mk
  phcAlgorithm := fun _ => some "argon2id"
  verifyPassword := fun _ password => password = asBytes "secret"
  hmac_injective := Prod.mk_right_injective

def coalescedStart : Except BasicError (Authentication ℕ (ℕ × Bytes)) :=
  new transparentPrimitives some ⟨"u", "$argon2id$v=19$m=19456,t=2,p=1$c2FsdHNhbHQ$aGFzaGhhc2g", []⟩

def coalescedHeader : Bytes := asBytes "basic dTpzZWNyZXQ="

/-- The second request follows the first, takes over when the first is dropped, and answers
the third. -/
def coalescedEvents : List (AuthEvent ℕ) :=
  [.arrive 0 coalescedHeader, .resume 0, .arrive 1 coalescedHeader, .resume 1, .poll 1, .drop 0,
    .poll 1, .poll 1, .resume 1, .permit 1, .arrive 2 coalescedHeader, .resume 2, .work 1, .work 1,
    .work 1, .work 1, .poll 2]

def coalescedServer : Authentication ℕ (ℕ × Bytes) := coalescedStart.toOption.get (by decide)

def coalescedEnd : Authentication ℕ (ℕ × Bytes) :=
  (run (step transparentPrimitives) coalescedServer coalescedEvents).get (by decide)

/-- There, the third request is authorized on the answer of the second. -/
theorem basicAuthentication_sound_coalesced :
    coalescedStart = .ok coalescedServer ∧
    run (step transparentPrimitives) coalescedServer coalescedEvents = some coalescedEnd ∧
    ∃ r, coalescedEnd.requests.get 2 = some r ∧ r.phase = .reported (some true) ∧
      ∃ username password credential c,
        r.header.bind (parseBasic transparentPrimitives.decodeBase64) = some (username, password) ∧
        r.snapshot.get username = some credential ∧
        coalescedEnd.credentials[credential]? = some c ∧
        transparentPrimitives.verify c password = true := by
  have hnew : coalescedStart = .ok coalescedServer := rfl
  have hrun : run (step transparentPrimitives) coalescedServer coalescedEvents =
    some coalescedEnd :=
    (some_get _).symm
  obtain ⟨r, hr, hphase⟩ : ∃ r, coalescedEnd.requests.get 2 = some r ∧
      r.phase = .reported (some true) := ⟨_, rfl, rfl⟩
  obtain ⟨hauthorized, -⟩ := basicAuthentication_sound transparentPrimitives hnew hrun
  exact ⟨hnew, hrun, r, hr, hphase, hauthorized 2 r hr hphase⟩

end Authentication

end MasqueServer
