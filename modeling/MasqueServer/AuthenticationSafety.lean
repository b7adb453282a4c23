import MasqueServer.PasswordVerification
import MasqueServer.Runs

/-!
# What holds between the parts of a password verification

A flight is tied to the credential and password of the one leader that opened it. Whatever is
registered, sent, remembered or reported about a flight is about that pair, and a flight is
pending only as long as its leader lives.
-/
namespace MasqueServer

open List Option Table

/-- The request names this password for a user whose credential, in the set the request read,
is this one. -/
def AuthRequest.Presents {Key Digest : Type} (p : BasicPrimitives Key Digest) (r : AuthRequest)
    (credential : ℕ) (password : Bytes) : Prop :=
  ∃ username, r.header.bind (parseBasic p.decodeBase64) = some (username, password) ∧
    r.snapshot.get username = some credential

section Credentials

variable {Key Digest : Type} (p : BasicPrimitives Key Digest)
  (credentials : List (BasicCredential Key)) (credential : ℕ) (password : Bytes)

def BasicPrimitives.verdict : Option Bool :=
  (credentials[credential]?).map fun c => p.verify c password

def BasicPrimitives.digest : Option Digest :=
  (credentials[credential]?).map fun c => p.hmac c.cacheKey password

variable {p credentials credential password}

variable {credentials' : List (BasicCredential Key)}

lemma map_getElem?_extend {β : Type} {f : BasicCredential Key → β} {b : β}
    (hext : credentials <+: credentials') (h : (credentials[credential]?).map f = some b) :
    (credentials'[credential]?).map f = some b := by
  obtain ⟨rest, rfl⟩ := hext
  obtain ⟨c, hc, hb⟩ := map_eq_some_iff.mp h
  have hlt := (List.getElem?_eq_some_iff.mp hc).1
  exact map_eq_some_iff.mpr ⟨c, (getElem?_append_left hlt).trans hc, hb⟩

lemma BasicPrimitives.digest_inj {d : Digest} {password' : Bytes}
    (h : p.digest credentials credential password = some d)
    (h' : p.digest credentials credential password' = some d) : password = password' := by
  obtain ⟨c, hc, rfl⟩ := map_eq_some_iff.mp h
  obtain ⟨c', hc', heq⟩ := map_eq_some_iff.mp h'
  rw [hc, some.injEq] at hc'
  subst hc'
  exact (p.hmac_injective _ heq).symm

end Credentials

def LeaderStage.Sound (verdict : Option Bool) : LeaderStage → Prop
  | .storing _ => verdict = some true
  | .answering authorized | .closing authorized => verdict = some authorized
  | .ended result => result = some true → verdict = some true
  | _ => True

lemma LeaderStage.Sound.extend {stage : LeaderStage} {verdict verdict' : Option Bool}
    (h : stage.Sound verdict) (hext : ∀ b, verdict = some b → verdict' = some b) :
    stage.Sound verdict' := by
  cases stage with
  | storing expires => exact hext _ h
  | answering authorized => exact hext _ h
  | closing authorized => exact hext _ h
  | ended result => exact fun hresult => hext _ (h hresult)
  | _ => trivial

namespace Authentication

variable {Key Digest : Type} [DecidableEq Digest] (p : BasicPrimitives Key Digest)

variable (s : Authentication Key Digest)

def Leads (flight credential : ℕ) (password : Bytes) : Prop :=
  ∃ id task, s.leaders.get id = some task ∧ task.leader.flight = flight ∧
    task.leader.credential = credential ∧ task.password = password

def HasLeader (flight : ℕ) : Prop :=
  ∃ id task, s.leaders.get id = some task ∧ task.stage.isLive = true ∧ task.leader.flight = flight

def Authorized (r : AuthRequest) : Prop :=
  ∃ credential password, r.Presents p credential password ∧
    p.verdict s.credentials credential password = some true

def PhaseSound (id : ℕ) (r : AuthRequest) : Prop :=
  match r.phase with
  | .resuming credential password => r.Presents p credential password ∧ s.leaders.get id = none
  | .following credential password flight asleep =>
    r.Presents p credential password ∧ s.leaders.get id = none ∧
      s.Leads flight credential password ∧
        ∃ watch, s.flights[flight]? = some watch ∧
          ∀ seen, asleep = some seen → watch.Awaits (· = .pending) seen
  | .reported result => result = some true → s.Authorized p r
  | .leading | .dropped => True

/-- What a leader task relies on, whether it still runs or not. -/
structure TaskSound (credentials : List (BasicCredential Key)) (flights : List (Watch FlightResult))
    (task : LeaderTask Digest) : Prop where
  digest : p.digest credentials task.leader.credential task.password = some task.leader.digest
  stage : task.stage.Sound (p.verdict credentials task.leader.credential task.password)
  allocated : task.leader.flight < flights.length
  completed : task.leader.completed = true → ∀ watch, flights[task.leader.flight]? = some watch →
    watch.value ≠ .pending
  answered : ∀ watch authorized, flights[task.leader.flight]? = some watch →
    watch.value = .complete authorized →
      p.verdict credentials task.leader.credential task.password = some authorized

structure Sound (s : Authentication Key Digest) : Prop where
  request : ∀ id r, s.requests.get id = some r → s.PhaseSound p id r
  task : ∀ id task, s.leaders.get id = some task → TaskSound p s.credentials s.flights task
  presented : ∀ id task, s.leaders.get id = some task → ∃ r, s.requests.get id = some r ∧
    r.Presents p task.leader.credential task.password
  unique : ∀ id id' task task', s.leaders.get id = some task → s.leaders.get id' = some task' →
    task.leader.flight = task'.leader.flight → id = id'
  pending : ∀ flight watch, s.flights[flight]? = some watch → watch.value = .pending →
    s.HasLeader flight
  registered : ∀ credential digest flight,
    (s.verificationOf credential).inFlight.get digest = some flight →
      ∃ password, s.Leads flight credential password ∧
        p.digest s.credentials credential password = some digest
  bounded : ∀ credential, (s.verificationOf credential).inFlight.size ≤ maxInFlightPasswords
  success : ∀ credential digest expires,
    (s.verificationOf credential).success = some (digest, expires) →
      ∃ password, p.digest s.credentials credential password = some digest ∧
        p.verdict s.credentials credential password = some true

variable {p} {s : Authentication Key Digest} {id : ℕ} {r : AuthRequest} {task : LeaderTask Digest}

/-! ### One table at a time -/

variable {s' : Authentication Key Digest} {credential : ℕ} {state : VerificationState Digest}

omit [DecidableEq Digest] in
lemma verificationOf_put (h : s'.verification = s.verification.put credential state)
    (credential' : ℕ) :
    s'.verificationOf credential' =
      if credential' = credential then state else s.verificationOf credential' := by
  simp only [verificationOf, h, get_put]
  split_ifs <;> rfl

omit [DecidableEq Digest] in
@[simp] lemma verificationOf_setVerification (credential credential' : ℕ)
    (state : VerificationState Digest) :
    (s.setVerification credential state).verificationOf credential' =
      if credential' = credential then state else s.verificationOf credential' :=
  verificationOf_put rfl credential'

variable (h : s.Sound p)
include h

lemma setRequest_sound (hphase : s.PhaseSound p id r)
    (hpresents : ∀ task, s.leaders.get id = some task →
      r.Presents p task.leader.credential task.password)
    : (s.setRequest id r).Sound p := by
  refine ⟨?_, h.task, ?_, h.unique, h.pending, h.registered, h.bounded, h.success⟩
  · intro id' r' hr'
    simp only [setRequest, get_put] at hr'
    split_ifs at hr' with heq
    · cases hr'
      subst heq
      exact hphase
    · exact h.request id' r' hr'
  · intro id' task ht
    by_cases heq : id' = id
    · subst heq
      exact ⟨r, by simp [setRequest], hpresents task ht⟩
    · obtain ⟨r', hr', hpresents'⟩ := h.presented id' task ht
      exact ⟨r', by simp [setRequest, heq, hr'], hpresents'⟩

lemma updateRequest_sound (hr : s.requests.get id = some r) {r' : AuthRequest}
    (hheader : r'.header = r.header) (hsnapshot : r'.snapshot = r.snapshot)
    (hphase : s.PhaseSound p id r') : (s.setRequest id r').Sound p := by
  refine setRequest_sound h hphase fun task ht => ?_
  obtain ⟨r₀, hr₀, hpresents⟩ := h.presented id task ht
  rw [hr, some.injEq] at hr₀
  subst hr₀
  rw [AuthRequest.Presents, hheader, hsnapshot]
  exact hpresents

lemma setVerification_sound
    (hregistered : ∀ digest flight, state.inFlight.get digest = some flight →
      ∃ password, s.Leads flight credential password ∧ p.digest s.credentials credential password =
        some digest)
    (hbounded : state.inFlight.size ≤ maxInFlightPasswords)
    (hsuccess : ∀ digest expires, state.success = some (digest, expires) →
      ∃ password, p.digest s.credentials credential password = some digest ∧
        p.verdict s.credentials credential password = some true) :
    (s.setVerification credential state).Sound p := by
  refine ⟨h.request, h.task, h.presented, h.unique, h.pending, ?_, ?_, ?_⟩
  · intro credential' digest flight hget
    rw [verificationOf_setVerification] at hget
    split_ifs at hget with heq
    · subst heq
      exact hregistered digest flight hget
    · exact h.registered credential' digest flight hget
  · intro credential'
    rw [verificationOf_setVerification]
    split_ifs
    · exact hbounded
    · exact h.bounded credential'
  · intro credential' digest expires hget
    rw [verificationOf_setVerification] at hget
    split_ifs at hget with heq
    · subst heq
      exact hsuccess digest expires hget
    · exact h.success credential' digest expires hget

omit h in
omit [DecidableEq Digest] in
lemma PhaseSound.mono (h : s.PhaseSound p id r) (hext : s.credentials <+: s'.credentials)
    (hnone : s.leaders.get id = none → s'.leaders.get id = none)
    (hleads : ∀ flight credential password, s.Leads flight credential password →
      s'.Leads flight credential password)
    (hflights : ∀ (flight : ℕ) (watch : Watch FlightResult), s.flights[flight]? = some watch →
      ∃ watch', s'.flights[flight]? = some watch' ∧ ∀ seen, watch.Awaits (· = .pending) seen →
        watch'.Awaits (· = .pending) seen) :
    s'.PhaseSound p id r := by
  unfold PhaseSound at h ⊢
  split
  · rename_i credential password hphase
    rw [hphase] at h
    exact ⟨h.1, hnone h.2⟩
  · rename_i credential password flight asleep hphase
    rw [hphase] at h
    obtain ⟨hpresents, hleader, hlead, watch, hwatch, hasleep⟩ := h
    obtain ⟨watch', hwatch', hmono⟩ := hflights flight watch hwatch
    exact ⟨hpresents, hnone hleader, hleads _ _ _ hlead, watch', hwatch',
      fun seen hseen => hmono seen (hasleep seen hseen)⟩
  · rename_i result hphase
    rw [hphase] at h
    intro hresult
    obtain ⟨credential, password, hpresents, hverdict⟩ := h hresult
    exact ⟨credential, password, hpresents, map_getElem?_extend hext hverdict⟩
  · trivial
  · trivial

omit h in
omit [DecidableEq Digest] in
lemma getElem?_send (flight flight' : ℕ) (result : FlightResult) :
    (s.send flight result).flights[flight']? = (s.flights[flight']?).map fun watch =>
      if flight = flight' then watch.sendReplace result else watch :=
  getElem?_modify _ _ _ _

lemma send_sound {flight : ℕ} {result : FlightResult} (hresult : result ≠ .pending)
    (hanswer : ∀ id task authorized, s.leaders.get id = some task → task.leader.flight = flight →
      result = .complete authorized → p.verdict s.credentials task.leader.credential task.password =
        some authorized) :
    (s.send flight result).Sound p := by
  refine ⟨?_, ?_, h.presented, h.unique, ?_, h.registered, h.bounded, h.success⟩
  · intro id r hr
    refine PhaseSound.mono (h.request id r hr) prefix_rfl (fun hnone => hnone)
      (fun _ _ _ hleads => hleads) ?_
    intro flight' watch hwatch
    refine ⟨_, by rw [getElem?_send, hwatch, map_some], fun seen hawaits => ?_⟩
    split_ifs
    · exact hawaits.sendReplace result
    · exact hawaits
  · intro id task ht
    have hsound := h.task id task ht
    refine ⟨hsound.digest, hsound.stage, ?_, ?_, ?_⟩
    · rw [send, length_modify]
      exact hsound.allocated
    · intro hcompleted watch hwatch
      rw [getElem?_send, map_eq_some_iff] at hwatch
      obtain ⟨watch', hwatch', rfl⟩ := hwatch
      split_ifs
      · exact hresult
      · exact hsound.completed hcompleted watch' hwatch'
    · intro watch authorized hwatch hvalue
      rw [getElem?_send, map_eq_some_iff] at hwatch
      obtain ⟨watch', hwatch', rfl⟩ := hwatch
      split_ifs at hvalue with heq
      · exact hanswer id task authorized ht heq.symm hvalue
      · exact hsound.answered watch' authorized hwatch' hvalue
  · intro flight' watch hwatch hvalue
    rw [getElem?_send, map_eq_some_iff] at hwatch
    obtain ⟨watch', hwatch', rfl⟩ := hwatch
    split_ifs at hvalue
    · exact absurd hvalue hresult
    · exact h.pending flight' watch' hwatch' hvalue

lemma setLeader_sound (ht : s.leaders.get id = some task) {task' : LeaderTask Digest}
    (hflight : task'.leader.flight = task.leader.flight)
    (hcredential : task'.leader.credential = task.leader.credential)
    (hpassword : task'.password = task.password)
    (hsound : TaskSound p s.credentials s.flights task')
    (hsettled : task'.stage.isLive = true ∨ ∀ watch, s.flights[task.leader.flight]? = some watch →
      watch.value ≠ .pending) :
    (s.setLeader id task').Sound p := by
  have hother : ∀ id', id' ≠ id → (s.setLeader id task').leaders.get id' = s.leaders.get id' := by
    intro id' hne
    simp [setLeader, hne]
  have hself : (s.setLeader id task').leaders.get id = some task' := by simp [setLeader]
  have hidentity : ∀ id' task₁, (s.setLeader id task').leaders.get id' = some task₁ →
      ∃ task₀, s.leaders.get id' = some task₀ ∧ task₁.leader.flight = task₀.leader.flight ∧
        task₁.leader.credential = task₀.leader.credential ∧ task₁.password = task₀.password := by
    intro id' task₁ hget
    by_cases heq : id' = id
    · subst heq
      rw [hself, some.injEq] at hget
      subst hget
      exact ⟨task, ht, hflight, hcredential, hpassword⟩
    · rw [hother id' heq] at hget
      exact ⟨task₁, hget, rfl, rfl, rfl⟩
  have hleads : ∀ flight credential password, s.Leads flight credential password →
      (s.setLeader id task').Leads flight credential password := by
    rintro flight credential password ⟨id', task₀, hget, rfl, rfl, rfl⟩
    by_cases heq : id' = id
    · subst heq
      rw [ht, some.injEq] at hget
      subst hget
      exact ⟨id', task', hself, hflight, hcredential, hpassword⟩
    · exact ⟨id', task₀, (hother id' heq).trans hget, rfl, rfl, rfl⟩
  refine ⟨?_, ?_, ?_, ?_, ?_, ?_, h.bounded, h.success⟩
  · intro id' r hr
    refine PhaseSound.mono (h.request id' r hr) prefix_rfl (fun hnone => ?_) hleads
      fun _ watch hwatch => ⟨watch, hwatch, fun _ hawaits => hawaits⟩
    have hne : id' ≠ id := by
      rintro rfl
      rw [ht] at hnone
      cases hnone
    rw [hother id' hne, hnone]
  · intro id' task₁ hget
    by_cases heq : id' = id
    · subst heq
      rw [hself, some.injEq] at hget
      exact hget ▸ hsound
    · exact h.task id' task₁ ((hother id' heq).symm.trans hget)
  · intro id' task₁ hget
    obtain ⟨task₀, hget₀, -, hc, hp⟩ := hidentity id' task₁ hget
    rw [hc, hp]
    exact h.presented id' task₀ hget₀
  · intro id₁ id₂ task₁ task₂ h₁ h₂ heq
    obtain ⟨task₁', h₁', hf₁, -⟩ := hidentity id₁ task₁ h₁
    obtain ⟨task₂', h₂', hf₂, -⟩ := hidentity id₂ task₂ h₂
    exact h.unique id₁ id₂ task₁' task₂' h₁' h₂' (hf₁.symm.trans (heq.trans hf₂))
  · intro flight watch hwatch hvalue
    obtain ⟨id', task₀, hget, hlive, rfl⟩ := h.pending flight watch hwatch hvalue
    by_cases heq : id' = id
    · subst heq
      rw [ht, some.injEq] at hget
      subst hget
      obtain hlive' | hnot := hsettled
      · exact ⟨id', task', hself, hlive', hflight⟩
      · exact absurd hvalue (hnot watch hwatch)
    · exact ⟨id', task₀, (hother id' heq).trans hget, hlive, rfl⟩
  · intro credential digest flight hget
    obtain ⟨password, hlead, hdigest⟩ := h.registered credential digest flight hget
    exact ⟨password, hleads _ _ _ hlead, hdigest⟩

lemma lead_sound (hr : s.requests.get id = some r) (hphase : r.phase = .leading)
    (hnone : s.leaders.get id = none) {password : Bytes} {digest : Digest}
    (hpresents : r.Presents p credential password)
    (hdigest : p.digest s.credentials credential password = some digest) :
    (s.openFlight.setLeader id
      ⟨⟨credential, digest, s.flights.length, false⟩, password, .waitingPermit⟩).Sound p := by
  generalize hs' : s.openFlight.setLeader id
    ⟨⟨credential, digest, s.flights.length, false⟩, password, .waitingPermit⟩ = s'
  have hget : ∀ id', s'.leaders.get id' = if id' = id then
      some ⟨⟨credential, digest, s.flights.length, false⟩, password, .waitingPermit⟩
      else s.leaders.get id' := by
    intro id'
    rw [← hs', setLeader, get_put]
    rfl
  have hflights : s'.flights = s.flights ++ [.new .pending] := by rw [← hs']; rfl
  have hcredentials : s'.credentials = s.credentials := by rw [← hs']; rfl
  have hrequests : s'.requests = s.requests := by rw [← hs']; rfl
  have hverification : s'.verificationOf = s.verificationOf := by rw [← hs']; rfl
  have hold : ∀ id' task, s.leaders.get id' = some task → s'.leaders.get id' = some task := by
    intro id' task ht
    have hne : id' ≠ id := by
      rintro rfl
      rw [hnone] at ht
      cases ht
    rw [hget, if_neg hne, ht]
  have hleads : ∀ flight credential password, s.Leads flight credential password →
      s'.Leads flight credential password := by
    rintro flight credential password ⟨id', task, ht, hrest⟩
    exact ⟨id', task, hold id' task ht, hrest⟩
  refine ⟨?_, ?_, ?_, ?_, ?_, ?_, ?_, ?_⟩
  · intro id' r' hr'
    rw [hrequests] at hr'
    by_cases heq : id' = id
    · subst heq
      rw [hr, some.injEq] at hr'
      rw [← hr', PhaseSound, hphase]
      trivial
    · refine PhaseSound.mono (h.request id' r' hr') (hcredentials ▸ prefix_rfl)
        (fun hnone' => ?_) hleads
        fun flight watch hwatch => ⟨watch, ?_, fun _ hawaits => hawaits⟩
      · rw [hget, if_neg heq, hnone']
      · rw [hflights, getElem?_append_left (List.getElem?_eq_some_iff.mp hwatch).1, hwatch]
  · intro id' task ht
    rw [hcredentials, hflights]
    rw [hget] at ht
    split_ifs at ht with heq
    · cases ht
      refine ⟨hdigest, trivial, by simp, by simp, ?_⟩
      intro watch authorized hwatch hvalue
      rw [getElem?_concat_length, some.injEq] at hwatch
      rw [← hwatch] at hvalue
      cases hvalue
    · have hsound := h.task id' task ht
      have hlookup : (s.flights ++ [.new .pending])[task.leader.flight]? =
          s.flights[task.leader.flight]? := getElem?_append_left hsound.allocated
      refine ⟨hsound.digest, hsound.stage, ?_, ?_, ?_⟩
      · rw [length_append]
        exact Nat.lt_add_right _ hsound.allocated
      · rw [hlookup]
        exact hsound.completed
      · rw [hlookup]
        exact hsound.answered
  · intro id' task ht
    rw [hrequests]
    rw [hget] at ht
    split_ifs at ht with heq
    · cases ht
      exact ⟨r, heq ▸ hr, hpresents⟩
    · exact h.presented id' task ht
  · intro id₁ id₂ task₁ task₂ h₁ h₂ hflight
    rw [hget] at h₁ h₂
    split_ifs at h₁ h₂ with heq₁ heq₂ heq₂
    · rw [heq₁, heq₂]
    · cases h₁
      have hlt := (h.task id₂ task₂ h₂).allocated
      simp only at hflight
      omega
    · cases h₂
      have hlt := (h.task id₁ task₁ h₁).allocated
      simp only at hflight
      omega
    · exact h.unique id₁ id₂ task₁ task₂ h₁ h₂ hflight
  · intro flight watch hwatch hvalue
    rw [hflights] at hwatch
    obtain hlt | hge := Nat.lt_or_ge flight s.flights.length
    · rw [getElem?_append_left hlt] at hwatch
      obtain ⟨id', task, ht, hrest⟩ := h.pending flight watch hwatch hvalue
      exact ⟨id', task, hold id' task ht, hrest⟩
    · have hlen := (List.getElem?_eq_some_iff.mp hwatch).1
      rw [length_append, length_singleton] at hlen
      refine ⟨id, _, by rw [hget, if_pos rfl], rfl, ?_⟩
      simp only
      omega
  · intro credential' digest' flight hregistered
    rw [hverification] at hregistered
    rw [hcredentials]
    obtain ⟨password', hlead, hdigest'⟩ := h.registered credential' digest' flight hregistered
    exact ⟨password', hleads _ _ _ hlead, hdigest'⟩
  · rw [hverification]
    exact h.bounded
  · rw [hverification, hcredentials]
    exact h.success

lemma replace_sound {credentials : List (BasicCredential Key)}
    (hext : s.credentials <+: credentials) (current : BasicAuthenticator) :
    Sound p { s with current, credentials } := by
  refine ⟨?_, ?_, h.presented, h.unique, h.pending, ?_, h.bounded, ?_⟩
  · intro id r hr
    exact PhaseSound.mono (h.request id r hr) hext (fun hnone => hnone) (fun _ _ _ hleads => hleads)
      fun flight watch hwatch => ⟨watch, hwatch, fun _ hawaits => hawaits⟩
  · intro id task ht
    have hsound := h.task id task ht
    refine ⟨map_getElem?_extend hext hsound.digest,
      hsound.stage.extend fun b hb => map_getElem?_extend hext hb, hsound.allocated,
      hsound.completed, fun watch authorized hwatch hvalue => ?_⟩
    exact map_getElem?_extend hext (hsound.answered watch authorized hwatch hvalue)
  · intro credential digest flight hget
    obtain ⟨password, hlead, hdigest⟩ := h.registered credential digest flight hget
    exact ⟨password, hlead, map_getElem?_extend hext hdigest⟩
  · intro credential digest expires hget
    obtain ⟨password, hdigest, hverdict⟩ := h.success credential digest expires hget
    exact ⟨password, map_getElem?_extend hext hdigest,
      map_getElem?_extend hext hverdict⟩

end Authentication

end MasqueServer
