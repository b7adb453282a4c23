import MasqueServer.ErrorResponses
import MasqueServer.Runs

/-!
# One decision per request

A ledger says of every stream in how many places its request waits for a decision, how many tunnels
it has, and whether its request was ever admitted. The right to decide about a request is spent
once: an error status is chosen for it, or the beginning of its response is accepted.
-/
namespace MasqueServer

open Bool List Table

namespace RequestRecord

def isChoice (streamId : ℕ) : RequestRecord → Bool
  | .chose id _ => id = streamId
  | _ => false

def isAccepted (streamId : ℕ) (whole : Bool) : RequestRecord → Bool
  | .offered id _ extent .accepted => id = streamId && extent = whole
  | _ => false

def isResponse (streamId : ℕ) : RequestRecord → Bool
  | .offered id _ _ .accepted => id = streamId
  | _ => false

def isNeutral : RequestRecord → Bool
  | .chose _ _ => false
  | .offered _ _ _ _ => false
  | _ => true

def KeepsChoice (before : List RequestRecord) : RequestRecord → Prop
  | .offered id status _ _ => ∀ status', .chose id status' ∈ before → status' = status
  | _ => True

lemma keepsChoice_of_isNeutral {r : RequestRecord} (h : r.isNeutral = true)
    (before : List RequestRecord) : r.KeepsChoice before := by
  cases r with
  | offered id status whole answer => cases h
  | _ => trivial

end RequestRecord

def chosen (history : List RequestRecord) (streamId : ℕ) : ℕ :=
  history.countP (·.isChoice streamId)

def accepted (history : List RequestRecord) (streamId : ℕ) (whole : Bool) : ℕ :=
  history.countP (·.isAccepted streamId whole)

def responses (history : List RequestRecord) (streamId : ℕ) : ℕ :=
  history.countP (·.isResponse streamId)

lemma responses_eq (history : List RequestRecord) (streamId : ℕ) :
    responses history streamId =
      accepted history streamId true + accepted history streamId false := by
  induction history with
  | nil => rfl
  | cons r history ih =>
    have hr : (if r.isResponse streamId then 1 else 0) =
        (if r.isAccepted streamId true then 1 else 0) +
          if r.isAccepted streamId false then 1 else 0 := by
      cases r with
      | offered id status whole answer =>
        cases answer <;> cases whole <;> simp [RequestRecord.isResponse, RequestRecord.isAccepted]
      | _ => rfl
    simp only [responses, accepted, countP_cons] at ih ⊢
    omega

lemma chosen_concat (history : List RequestRecord) (r : RequestRecord) (streamId : ℕ) :
    chosen (history ++ [r]) streamId = chosen history streamId + (r.isChoice streamId).toNat := by
  cases h : r.isChoice streamId <;> simp [chosen, h]

lemma accepted_concat (history : List RequestRecord) (r : RequestRecord) (streamId : ℕ)
    (whole : Bool) :
    accepted (history ++ [r]) streamId whole =
      accepted history streamId whole + (r.isAccepted streamId whole).toNat := by
  cases h : r.isAccepted streamId whole <;> simp [accepted, h]

lemma chosen_pos {history : List RequestRecord} {streamId status : ℕ}
    (h : .chose streamId status ∈ history) : 0 < chosen history streamId :=
  countP_pos_iff.mpr ⟨_, h, by simp [RequestRecord.isChoice]⟩

lemma not_mem_of_chosen_eq_zero {history : List RequestRecord} {streamId status : ℕ}
    (h : chosen history streamId = 0) : .chose streamId status ∉ history := fun hmem =>
  Nat.ne_of_gt (chosen_pos hmem) h

namespace Http3Output

/-- From `o` to `o'` nothing is chosen, offered or newly kept. -/
structure Follows (o o' : Http3Output) : Prop where
  kept : ∀ id status, o'.pendingErrors.get id = some status → o.pendingErrors.get id = some status
  history : ExtendsBy (·.isNeutral = true) o.history o'.history
  peak : o'.peak = o.peak

variable {o o' o'' : Http3Output} {streamId status : ℕ}

namespace Follows

lemma refl (o : Http3Output) : Follows o o := ⟨fun _ _ h => h, .refl _, rfl⟩

lemma tick (o : Http3Output) : Follows o o.tick := ⟨fun _ _ h => h, .refl _, rfl⟩

lemma log (o : Http3Output) {r : RequestRecord} (h : r.isNeutral = true) : Follows o (o.log r) :=
  ⟨fun _ _ hk => hk, .concat _ h, rfl⟩

lemma cancel (o : Http3Output) (streamId : ℕ) : Follows o (o.cancel streamId) := by
  refine ⟨fun id status hk => ?_, .refl _, rfl⟩
  by_cases hid : id = streamId <;> simp [Http3Output.cancel, hid] at hk
  exact hk

lemma expire (o : Http3Output) (expired : ℕ → Bool) : Follows o (o.expire expired) := by
  refine ⟨fun id status hk => ?_, .refl _, rfl⟩
  rw [Http3Output.expire, get_retain, Option.filter_eq_some_iff] at hk
  exact hk.1

lemma clear (o : Http3Output) : Follows o o.clear := by
  refine ⟨fun id status hk => ?_, .refl _, rfl⟩
  simp [Http3Output.clear] at hk

lemma chosen_eq (h : Follows o o') : chosen o'.history streamId = chosen o.history streamId := by
  obtain ⟨records, heq, hneutral⟩ := h.history
  rw [heq, chosen, chosen, countP_append, Nat.add_eq_left, countP_eq_zero]
  intro r hr
  have hr := hneutral r hr
  cases r <;> simp_all [RequestRecord.isNeutral, RequestRecord.isChoice]

lemma accepted_eq (h : Follows o o') (whole : Bool) :
    accepted o'.history streamId whole = accepted o.history streamId whole := by
  obtain ⟨records, heq, hneutral⟩ := h.history
  rw [heq, accepted, accepted, countP_append, Nat.add_eq_left, countP_eq_zero]
  intro r hr
  have hr := hneutral r hr
  cases r <;> simp_all [RequestRecord.isNeutral, RequestRecord.isAccepted]

lemma mem_choice (h : Follows o o') (hmem : .chose streamId status ∈ o'.history) :
    .chose streamId status ∈ o.history :=
  h.history.mem_of_not hmem Bool.false_ne_true

lemma holds_le (h : Follows o o') :
    o'.pendingErrors.holds streamId ≤ o.pendingErrors.holds streamId := by
  cases hget : o'.pendingErrors.get streamId with
  | none => simp [holds_eq_zero hget]
  | some status =>
    rw [holds_eq_one (Table.contains_iff.mpr ⟨status, h.kept streamId status hget⟩)]
    exact holds_le_one _ _

lemma size_le (h : Follows o o') : o'.pendingErrors.size ≤ o.pendingErrors.size := by
  refine size_le_of_contains fun id hid => ?_
  obtain ⟨status, hget⟩ := Table.contains_iff.mp hid
  exact Table.contains_iff.mpr ⟨status, h.kept id status hget⟩

end Follows

/-- An error is chosen for the stream, with this status only, and is neither kept nor accepted. -/
structure Unanswered (o : Http3Output) (streamId status : ℕ) : Prop where
  absent : o.pendingErrors.get streamId = none
  owing : accepted o.history streamId true < chosen o.history streamId
  only : ∀ status', .chose streamId status' ∈ o.history → status' = status

lemma retryOne_others (answer : ℕ → ResponseAnswer) (o : Http3Output) (e : Sigma fun _ : ℕ => ℕ) :
    (∃ answered, (o.retryOne answer e).history = o.history ++ [.offered e.1 e.2 true answered]) ∧
      ∀ k, k ≠ e.1 → (o.retryOne answer e).pendingErrors.get k = o.pendingErrors.get k := by
  unfold retryOne trySend offer
  cases answer o.clock with
  | blocked => exact ⟨⟨_, rfl⟩, fun _ _ => rfl⟩
  | _ => exact ⟨⟨_, rfl⟩, fun k hk => by simp [log, hk]⟩

namespace Unanswered

lemma offer_blocked (h : o.Unanswered streamId status) :
    (o.log (.offered streamId status true .blocked)).Unanswered streamId status := by
  refine ⟨h.absent, ?_, fun status' hmem => h.only status' (by simpa [log] using hmem)⟩
  simpa [log, chosen_concat, accepted_concat, RequestRecord.isChoice, RequestRecord.isAccepted]
    using h.owing

lemma retry (answer : ℕ → ResponseAnswer) (h : o.Unanswered streamId status) :
    (o.retry answer).Unanswered streamId status := by
  refine foldl_entries (P := fun o : Http3Output => o.Unanswered streamId status)
    Http3Output.pendingErrors ?_ (fun o e k hk => (o.retryOne_others answer e).2 k hk) h
  intro o e h hkept
  obtain ⟨⟨answered, hhistory⟩, hothers⟩ := o.retryOne_others answer e
  have hne : streamId ≠ e.1 := by
    rintro rfl
    rw [h.absent] at hkept
    cases hkept
  refine ⟨(hothers streamId hne).trans h.absent, ?_, fun status' hmem => h.only status' ?_⟩
  · have hother : (RequestRecord.offered e.1 e.2 true answered).isAccepted streamId true =
      false := by
      cases answered <;> simp [RequestRecord.isAccepted, Ne.symm hne]
    rw [hhistory, chosen_concat, accepted_concat, hother]
    exact Nat.lt_of_lt_of_le h.owing (Nat.le_add_right _ _)
  · simpa [hhistory] using hmem

end Unanswered

end Http3Output

/-- What is left to decide about the requests of a connection. -/
structure RequestLedger where
  places : ℕ → ℕ
  active : ℕ → ℕ
  admitted : ℕ → Prop
  out : Http3Output

namespace RequestLedger

def spend (l : RequestLedger) (streamId : ℕ) : RequestLedger :=
  { l with places := fun id => l.places id - if id = streamId then 1 else 0 }

def activate (l : RequestLedger) (streamId : ℕ) : RequestLedger :=
  { l.spend streamId with active := fun id => l.active id + if id = streamId then 1 else 0 }

def decisions (l : RequestLedger) (streamId : ℕ) : ℕ :=
  l.places streamId + chosen l.out.history streamId + accepted l.out.history streamId false

/-- The order of a ledger. -/
structure Decided (l : RequestLedger) : Prop where
  once : ∀ id, l.decisions id ≤ 1
  admits : ∀ id, 0 < l.decisions id → l.admitted id
  active_le : ∀ id, l.active id ≤ accepted l.out.history id false
  answered_le : ∀ id,
    accepted l.out.history id true + l.out.pendingErrors.holds id ≤ chosen l.out.history id
  kept : ∀ id status, l.out.pendingErrors.get id = some status →
    ∀ status', .chose id status' ∈ l.out.history → status' = status
  keepsChoice : Justified (fun before r => r.KeepsChoice before) l.out.history
  size_le : l.out.pendingErrors.size ≤ l.out.peak
  peak_le : l.out.peak ≤ maxPendingErrorResponses

namespace Decided

variable {l l' : RequestLedger} {streamId status : ℕ} {answer : ℕ → ResponseAnswer}

lemma undecided (h : l.Decided) (hplace : 0 < l.places streamId) :
    chosen l.out.history streamId = 0 ∧ accepted l.out.history streamId false = 0 := by
  have honce := h.once streamId
  unfold decisions at honce
  omega

lemma kept_admitted (h : l.Decided) (hkept : l.out.pendingErrors.contains streamId = true) :
    l.admitted streamId := by
  have hanswered := h.answered_le streamId
  rw [holds_eq_one hkept] at hanswered
  refine h.admits streamId ?_
  unfold decisions
  omega

lemma weaken (h : l.Decided) (hplaces : ∀ id, l'.places id ≤ l.places id)
    (hactive : ∀ id, l'.active id ≤ l.active id) (hadmitted : ∀ id, l.admitted id → l'.admitted id)
    (hout : l.out.Follows l'.out) : l'.Decided := by
  have hdecisions : ∀ id, l'.decisions id ≤ l.decisions id := by
    intro id
    have hid := hplaces id
    rw [decisions, decisions, hout.chosen_eq, hout.accepted_eq]
    omega
  refine ⟨fun id => (hdecisions id).trans (h.once id), fun id hpos => ?_, fun id =>
    ?_, fun id => ?_,
    fun id status hk status' hmem => ?_, ?_, ?_, ?_⟩
  · exact hadmitted id (h.admits id (Nat.lt_of_lt_of_le hpos (hdecisions id)))
  · rw [hout.accepted_eq]
    exact (hactive id).trans (h.active_le id)
  · have hanswered := h.answered_le id
    have hholds : l'.out.pendingErrors.holds id ≤ l.out.pendingErrors.holds id := hout.holds_le
    rw [hout.accepted_eq, hout.chosen_eq]
    omega
  · exact h.kept id status (hout.kept id status hk) status' (hout.mem_choice hmem)
  · exact h.keepsChoice.extend hout.history fun r before hr =>
      RequestRecord.keepsChoice_of_isNeutral hr before
  · exact hout.peak ▸ hout.size_le.trans h.size_le
  · exact hout.peak ▸ h.peak_le

lemma takeUp (h : l.Decided) (hfresh : ¬l.admitted streamId)
    (hplaces : ∀ id, l'.places id ≤ l.places id + if id = streamId then 1 else 0)
    (hactive : ∀ id, l'.active id ≤ l.active id)
    (hadmitted : ∀ id, l.admitted id ∨ id = streamId → l'.admitted id)
    (hout : l'.out = l.out) : l'.Decided := by
  have hzero : l.decisions streamId = 0 := by
    by_contra hne
    exact hfresh (h.admits streamId (Nat.pos_of_ne_zero hne))
  refine ⟨fun id => ?_, fun id hpos => ?_, fun id => ?_, ?_, ?_, ?_, ?_, ?_⟩
  · have honce := h.once id
    have hid := hplaces id
    rw [decisions, hout]
    unfold decisions at honce hzero
    by_cases heq : id = streamId
    · subst heq
      rw [if_pos rfl] at hid
      omega
    · rw [if_neg heq] at hid
      omega
  · refine hadmitted id ?_
    by_cases heq : id = streamId
    · exact .inr heq
    · have hid := hplaces id
      rw [if_neg heq] at hid
      rw [decisions, hout] at hpos
      refine .inl (h.admits id ?_)
      unfold decisions
      omega
  · rw [hout]
    exact (hactive id).trans (h.active_le id)
  all_goals rw [hout]
  exacts [h.answered_le, h.kept, h.keepsChoice, h.size_le, h.peak_le]

lemma opened {active : ℕ → ℕ} {admitted : ℕ → Prop} (hactive : ∀ id, active id = 0) :
    (⟨fun _ => 0, active, admitted, .opened⟩ : RequestLedger).Decided :=
  ⟨fun _ => Nat.zero_le 1, fun _ hpos => absurd hpos (Nat.lt_irrefl 0),
    fun id => Nat.le_of_eq (hactive id), fun _ => Nat.le_refl 0, (by intro _ _ hk; cases hk),
    justified_nil, Nat.le_refl 0, Nat.zero_le _⟩

lemma refuse (h : l.Decided)
    (honly : ∀ status', .chose streamId status' ∈ l.out.history → status' = status)
    (whole : Bool) (answered : ResponseAnswer) (hrefused : answered ≠ .accepted) :
    { l with out := l.out.log (.offered streamId status whole answered) }.Decided := by
  have hchosen : ∀ id, chosen (l.out.history ++ [.offered streamId status whole answered]) id =
      chosen l.out.history id := fun id => by simp [chosen_concat, RequestRecord.isChoice]
  have haccepted : ∀ id extent,
      accepted (l.out.history ++ [.offered streamId status whole answered]) id extent =
        accepted l.out.history id extent := fun id extent => by
    cases answered <;> simp_all [accepted_concat, RequestRecord.isAccepted]
  refine ⟨fun id => ?_, fun id hpos => h.admits id ?_, fun id => ?_, fun id => ?_,
    fun id status hk status' hmem => h.kept id status hk status' ?_, ?_, h.size_le, h.peak_le⟩
  · simpa only [decisions, Http3Output.log, hchosen, haccepted] using h.once id
  · simpa only [decisions, Http3Output.log, hchosen, haccepted] using hpos
  · simpa only [Http3Output.log, haccepted] using h.active_le id
  · simpa only [Http3Output.log, hchosen, haccepted] using h.answered_le id
  · simpa [Http3Output.log] using hmem
  · exact justified_concat.mpr ⟨h.keepsChoice, honly⟩

lemma accept (h : l.Decided) (howed : l.out.Unanswered streamId status) :
    { l with out := l.out.log (.offered streamId status true .accepted) }.Decided := by
  have hchosen : ∀ id, chosen (l.out.history ++ [.offered streamId status true .accepted]) id =
      chosen l.out.history id := fun id => by simp [chosen_concat, RequestRecord.isChoice]
  have hbegun : ∀ id,
      accepted (l.out.history ++ [.offered streamId status true .accepted]) id false =
        accepted l.out.history id false := fun id => by
    simp [accepted_concat, RequestRecord.isAccepted]
  refine ⟨fun id => ?_, fun id hpos => h.admits id ?_, fun id => ?_, fun id => ?_,
    fun id status hk status' hmem => h.kept id status hk status' ?_, ?_, h.size_le, h.peak_le⟩
  · simpa only [decisions, Http3Output.log, hchosen, hbegun] using h.once id
  · simpa only [decisions, Http3Output.log, hchosen, hbegun] using hpos
  · simpa only [Http3Output.log, hbegun] using h.active_le id
  · have hanswered := h.answered_le id
    simp only [Http3Output.log, hchosen, accepted_concat, RequestRecord.isAccepted, decide_true,
      Bool.and_true]
    by_cases hid : streamId = id
    · subst hid
      have howing := howed.owing
      rw [decide_eq_true rfl, toNat_true, holds_eq_zero howed.absent]
      omega
    · rw [decide_eq_false hid, toNat_false]
      exact hanswered
  · simpa [Http3Output.log] using hmem
  · exact justified_concat.mpr ⟨h.keepsChoice, howed.only⟩

lemma choose (h : l.Decided) (hplace : 0 < l.places streamId) (status : ℕ) :
    { l.spend streamId with out := l.out.log (.chose streamId status) }.Decided := by
  obtain ⟨hchosen, hbegun⟩ := h.undecided hplace
  have haccepted : ∀ id extent, accepted (l.out.history ++ [.chose streamId status]) id extent =
      accepted l.out.history id extent := fun id extent => by
    simp [accepted_concat, RequestRecord.isAccepted]
  have hdecisions : ∀ id,
      { l.spend streamId with out := l.out.log (.chose streamId status) }.decisions id =
        l.decisions id := by
    intro id
    simp only [decisions, spend, Http3Output.log, haccepted, chosen_concat, RequestRecord.isChoice]
    by_cases hid : id = streamId
    · subst hid
      rw [if_pos rfl, decide_eq_true rfl, toNat_true]
      omega
    · rw [if_neg hid, decide_eq_false (Ne.symm hid), toNat_false]
      omega
  refine ⟨fun id => hdecisions id ▸ h.once id, fun id hpos => h.admits id (hdecisions id ▸ hpos),
    fun id => ?_, fun id => ?_, fun id status' hk status'' hmem => ?_, ?_, h.size_le, h.peak_le⟩
  · simpa only [spend, Http3Output.log, haccepted] using h.active_le id
  · have hanswered := h.answered_le id
    simp only [Http3Output.log, haccepted, chosen_concat]
    omega
  · have hanswered := h.answered_le id
    have hholds := holds_eq_one (Table.contains_iff.mpr ⟨status', hk⟩)
    have hne : id ≠ streamId := by
      rintro rfl
      change accepted _ _ _ + l.out.pendingErrors.holds id ≤ _ at hanswered
      change l.out.pendingErrors.holds id = 1 at hholds
      omega
    refine h.kept id status' hk status'' ?_
    simpa [Http3Output.log, hne] using hmem
  · exact justified_concat.mpr ⟨h.keepsChoice, trivial⟩

lemma establish (h : l.Decided) (hplace : 0 < l.places streamId) (status : ℕ) :
    { l.activate streamId with
      out := l.out.log (.offered streamId status false .accepted) }.Decided := by
  obtain ⟨hchosen, hbegun⟩ := h.undecided hplace
  have hchosen' : ∀ id, chosen (l.out.history ++ [.offered streamId status false .accepted]) id =
      chosen l.out.history id := fun id => by simp [chosen_concat, RequestRecord.isChoice]
  have hwhole : ∀ id,
      accepted (l.out.history ++ [.offered streamId status false .accepted]) id true =
        accepted l.out.history id true := fun id => by
    simp [accepted_concat, RequestRecord.isAccepted]
  have hbegun' : ∀ id,
      accepted (l.out.history ++ [.offered streamId status false .accepted]) id false =
        accepted l.out.history id false + if id = streamId then 1 else 0 := fun id => by
    by_cases hid : id = streamId <;>
      simp [accepted_concat, RequestRecord.isAccepted, hid, Ne.symm]
  have hdecisions : ∀ id,
      { l.activate streamId with
        out := l.out.log (.offered streamId status false .accepted) }.decisions id =
        l.decisions id := by
    intro id
    simp only [decisions, activate, spend, Http3Output.log, hchosen', hbegun']
    by_cases hid : id = streamId
    · subst hid
      rw [if_pos rfl]
      omega
    · rw [if_neg hid]
      omega
  refine ⟨fun id => hdecisions id ▸ h.once id, fun id hpos => h.admits id (hdecisions id ▸ hpos),
    fun id => ?_, fun id => ?_, fun id status' hk status'' hmem => h.kept id status' hk status'' ?_,
    ?_, h.size_le, h.peak_le⟩
  · have hactive := h.active_le id
    simp only [activate, Http3Output.log, hbegun']
    omega
  · simpa only [Http3Output.log, hchosen', hwhole] using h.answered_le id
  · simpa [Http3Output.log] using hmem
  · refine justified_concat.mpr ⟨h.keepsChoice, fun status' hmem => ?_⟩
    exact absurd hmem (not_mem_of_chosen_eq_zero hchosen)

lemma keep (h : l.Decided) (howed : l.out.Unanswered streamId status)
    (hroom : l.out.pendingErrors.size < maxPendingErrorResponses) :
    { l with out := l.out.keep streamId status }.Decided := by
  refine ⟨h.once, h.admits, h.active_le, fun id => ?_, fun id status' hk => ?_, h.keepsChoice,
    Nat.le_max_right _ _, ?_⟩
  · have hanswered := h.answered_le id
    simp only [Http3Output.keep, holds_put]
    by_cases hid : id = streamId
    · subst hid
      have howing := howed.owing
      rw [if_pos rfl]
      omega
    · rw [if_neg hid]
      exact hanswered
  · simp only [Http3Output.keep, get_put] at hk
    by_cases hid : id = streamId
    · subst hid
      rw [if_pos rfl, Option.some.injEq] at hk
      exact hk ▸ howed.only
    · rw [if_neg hid] at hk
      exact h.kept id status' hk
  · have hsize := size_put_le l.out.pendingErrors streamId status
    have hpeak := h.peak_le
    simp only [Http3Output.keep]
    omega

lemma retryOne (h : l.Decided) {e : Sigma fun _ : ℕ => ℕ}
    (hkept : l.out.pendingErrors.get e.1 = some e.2) :
    { l with out := l.out.retryOne answer e }.Decided := by
  have honly := h.kept e.1 e.2 hkept
  have hdropped : { l with out := l.out.cancel e.1 }.Decided :=
    h.weaken (fun _ => Nat.le_refl _) (fun _ => Nat.le_refl _) (fun _ hid => hid)
      (.cancel l.out e.1)
  have howed : (l.out.cancel e.1).Unanswered e.1 e.2 := by
    have hanswered := h.answered_le e.1
    rw [holds_eq_one (Table.contains_iff.mpr ⟨_, hkept⟩)] at hanswered
    exact ⟨by simp [Http3Output.cancel], hanswered, honly⟩
  unfold Http3Output.retryOne Http3Output.trySend Http3Output.offer
  cases hanswer : answer l.out.clock with
  | accepted => exact hdropped.accept howed
  | blocked => exact h.refuse honly true .blocked (by decide)
  | failed => exact hdropped.refuse honly true .failed (by decide)

lemma retry (h : l.Decided) : { l with out := l.out.retry answer }.Decided :=
  foldl_entries (P := fun o : Http3Output => { l with out := o }.Decided)
    Http3Output.pendingErrors (fun _ _ ho hkept => ho.retryOne hkept)
    (fun o e k hk => (o.retryOne_others answer e).2 k hk) h

theorem send (h : l.Decided) (hplace : 0 < l.places streamId) (answer : ℕ → ResponseAnswer)
    (status : ℕ) :
    { l.spend streamId with out := l.out.send answer streamId status }.Decided := by
  obtain ⟨hchosen, -⟩ := h.undecided hplace
  have hanswered := h.answered_le streamId
  have habsent : l.out.pendingErrors.get streamId = none := by
    rw [← contains_eq_false]
    by_contra hcontains
    rw [not_eq_false] at hcontains
    rw [holds_eq_one hcontains] at hanswered
    omega
  have hchoice := h.choose hplace status
  have howed : (l.out.log (.chose streamId status)).Unanswered streamId status := by
    refine ⟨habsent, ?_, fun status' hmem => ?_⟩
    · simp only [Http3Output.log, chosen_concat, accepted_concat, RequestRecord.isChoice,
        RequestRecord.isAccepted, decide_true, toNat_true, toNat_false]
      omega
    · simpa [Http3Output.log, not_mem_of_chosen_eq_zero hchosen] using hmem
  unfold Http3Output.send Http3Output.trySend Http3Output.offer
  rw [if_neg (by simp [Table.contains, habsent])]
  cases answer (l.out.log (.chose streamId status)).clock with
  | accepted => exact hchoice.accept howed
  | failed => exact hchoice.refuse howed.only true .failed (by decide)
  | blocked =>
    have hblocked := hchoice.refuse howed.only true .blocked (by decide)
    have howed := howed.offer_blocked
    simp only [decide_true]
    split_ifs with hfull hstill
    · exact hblocked.retry
    · exact hblocked.retry.keep (howed.retry answer) (Nat.lt_of_not_le hstill)
    · exact hblocked.keep howed (Nat.lt_of_not_le hfull)

end Decided

end RequestLedger

end MasqueServer
