import MasqueServer.Runs
import Mathlib.Data.List.Basic
import MasqueServer.Octets

/-!
# The response of a CONNECT-TCP tunnel

Bytes read from the target wait in a queue until HTTP/3 takes them. A flush offers the queue chunk
by chunk; each offer is answered independently with a part taken, blocked, or failed.
-/
namespace MasqueServer

open Bool List Option

/-- One chunk of target output, and how much of it HTTP/3 has taken so far. -/
structure PendingTcpResponse where
  data : Bytes
  offset : ℕ
  deriving DecidableEq

def PendingTcpResponse.remaining (r : PendingTcpResponse) : Bytes := r.data.drop r.offset

structure TcpTunnel where
  lastActivity : ℕ
  pendingResponses : List PendingTcpResponse
  upstreamFinished : Bool
  responseFinished : Bool
  writerFinished : Bool
  responseCredit : ℕ
  deriving DecidableEq

/-- The answer of one `send_body` call: it takes up to `n` bytes of the slice, is blocked for
lack of credit, or fails. -/
inductive SendOutcome
  | accepts (n : ℕ)
  | blocked
  | failed
  deriving DecidableEq

/-- What the response stream sees, and what the target hands over. -/
inductive StreamEvent
  | handed (data : Bytes)
  | sent (data : Bytes)
  | fin
  | reset
  deriving DecidableEq

namespace TcpTunnel

variable (t : TcpTunnel)

def queueResponse (now : ℕ) (data : Bytes) : Option TcpTunnel :=
  if t.responseFinished then none
  else some { t with
    pendingResponses := t.pendingResponses ++ [⟨data, 0⟩]
    lastActivity := now }

def advanceResponse (now written : ℕ) : TcpTunnel :=
  match t.pendingResponses with
  | [] => t
  | r :: rest =>
    { t with
      pendingResponses :=
        if r.data.length ≤ r.offset + written then rest
        else { r with offset := r.offset + written } :: rest
      responseCredit := t.responseCredit + written
      lastActivity := now }

def hasPendingResponse : Bool := !t.pendingResponses.isEmpty

def isComplete : Bool := t.writerFinished && t.responseFinished

def isIdle (now timeout : ℕ) : Bool := timeout < now - t.lastActivity

def unsent : Bytes := (t.pendingResponses.map (·.remaining)).flatten

end TcpTunnel

structure Drained where
  tunnel : TcpTunnel
  events : List StreamEvent
  failed : Bool
  rest : List SendOutcome

/-- Offer the queued chunks until one is not taken. An answer that is not given counts as
blocked, and a call never takes more than it was offered. -/
def drainResponses (now : ℕ) : TcpTunnel → List SendOutcome → Drained
  | t, [] => ⟨t, [], false, []⟩
  | t, outcome :: rest =>
    match t.pendingResponses with
    | [] => ⟨t, [], false, outcome :: rest⟩
    | r :: _ =>
      match outcome with
      | .accepts n =>
        let written := min n r.remaining.length
        if written = 0 then ⟨t, [], false, rest⟩
        else
          let d := drainResponses now (t.advanceResponse now written) rest
          { d with events := .sent (r.remaining.take written) :: d.events }
      | .blocked => ⟨t, [], false, rest⟩
      | .failed => ⟨t, [], true, rest⟩

/-- The final empty frame, offered once everything was taken and the target has finished. -/
def finishResponse (d : Drained) : Drained :=
  if !d.failed && !d.tunnel.hasPendingResponse && d.tunnel.upstreamFinished &&
      !d.tunnel.responseFinished then
    match d.rest with
    | .accepts _ :: rest =>
      ⟨{ d.tunnel with responseFinished := true }, d.events ++ [.fin], false, rest⟩
    | .failed :: rest => ⟨d.tunnel, d.events, true, rest⟩
    | .blocked :: rest => ⟨d.tunnel, d.events, false, rest⟩
    | [] => d
  else d

def flushTcpResponse (now : ℕ) (t : TcpTunnel) (outcomes : List SendOutcome) :
    Option TcpTunnel × List StreamEvent :=
  let d := finishResponse (drainResponses now t outcomes)
  if d.failed then (none, d.events ++ [.reset])
  else if d.tunnel.isComplete then (none, d.events)
  else (some d.tunnel, d.events)

def closeIdleStream (reset : Bool) (outcome : SendOutcome) : List StreamEvent :=
  match reset, outcome with
  | false, .accepts _ => [.fin]
  | _, _ => [.reset]

/-- One response stream: its tunnel while there is one, and its trace. -/
structure TcpStream where
  tunnel : Option TcpTunnel
  trace : List StreamEvent
  deriving DecidableEq

inductive TcpEvent
  | data (now : ℕ) (data : Bytes)
  | eof (now : ℕ)
  | error
  | writeFinished (now : ℕ)
  | clientActivity (now : ℕ)
  | flush (now : ℕ) (outcomes : List SendOutcome)
  | sweep (now timeout : ℕ) (outcome : SendOutcome)

namespace TcpStream

def opened (now : ℕ) : TcpStream := ⟨some ⟨now, [], false, false, false, 0⟩, []⟩

def cleanupIdleTunnel (s : TcpStream) (t : TcpTunnel) (now timeout : ℕ) (outcome : SendOutcome) :
    TcpStream :=
  if t.isIdle now timeout then ⟨none, s.trace ++ closeIdleStream false outcome⟩ else s

def step (s : TcpStream) (e : TcpEvent) : Option TcpStream :=
  match s.tunnel with
  | none => some s
  | some t =>
    match e with
    | .data now data =>
      match t.queueResponse now data with
      | some t => some ⟨some t, s.trace ++ [.handed data]⟩
      | none => some ⟨none, s.trace ++ [.handed data, .reset]⟩
    | .eof now =>
      some { s with tunnel := some { t with upstreamFinished := true, lastActivity := now } }
    | .error => some ⟨none, s.trace ++ [.reset]⟩
    | .writeFinished now =>
      some { s with tunnel := some { t with writerFinished := true, lastActivity := now } }
    | .clientActivity now => some { s with tunnel := some { t with lastActivity := now } }
    | .flush now outcomes =>
      let (tunnel, events) := flushTcpResponse now t outcomes
      some ⟨tunnel, s.trace ++ events⟩
    | .sweep now timeout outcome => some (s.cleanupIdleTunnel t now timeout outcome)

end TcpStream

/-! ### What a trace promises -/

def handedBytes (trace : List StreamEvent) : Bytes :=
  (trace.map fun e => match e with | .handed data => data | _ => []).flatten

def sentBytes (trace : List StreamEvent) : Bytes :=
  (trace.map fun e => match e with | .sent data => data | _ => []).flatten

@[simp] lemma handedBytes_append (l l' : List StreamEvent) :
    handedBytes (l ++ l') = handedBytes l ++ handedBytes l' := by simp [handedBytes]

@[simp] lemma sentBytes_append (l l' : List StreamEvent) :
    sentBytes (l ++ l') = sentBytes l ++ sentBytes l' := by simp [sentBytes]

/-- Whenever a final frame was accepted, everything handed over before had been accepted. -/
def FinComplete (trace : List StreamEvent) : Prop :=
  ∀ before after, trace = before ++ .fin :: after → sentBytes before = handedBytes before

/-- The claim about one stream: no final frame cuts the response short, and a tunnel removed
with unsent bytes ends in a reset. -/
structure NeverTruncated (s : TcpStream) : Prop where
  fin_complete : FinComplete s.trace
  ends_in_reset : s.tunnel = none → sentBytes s.trace ≠ handedBytes s.trace →
    s.trace.getLast? = some .reset

variable {l : List StreamEvent} {t : TcpTunnel} {trace : List StreamEvent}

lemma finComplete_append {l' : List StreamEvent} (h : FinComplete l) (hno : .fin ∉ l') :
    FinComplete (l ++ l') := by
  intro before after he
  obtain ⟨mid, hb, hl'⟩ | ⟨mid, hl, ha⟩ := append_eq_append_iff.mp he
  · exact absurd (by rw [hl']; simp) hno
  · cases mid with
    | nil =>
      simp only [nil_append] at ha
      exact absurd (by rw [← ha]; simp) hno
    | cons e mid =>
      rw [cons_append, List.cons.injEq] at ha
      exact h before mid (by rw [hl, ha.1])

lemma finComplete_fin (h : FinComplete l) (he : sentBytes l = handedBytes l) :
    FinComplete (l ++ [.fin]) := by
  intro before after heq
  obtain ⟨mid, hb, hl'⟩ | ⟨mid, hl, ha⟩ := append_eq_append_iff.mp heq
  · cases mid with
    | nil =>
      rw [append_nil] at hb
      rwa [hb]
    | cons e mid => simp at hl'
  · cases mid with
    | nil =>
      rw [append_nil] at hl
      rwa [← hl]
    | cons e mid =>
      rw [cons_append, List.cons.injEq] at ha
      exact h before mid (by rw [hl, ha.1])

lemma FinComplete.of_append {l' : List StreamEvent} (h : FinComplete (l ++ l')) :
    FinComplete l := by
  intro before after he
  exact h before (after ++ l') (by rw [he, append_assoc, cons_append])

/-! ### The flush -/

lemma advanceResponse_unsent {r : PendingTcpResponse} {rest : List PendingTcpResponse}
    (ht : t.pendingResponses = r :: rest) (now written : ℕ) :
    r.remaining.take written ++ (t.advanceResponse now written).unsent = t.unsent := by
  unfold TcpTunnel.advanceResponse TcpTunnel.unsent
  rw [ht]
  dsimp only
  split_ifs with hlen
  · have hall : r.remaining.take written = r.remaining := by
      apply take_of_length_le
      rw [PendingTcpResponse.remaining, length_drop]
      omega
    simp [hall]
  · have hsplit : r.remaining.take written ++ r.data.drop (r.offset + written) = r.remaining := by
      rw [PendingTcpResponse.remaining, ← drop_drop, take_append_drop]
    simp only [map_cons, flatten_cons, PendingTcpResponse.remaining] at hsplit ⊢
    rw [← append_assoc, hsplit]

@[simp] lemma advanceResponse_responseFinished (t : TcpTunnel) (now written : ℕ) :
    (t.advanceResponse now written).responseFinished = t.responseFinished := by
  unfold TcpTunnel.advanceResponse
  split <;> rfl

/-- What a drain does: it moves bytes from the queue to the stream, in order, and nothing
else that concerns the response. -/
structure DrainSpec (t : TcpTunnel) (d : Drained) : Prop where
  no_fin : .fin ∉ d.events
  handed_nil : handedBytes d.events = []
  moved : sentBytes d.events ++ d.tunnel.unsent = t.unsent
  responseFinished_eq : d.tunnel.responseFinished = t.responseFinished
  pending_nil : t.pendingResponses = [] → d.tunnel.pendingResponses = []

lemma DrainSpec.stopped (t : TcpTunnel) (failed : Bool) (rest : List SendOutcome) :
    DrainSpec t ⟨t, [], failed, rest⟩ :=
  ⟨by simp, rfl, rfl, rfl, id⟩

theorem drainResponses_spec (now : ℕ) (t : TcpTunnel) (outcomes : List SendOutcome) :
    DrainSpec t (drainResponses now t outcomes) := by
  induction outcomes generalizing t with
  | nil => exact .stopped t _ _
  | cons outcome rest ih =>
    unfold drainResponses
    cases hp : t.pendingResponses with
    | nil => exact .stopped t _ _
    | cons r others =>
      cases outcome with
      | blocked => exact .stopped t _ _
      | failed => exact .stopped t _ _
      | accepts n =>
        dsimp only
        split_ifs with hz
        · exact .stopped t _ _
        · have h := ih (t.advanceResponse now (min n r.remaining.length))
          refine ⟨by simpa using h.no_fin, by simpa [handedBytes] using h.handed_nil, ?_, ?_, ?_⟩
          · have hmoved := h.moved
            rw [← advanceResponse_unsent hp now (min n r.remaining.length), ← hmoved]
            simp [sentBytes]
          · rw [← advanceResponse_responseFinished t now (min n r.remaining.length)]
            exact h.responseFinished_eq
          · intro hnil
            rw [hp] at hnil
            cases hnil

theorem finishResponse_spec {d : Drained} (h : DrainSpec t d) :
    DrainSpec t (finishResponse d) ∨
      d.tunnel.pendingResponses = [] ∧ (finishResponse d).events = d.events ++ [.fin] ∧
        (finishResponse d).tunnel = { d.tunnel with responseFinished := true } ∧
        (finishResponse d).failed = false := by
  unfold finishResponse
  split_ifs with hfin
  · have hpending : d.tunnel.pendingResponses = [] := by
      simp only [TcpTunnel.hasPendingResponse, and_eq_true, not_eq_true'] at hfin
      simpa using hfin.1.1.2
    split
    · exact .inr ⟨hpending, rfl, rfl, rfl⟩
    · exact .inl ⟨h.no_fin, h.handed_nil, h.moved, h.responseFinished_eq, h.pending_nil⟩
    · exact .inl ⟨h.no_fin, h.handed_nil, h.moved, h.responseFinished_eq, h.pending_nil⟩
    · exact .inl h
  · exact .inl h

/-! ### The invariant -/

/-- While the tunnel exists, the bytes accepted and the queue together are what the target
handed over, and a finished response has no queue left. -/
structure Accounted (trace : List StreamEvent) (t : TcpTunnel) : Prop where
  balance : sentBytes trace ++ t.unsent = handedBytes trace
  finished : t.responseFinished = true → t.pendingResponses = []

lemma Accounted.sent_eq (h : Accounted trace t) (hu : t.unsent = []) :
    sentBytes trace = handedBytes trace := by
  rw [← h.balance, hu, append_nil]

/-- The claim, with the account of the live tunnel. -/
structure Intact (s : TcpStream) : Prop where
  neverTruncated : NeverTruncated s
  accounted : ∀ t, s.tunnel = some t → Accounted s.trace t

lemma Intact.of_live (hf : FinComplete trace) (ha : Accounted trace t) : Intact ⟨some t, trace⟩ :=
  ⟨⟨hf, fun h => (nomatch h)⟩, fun _ ht => some.inj ht ▸ ha⟩

lemma Intact.of_removed (hf : FinComplete trace)
    (hend : sentBytes trace ≠ handedBytes trace → trace.getLast? = some .reset) :
    Intact ⟨none, trace⟩ :=
  ⟨⟨hf, fun _ => hend⟩, fun _ ht => (nomatch ht)⟩

lemma Intact.of_reset (hf : FinComplete trace) :
    Intact ⟨none, trace ++ [.reset]⟩ :=
  .of_removed (finComplete_append hf (by simp)) fun _ => getLast?_concat

lemma accounted_moved {d : Drained} (ha : Accounted trace t) (h : DrainSpec t d) :
    Accounted (trace ++ d.events) d.tunnel := by
  refine ⟨?_, ?_⟩
  · rw [sentBytes_append, handedBytes_append, h.handed_nil, append_nil, append_assoc,
      h.moved, ha.balance]
  · intro hfin
    rw [h.responseFinished_eq] at hfin
    exact h.pending_nil (ha.finished hfin)

lemma unsent_eq_nil (h : t.pendingResponses = []) : t.unsent = [] := by
  rw [TcpTunnel.unsent, h]
  rfl

theorem flush_intact (hf : FinComplete trace) (ha : Accounted trace t) (now : ℕ)
    (outcomes : List SendOutcome) :
    Intact ⟨(flushTcpResponse now t outcomes).1, trace ++ (flushTcpResponse now t outcomes).2⟩ := by
  have hdrain := drainResponses_spec now t outcomes
  have hfinish := finishResponse_spec hdrain
  unfold flushTcpResponse
  generalize drainResponses now t outcomes = d at hdrain hfinish ⊢
  obtain hspec | ⟨hempty, hevents, htunnel, hok⟩ := hfinish
  · generalize finishResponse d = d' at hspec ⊢
    have ha' := accounted_moved ha hspec
    have hf' := finComplete_append hf hspec.no_fin
    dsimp only
    split_ifs with hfail hcomplete
    · dsimp only
      rw [← append_assoc]
      exact .of_reset hf'
    · refine .of_removed hf' fun hne => absurd ?_ hne
      have hfinished : d'.tunnel.responseFinished = true := by
        simp only [TcpTunnel.isComplete, and_eq_true] at hcomplete
        exact hcomplete.2
      exact ha'.sent_eq (unsent_eq_nil (ha'.finished hfinished))
    · exact .of_live hf' ha'
  · have ha' := accounted_moved ha hdrain
    have hsent := ha'.sent_eq (unsent_eq_nil hempty)
    have hf' := finComplete_fin (finComplete_append hf hdrain.no_fin) hsent
    have hafter : Accounted (trace ++ d.events ++ [.fin]) { d.tunnel with responseFinished :=
      true } := by
      refine ⟨?_, fun _ => hempty⟩
      have hu : TcpTunnel.unsent { d.tunnel with responseFinished := true } = [] :=
        unsent_eq_nil hempty
      rw [hu, append_nil, sentBytes_append, handedBytes_append, hsent]
      rfl
    dsimp only
    rw [hevents, htunnel, hok, if_neg Bool.false_ne_true]
    split_ifs with hcomplete
    · dsimp only
      rw [← append_assoc]
      exact .of_removed hf' fun hne => absurd (hafter.sent_eq (unsent_eq_nil hempty)) hne
    · dsimp only
      rw [← append_assoc]
      exact .of_live hf' hafter

namespace TcpStream

/-- No sweep finds the tunnel idle with bytes still unsent while HTTP/3 accepts an empty final
frame. -/
def SweepSparesBacklog (s : TcpStream) : TcpEvent → Prop
  | .sweep now timeout (.accepts _) =>
    ∀ t ∈ s.tunnel, t.isIdle now timeout = true → t.unsent = []
  | _ => True

instance (s : TcpStream) : ∀ e, Decidable (s.SweepSparesBacklog e)
  | .sweep now timeout (.accepts _) =>
    inferInstanceAs (Decidable (∀ t ∈ s.tunnel, t.isIdle now timeout = true → t.unsent = []))
  | .sweep _ _ .blocked | .sweep _ _ .failed | .data _ _ | .eof _ | .error | .writeFinished _
  | .clientActivity _ | .flush _ _ => isTrue trivial

variable {s s' : TcpStream} {e : TcpEvent}

theorem step_intact (h : Intact s) (hspares : s.SweepSparesBacklog e)
    (hstep : s.step e = some s') : Intact s' := by
  obtain ⟨tunnel, trace⟩ := s
  have hf := h.neverTruncated.fin_complete
  cases tunnel with
  | none =>
    cases hstep
    exact h
  | some t =>
    have ha := h.accounted t rfl
    cases e with
    | data now data =>
      by_cases hfin : t.responseFinished = true
      · have hrefused : t.queueResponse now data = none := if_pos hfin
        simp only [step, hrefused, some.injEq] at hstep
        have hsplit : trace ++ [.handed data, .reset] = trace ++ [.handed data] ++
          [.reset] := by simp
        rw [← hstep, hsplit]
        exact .of_reset (finComplete_append hf (by simp))
      · have hqueued : t.queueResponse now data = some _ := if_neg hfin
        simp only [step, hqueued, some.injEq] at hstep
        rw [← hstep]
        refine .of_live (finComplete_append hf (by simp)) ⟨?_, fun hf => absurd hf hfin⟩
        rw [sentBytes_append, handedBytes_append, ← ha.balance]
        simp [sentBytes, handedBytes, TcpTunnel.unsent, PendingTcpResponse.remaining]
    | eof now =>
      cases hstep
      exact .of_live hf ⟨ha.balance, ha.finished⟩
    | error =>
      cases hstep
      exact .of_reset hf
    | writeFinished now =>
      cases hstep
      exact .of_live hf ⟨ha.balance, ha.finished⟩
    | clientActivity now =>
      cases hstep
      exact .of_live hf ⟨ha.balance, ha.finished⟩
    | flush now outcomes =>
      cases hstep
      exact flush_intact hf ha now outcomes
    | sweep now timeout outcome =>
      simp only [step, cleanupIdleTunnel, some.injEq] at hstep
      split_ifs at hstep with hidle
      · rw [← hstep]
        cases outcome with
        | accepts n =>
          have hsent := ha.sent_eq (hspares t rfl hidle)
          change Intact ⟨none, trace ++ [.fin]⟩
          refine .of_removed (finComplete_fin hf hsent) fun hne => absurd ?_ hne
          rw [sentBytes_append, handedBytes_append, hsent]
          rfl
        | blocked => exact .of_reset hf
        | failed => exact .of_reset hf
      · rw [← hstep]
        exact h

theorem sweep_truncates (h : Intact s) (hspares : ¬s.SweepSparesBacklog e)
    (hstep : s.step e = some s') : ¬FinComplete s'.trace := by
  obtain ⟨tunnel, trace⟩ := s
  cases e with
  | sweep now timeout outcome =>
    cases outcome with
    | accepts n =>
      simp only [SweepSparesBacklog, not_forall] at hspares
      obtain ⟨t, rfl, hidle, hunsent⟩ := hspares
      have hbalance := (h.accounted t rfl).balance
      simp only [step, cleanupIdleTunnel, hidle, if_true, some.injEq] at hstep
      rw [← hstep]
      intro hf
      have hsent := hf trace [] rfl
      rw [← hbalance] at hsent
      exact hunsent (append_right_eq_self.mp hsent.symm)
    | blocked => exact absurd trivial hspares
    | failed => exact absurd trivial hspares
  | data now data => exact absurd trivial hspares
  | eof now => exact absurd trivial hspares
  | error => exact absurd trivial hspares
  | writeFinished now => exact absurd trivial hspares
  | clientActivity now => exact absurd trivial hspares
  | flush now outcomes => exact absurd trivial hspares

lemma step_trace (hstep : s.step e = some s') : ∃ more, s'.trace = s.trace ++ more := by
  obtain ⟨tunnel, trace⟩ := s
  cases tunnel with
  | none =>
    cases hstep
    exact ⟨[], (append_nil _).symm⟩
  | some t =>
    cases e with
    | data now data =>
      simp only [step] at hstep
      split at hstep <;> cases hstep <;> exact ⟨_, rfl⟩
    | sweep now timeout outcome =>
      simp only [step, cleanupIdleTunnel, some.injEq] at hstep
      split_ifs at hstep <;> rw [← hstep]
      · exact ⟨_, rfl⟩
      · exact ⟨[], (append_nil _).symm⟩
    | error =>
      cases hstep
      exact ⟨_, rfl⟩
    | flush now outcomes =>
      cases hstep
      exact ⟨_, rfl⟩
    | _ =>
      cases hstep
      exact ⟨[], (append_nil _).symm⟩

/-- Over every run from an opened tunnel, the response is never truncated exactly when no
sweep closes the stream over unsent bytes. -/
theorem neverTruncated_iff (now : ℕ) (es : List TcpEvent) (s : TcpStream)
    (hrun : run step (opened now) es = some s) :
    NeverTruncated s ↔ Meets SweepSparesBacklog step (opened now) es := by
  have hopened : Intact (opened now) :=
    .of_live (fun _ _ he => by simp at he) ⟨rfl, fun h => (nomatch h)⟩
  refine ⟨fun h => ?_, fun h => ?_⟩
  · refine run_meets (fun _ _ _ hi ha hs => step_intact hi ha hs)
      (fun _ _ _ hi ha hs => sweep_truncates hi ha hs) ?_ hopened hrun
      (not_not.mpr h.fin_complete)
    intro s e s' hbad hs hf
    obtain ⟨more, hmore⟩ := step_trace hs
    rw [hmore] at hf
    exact hbad hf.of_append
  · exact (run_invariant (fun _ _ _ hi ha hs => step_intact hi ha hs) hopened h hrun).neverTruncated

/-- A response of three bytes leaves in two parts around a sweep that finds the tunnel active;
the target finishes, and the final frame follows. -/
def wholeResponse : List TcpEvent :=
  [.data 1 [1, 2, 3], .flush 2 [.accepts 1, .blocked], .sweep 3 30 (.accepts 0), .eof 3,
    .writeFinished 3, .flush 4 [.accepts 9, .accepts 0]]

theorem neverTruncated_whole :
    run step (opened 0) wholeResponse =
        some ⟨none, [.handed [1, 2, 3], .sent [1], .sent [2, 3], .fin]⟩ ∧
      NeverTruncated ⟨none, [.handed [1, 2, 3], .sent [1], .sent [2, 3], .fin]⟩ := by
  have hrun : run step (opened 0) wholeResponse =
      some ⟨none, [.handed [1, 2, 3], .sent [1], .sent [2, 3], .fin]⟩ := by decide
  exact ⟨hrun, (neverTruncated_iff 0 wholeResponse _ hrun).mpr (by decide)⟩

/-- The same response with the client out of credit after one byte: the idle sweep has the
empty final frame accepted, and the stream ends cleanly without the other two bytes. -/
theorem truncated_by_sweep :
    run step (opened 0)
        [.data 1 [1, 2, 3], .flush 2 [.accepts 1, .blocked], .sweep 100 30 (.accepts 0)] =
      some ⟨none, [.handed [1, 2, 3], .sent [1], .fin]⟩ ∧
    ¬FinComplete [.handed [1, 2, 3], .sent [1], .fin] ∧
    sentBytes [.handed [1, 2, 3], .sent [1], .fin] ≠
      handedBytes [.handed [1, 2, 3], .sent [1], .fin] ∧
    ¬NeverTruncated ⟨none, [.handed [1, 2, 3], .sent [1], .fin]⟩ := by
  have hcut : ¬FinComplete [.handed [1, 2, 3], .sent [1], .fin] := by
    intro h
    have hsent := h [.handed [1, 2, 3], .sent [1]] [] rfl
    exact absurd hsent (by decide)
  exact ⟨by decide, hcut, by decide, fun h => hcut h.fin_complete⟩

end TcpStream

end MasqueServer
