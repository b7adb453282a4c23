import MasqueServer.TcpResponse
import Mathlib.Data.List.Infix

/-!
# The download of a CONNECT-TCP tunnel

A reader task reads the target ahead of the shard. Before each read it reserves a whole chunk of the
response credit, a counting semaphore it shares with the shard; what the read did not fill goes back
at once, the rest when HTTP/3 has taken the bytes.
-/
namespace MasqueServer

open List Option

def tcpReadChunkSize : ℕ := 64 * 1024

def maxBufferedResponseBytes : ℕ := 256 * 1024

/-- What the tasks of one tunnel report to the shard about its response. -/
inductive TcpRelayEvent
  | data (data : Bytes)
  | eof
  | error
  | writeFinished
  deriving DecidableEq

namespace TcpRelayEvent

def payload : TcpRelayEvent → Bytes
  | .data bytes => bytes
  | .eof | .error | .writeFinished => []

def payloadLen (e : TcpRelayEvent) : ℕ := e.payload.length

def received (now : ℕ) : TcpRelayEvent → TcpEvent
  | .data bytes => .data now bytes
  | .eof => .eof now
  | .error => .error
  | .writeFinished => .writeFinished now

end TcpRelayEvent

def channelBytes (channel : List TcpRelayEvent) : Bytes :=
  (channel.map (·.payload)).flatten

/-- The answer of one `read_buf` call on the target socket. -/
inductive ReadOutcome
  | ok (data : Bytes)
  | failed
  deriving DecidableEq

def ReadOutcome.bytes : ReadOutcome → Bytes
  | .ok data => data
  | .failed => []

def ReadOutcome.report : ReadOutcome → TcpRelayEvent
  | .ok [] => .eof
  | .ok (byte :: data) => .data (byte :: data)
  | .failed => .error

lemma ReadOutcome.report_payload (outcome : ReadOutcome) :
    outcome.report.payload = outcome.bytes := by
  cases outcome with
  | failed => rfl
  | ok data => cases data <;> rfl

/-- Where the reader task stands: in `acquire_many`, which may be granted bit by bit, in the
read, before the unused part of the reservation goes back, before the report is sent, or at
its end. -/
inductive ReaderPhase
  | acquiring (held : ℕ)
  | reading
  | releasing (report : TcpRelayEvent)
  | sending (report : TcpRelayEvent)
  | ended
  deriving DecidableEq

namespace ReaderPhase

def reserved : ReaderPhase → ℕ
  | .acquiring held => held
  | .reading | .releasing _ => tcpReadChunkSize
  | .sending report => report.payloadLen
  | .ended => 0

def carried : ReaderPhase → Bytes
  | .releasing report | .sending report => report.payload
  | .acquiring _ | .reading | .ended => []

/-- Data is followed by the next read, anything else ends the task. -/
def afterSend : TcpRelayEvent → ReaderPhase
  | .data _ => .acquiring 0
  | .eof | .error | .writeFinished => .ended

end ReaderPhase

def TcpStream.mapCredit (s : TcpStream) (f : ℕ → ℕ) : TcpStream :=
  { s with tunnel := s.tunnel.map fun t => { t with responseCredit := f t.responseCredit } }

structure TcpDownload where
  reader : ReaderPhase
  channel : List TcpRelayEvent
  stream : TcpStream
  read : Bytes
  deriving DecidableEq

/-- One step of the reader, of the writer as far as it reports to the shard, or of the shard:
it takes the next report or serves the stream on its own. -/
inductive DownloadEvent
  | acquire (n : ℕ)
  | read (outcome : ReadOutcome)
  | release
  | send
  | writer (failed : Bool)
  | receive (now : ℕ)
  | shard (e : TcpEvent)

namespace TcpDownload

def opened (now : ℕ) : TcpDownload :=
  ⟨.acquiring 0, [], ⟨some ⟨now, [], false, false, false, maxBufferedResponseBytes⟩, []⟩, []⟩

/-- The reader of a tunnel that is gone may still finish what it is doing, on a semaphore that
nobody else looks at. -/
def step (s : TcpDownload) : DownloadEvent → Option TcpDownload
  | .acquire n =>
    match s.reader with
    | .acquiring held =>
      if held + n ≤ tcpReadChunkSize ∧ ∀ t ∈ s.stream.tunnel, n ≤ t.responseCredit then
        some { s with
          reader := if held + n = tcpReadChunkSize then .reading else .acquiring (held + n)
          stream := s.stream.mapCredit (· - n) }
      else none
    | _ => none
  | .read outcome =>
    match s.reader with
    | .reading =>
      if outcome.bytes.length ≤ tcpReadChunkSize then
        some { s with reader := .releasing outcome.report, read := s.read ++ outcome.bytes }
      else none
    | _ => none
  | .release =>
    match s.reader with
    | .releasing report =>
      some { s with
        reader := .sending report
        stream := s.stream.mapCredit (· + (tcpReadChunkSize - report.payloadLen)) }
    | _ => none
  | .send =>
    match s.reader with
    | .sending report =>
      some { s with reader := .afterSend report, channel := s.channel ++ [report] }
    | _ => none
  | .writer failed =>
    some { s with channel := s.channel ++ [if failed then .error else .writeFinished] }
  | .receive now =>
    match s.channel with
    | [] => none
    | report :: channel =>
      (s.stream.step (report.received now)).map fun stream => { s with channel, stream }
  | .shard e =>
    match e with
    | .data _ _ | .eof _ | .writeFinished _ => none
    | .error | .clientActivity _ | .flush _ _ | .sweep _ _ _ =>
      (s.stream.step e).map fun stream => { s with stream }

end TcpDownload

/-! ### What the shard does with credit and bytes -/

namespace TcpTunnel

def owed (t : TcpTunnel) : ℕ := t.responseCredit + t.unsent.length

lemma advanceResponse_owed {t : TcpTunnel} {r : PendingTcpResponse}
    {rest : List PendingTcpResponse} (ht : t.pendingResponses = r :: rest) (now : ℕ) {written : ℕ}
    (hle : written ≤ r.remaining.length) : (t.advanceResponse now written).owed = t.owed := by
  have hunsent := congrArg List.length (advanceResponse_unsent ht now written)
  have hcredit : (t.advanceResponse now written).responseCredit = t.responseCredit + written := by
    unfold advanceResponse
    rw [ht]
  rw [length_append, length_take, min_eq_left hle] at hunsent
  unfold owed
  omega

lemma unsent_queued (t : TcpTunnel) (now : ℕ) (data : Bytes) :
    unsent { t with pendingResponses := t.pendingResponses ++ [⟨data, 0⟩], lastActivity := now } =
      t.unsent ++ data := by
  simp [unsent, PendingTcpResponse.remaining]

end TcpTunnel

lemma drainResponses_owed (now : ℕ) (t : TcpTunnel) (outcomes : List SendOutcome) :
    (drainResponses now t outcomes).tunnel.owed = t.owed := by
  induction outcomes generalizing t with
  | nil => rfl
  | cons outcome rest ih =>
    unfold drainResponses
    cases hp : t.pendingResponses with
    | nil => rfl
    | cons r others =>
      cases outcome with
      | blocked => rfl
      | failed => rfl
      | accepts n =>
        dsimp only
        split_ifs with hz
        · rfl
        · exact (ih _).trans (TcpTunnel.advanceResponse_owed hp now (min_le_right _ _))

lemma finishResponse_moves (d : Drained) :
    sentBytes (finishResponse d).events = sentBytes d.events ∧
      (finishResponse d).tunnel.unsent = d.tunnel.unsent ∧
      (finishResponse d).tunnel.owed = d.tunnel.owed := by
  unfold finishResponse
  split_ifs
  · split
    · refine ⟨?_, rfl, rfl⟩
      rw [sentBytes_append]
      exact append_nil _
    · exact ⟨rfl, rfl, rfl⟩
    · exact ⟨rfl, rfl, rfl⟩
    · exact ⟨rfl, rfl, rfl⟩
  · exact ⟨rfl, rfl, rfl⟩

/-- What one step of the shard does to the response: it sends the front of the queue, and
while the tunnel lives the rest of the queue, the incoming bytes behind it and the credit stay
accounted for. -/
structure Serves (s s' : TcpStream) (incoming sent : Bytes) : Prop where
  trace_eq : sentBytes s'.trace = sentBytes s.trace ++ sent
  gone : s.tunnel = none → sent = [] ∧ s'.tunnel = none
  from_queue : ∀ t ∈ s.tunnel, sent <+: t.unsent
  queue_eq : ∀ t ∈ s.tunnel, ∀ t' ∈ s'.tunnel, sent ++ t'.unsent = t.unsent ++ incoming
  owed_eq : ∀ t ∈ s.tunnel, ∀ t' ∈ s'.tunnel, t'.owed = t.owed + incoming.length

namespace Serves

variable {t t' : TcpTunnel} {trace events : List StreamEvent} {incoming sent : Bytes}

lemma of_gone (trace : List StreamEvent) : Serves ⟨none, trace⟩ ⟨none, trace⟩ incoming [] :=
  ⟨(append_nil _).symm, fun _ => ⟨rfl, rfl⟩, fun _ h => (nomatch h), fun _ h => (nomatch h),
    fun _ h => (nomatch h)⟩

lemma of_removed (hsent : sentBytes events = sent) (hfrom : sent <+: t.unsent) :
    Serves ⟨some t, trace⟩ ⟨none, trace ++ events⟩ incoming sent := by
  refine ⟨?_, fun h => (nomatch h), ?_, fun _ _ _ h => (nomatch h), fun _ _ _ h => (nomatch h)⟩
  · rw [sentBytes_append, hsent]
  · intro u hu
    cases hu
    exact hfrom

lemma of_live (hsent : sentBytes events = sent) (hfrom : sent <+: t.unsent)
    (hqueue : sent ++ t'.unsent = t.unsent ++ incoming)
    (howed : t'.owed = t.owed + incoming.length) :
    Serves ⟨some t, trace⟩ ⟨some t', trace ++ events⟩ incoming sent := by
  refine ⟨?_, fun h => (nomatch h), ?_, ?_, ?_⟩
  · rw [sentBytes_append, hsent]
  · intro u hu
    cases hu
    exact hfrom
  · intro u hu u' hu'
    cases hu
    cases hu'
    exact hqueue
  · intro u hu u' hu'
    cases hu
    cases hu'
    exact howed

lemma of_same (hunsent : t'.unsent = t.unsent) (hcredit : t'.responseCredit = t.responseCredit) :
    Serves ⟨some t, trace⟩ ⟨some t', trace⟩ [] [] := by
  have h : Serves ⟨some t, trace⟩ ⟨some t', trace ++ []⟩ [] [] := by
    refine of_live rfl nil_prefix ?_ ?_
    · rw [hunsent, nil_append, append_nil]
    · rw [TcpTunnel.owed, TcpTunnel.owed, hunsent, hcredit]
      rfl
  rwa [append_nil] at h

lemma flush (now : ℕ) (t : TcpTunnel) (outcomes : List SendOutcome) :
    ∃ sent, Serves ⟨some t, trace⟩
      ⟨(flushTcpResponse now t outcomes).1, trace ++ (flushTcpResponse now t outcomes).2⟩
        [] sent := by
  have hmoved := (drainResponses_spec now t outcomes).moved
  have howed := drainResponses_owed now t outcomes
  unfold flushTcpResponse
  generalize drainResponses now t outcomes = d at hmoved howed ⊢
  obtain ⟨hsent, hunsent, hfinal⟩ := finishResponse_moves d
  rw [← hsent, ← hunsent] at hmoved
  rw [← hfinal] at howed
  generalize finishResponse d = d' at hmoved howed ⊢
  have hfrom : sentBytes d'.events <+: t.unsent := ⟨_, hmoved⟩
  refine ⟨sentBytes d'.events, ?_⟩
  dsimp only
  split_ifs with hfail hcomplete
  · refine of_removed ?_ hfrom
    rw [sentBytes_append]
    exact append_nil _
  · exact of_removed rfl hfrom
  · exact of_live rfl hfrom (by rw [hmoved, append_nil]) howed

end Serves

def TcpEvent.incoming : TcpEvent → Bytes
  | .data _ bytes => bytes
  | _ => []

theorem TcpStream.step_serves {s s' : TcpStream} {e : TcpEvent} (hstep : s.step e = some s') :
    ∃ sent, Serves s s' e.incoming sent := by
  obtain ⟨tunnel, trace⟩ := s
  cases tunnel with
  | none =>
    cases hstep
    exact ⟨[], .of_gone trace⟩
  | some t =>
    cases e with
    | data now data =>
      refine ⟨[], ?_⟩
      by_cases hfin : t.responseFinished = true
      · have hrefused : t.queueResponse now data = none := if_pos hfin
        simp only [step, hrefused, some.injEq] at hstep
        rw [← hstep]
        exact .of_removed rfl nil_prefix
      · have hqueued : t.queueResponse now data = some _ := if_neg hfin
        simp only [step, hqueued, some.injEq] at hstep
        rw [← hstep]
        refine .of_live rfl nil_prefix (t.unsent_queued now data) ?_
        rw [TcpTunnel.owed, TcpTunnel.owed, t.unsent_queued now data, length_append]
        exact (Nat.add_assoc _ _ _).symm
    | eof now =>
      cases hstep
      exact ⟨[], .of_same rfl rfl⟩
    | error =>
      cases hstep
      exact ⟨[], .of_removed rfl nil_prefix⟩
    | writeFinished now =>
      cases hstep
      exact ⟨[], .of_same rfl rfl⟩
    | clientActivity now =>
      cases hstep
      exact ⟨[], .of_same rfl rfl⟩
    | flush now outcomes =>
      cases hstep
      exact Serves.flush now t outcomes
    | sweep now timeout outcome =>
      refine ⟨[], ?_⟩
      simp only [step, cleanupIdleTunnel, some.injEq] at hstep
      split_ifs at hstep with hidle
      · rw [← hstep]
        refine .of_removed ?_ nil_prefix
        cases outcome <;> rfl
      · rw [← hstep]
        exact .of_same rfl rfl

/-! ### The joint invariant -/

lemma TcpRelayEvent.received_incoming (now : ℕ) (e : TcpRelayEvent) :
    (e.received now).incoming = e.payload := by
  cases e <;> rfl

lemma channelBytes_cons (e : TcpRelayEvent) (channel : List TcpRelayEvent) :
    channelBytes (e :: channel) = e.payload ++ channelBytes channel := rfl

lemma channelBytes_concat (channel : List TcpRelayEvent) (e : TcpRelayEvent) :
    channelBytes (channel ++ [e]) = channelBytes channel ++ e.payload := by
  simp [channelBytes]

namespace ReaderPhase

lemma afterSend_reserved (e : TcpRelayEvent) : (afterSend e).reserved = 0 := by
  cases e <;> rfl

lemma afterSend_carried (e : TcpRelayEvent) : (afterSend e).carried = [] := by
  cases e <;> rfl

def Fits : ReaderPhase → Prop
  | .releasing report | .sending report => report.payloadLen ≤ tcpReadChunkSize
  | .acquiring _ | .reading | .ended => True

lemma afterSend_fits (e : TcpRelayEvent) : (afterSend e).Fits := by
  cases e <;> trivial

end ReaderPhase

namespace TcpDownload

/-- Semaphore, reservation, channel and queue together hold the whole response credit. -/
def CreditConserved (s : TcpDownload) : Prop :=
  ∀ t ∈ s.stream.tunnel,
    t.responseCredit + s.reader.reserved + (channelBytes s.channel).length + t.unsent.length =
      maxBufferedResponseBytes

/-- What was sent, queued, is in the channel and is carried by the reader is what was read. -/
def BytesConserved (s : TcpDownload) : Prop :=
  ∀ t ∈ s.stream.tunnel,
    sentBytes s.stream.trace ++ t.unsent ++ channelBytes s.channel ++ s.reader.carried = s.read

structure Conserves (s : TcpDownload) : Prop where
  fits : s.reader.Fits
  credit : s.CreditConserved
  bytes : s.BytesConserved
  sent_prefix : sentBytes s.stream.trace <+: s.read

variable {s s' : TcpDownload}

lemma opened_conserves (now : ℕ) : (opened now).Conserves := by
  refine ⟨trivial, ?_, ?_, nil_prefix⟩
  · intro t ht
    cases ht
    rfl
  · intro t ht
    cases ht
    rfl

lemma Conserves.reader_moves (h : s.Conserves) {reader : ReaderPhase}
    {channel : List TcpRelayEvent} {f : ℕ → ℕ} {more : Bytes} (hfits : reader.Fits)
    (hcredit : ∀ t ∈ s.stream.tunnel,
      f t.responseCredit + reader.reserved + (channelBytes channel).length =
        t.responseCredit + s.reader.reserved + (channelBytes s.channel).length)
    (hbytes : channelBytes channel ++ reader.carried =
      channelBytes s.channel ++ s.reader.carried ++ more) :
    Conserves ⟨reader, channel, s.stream.mapCredit f, s.read ++ more⟩ := by
  have hlive : ∀ t' ∈ (s.stream.mapCredit f).tunnel, ∃ t ∈ s.stream.tunnel,
      t' = { t with responseCredit := f t.responseCredit } := by
    intro t' ht'
    obtain ⟨t, ht, rfl⟩ := map_eq_some_iff.mp ht'
    exact ⟨t, ht, rfl⟩
  refine ⟨hfits, ?_, ?_, h.sent_prefix.trans (prefix_append _ _)⟩
  · intro t' ht'
    obtain ⟨t, ht, rfl⟩ := hlive t' ht'
    have hbefore := h.credit t ht
    have hmoved := hcredit t ht
    change f t.responseCredit + reader.reserved + (channelBytes channel).length +
      t.unsent.length = _
    omega
  · intro t' ht'
    obtain ⟨t, ht, rfl⟩ := hlive t' ht'
    have hbefore := h.bytes t ht
    change sentBytes s.stream.trace ++ t.unsent ++ channelBytes channel ++ reader.carried =
      s.read ++ more
    rw [← hbefore, append_assoc, hbytes]
    simp only [append_assoc]

lemma mapCredit_id (s : TcpStream) : s.mapCredit id = s := by
  obtain ⟨tunnel, trace⟩ := s
  cases tunnel <;> rfl

lemma Conserves.shard_serves (h : s.Conserves) {stream : TcpStream} {channel : List TcpRelayEvent}
    {incoming sent : Bytes} (hserves : Serves s.stream stream incoming sent)
    (htaken : channelBytes s.channel = incoming ++ channelBytes channel) :
    Conserves { s with channel, stream } := by
  have hlive : ∀ t' ∈ stream.tunnel, ∃ t, t ∈ s.stream.tunnel := by
    intro t' ht'
    cases ht : s.stream.tunnel with
    | none =>
      rw [(hserves.gone ht).2] at ht'
      cases ht'
    | some t => exact ⟨t, rfl⟩
  refine ⟨h.fits, ?_, ?_, ?_⟩
  · intro t' ht'
    obtain ⟨t, ht⟩ := hlive t' ht'
    have hbefore := h.credit t ht
    have howed := hserves.owed_eq t ht t' ht'
    have hlength := congrArg List.length htaken
    rw [length_append] at hlength
    simp only [TcpTunnel.owed] at howed
    change t'.responseCredit + s.reader.reserved + (channelBytes channel).length +
      t'.unsent.length = _
    omega
  · intro t' ht'
    obtain ⟨t, ht⟩ := hlive t' ht'
    change sentBytes stream.trace ++ t'.unsent ++ channelBytes channel ++ s.reader.carried = s.read
    rw [← h.bytes t ht, hserves.trace_eq, append_assoc _ sent, hserves.queue_eq t ht t' ht',
      htaken]
    simp only [append_assoc]
  · change sentBytes stream.trace <+: s.read
    rw [hserves.trace_eq]
    cases ht : s.stream.tunnel with
    | none =>
      rw [(hserves.gone ht).1, append_nil]
      exact h.sent_prefix
    | some t =>
      rw [← h.bytes t ht, append_assoc, append_assoc, prefix_append_right_inj]
      exact (hserves.from_queue t ht).trans (prefix_append _ _)

lemma step_conserves (h : s.Conserves) {e : DownloadEvent} (hstep : s.step e = some s') :
    s'.Conserves := by
  cases e with
  | acquire n =>
    cases hr : s.reader with
    | acquiring held =>
      simp only [step, hr, ite_none_right_eq_some, some.injEq] at hstep
      obtain ⟨⟨hle, havailable⟩, rfl⟩ := hstep
      rw [← append_nil s.read]
      refine h.reader_moves ?_ ?_ ?_
      · split_ifs <;> trivial
      · intro t ht
        have hn := havailable t ht
        rw [hr]
        split_ifs with hwhole
        · simp only [ReaderPhase.reserved]
          omega
        · simp only [ReaderPhase.reserved]
          omega
      · rw [hr, append_nil]
        split_ifs <;> rfl
    | _ => simp only [step, hr, reduceCtorEq] at hstep
  | read outcome =>
    cases hr : s.reader with
    | reading =>
      simp only [step, hr, ite_none_right_eq_some, some.injEq] at hstep
      obtain ⟨hle, rfl⟩ := hstep
      rw [← mapCredit_id s.stream]
      refine h.reader_moves ?_ ?_ ?_
      · rwa [ReaderPhase.Fits, TcpRelayEvent.payloadLen, ReadOutcome.report_payload]
      · intro t ht
        rw [hr]
        rfl
      · rw [hr]
        simp [ReaderPhase.carried, ReadOutcome.report_payload]
    | _ => simp only [step, hr, reduceCtorEq] at hstep
  | release =>
    cases hr : s.reader with
    | releasing report =>
      simp only [step, hr, some.injEq] at hstep
      subst hstep
      have hle : report.payloadLen ≤ tcpReadChunkSize := by
        have hfits := h.fits
        rwa [hr] at hfits
      rw [← append_nil s.read]
      refine h.reader_moves hle ?_ ?_
      · intro t ht
        rw [hr]
        simp only [ReaderPhase.reserved]
        omega
      · rw [hr, append_nil]
        rfl
    | _ => simp only [step, hr, reduceCtorEq] at hstep
  | send =>
    cases hr : s.reader with
    | sending report =>
      simp only [step, hr, some.injEq] at hstep
      subst hstep
      rw [← append_nil s.read, ← mapCredit_id s.stream]
      refine h.reader_moves (ReaderPhase.afterSend_fits report) ?_ ?_
      · intro t ht
        rw [hr, channelBytes_concat, length_append, ReaderPhase.afterSend_reserved]
        simp only [ReaderPhase.reserved, TcpRelayEvent.payloadLen, id]
        omega
      · rw [hr, channelBytes_concat, ReaderPhase.afterSend_carried]
        simp [ReaderPhase.carried]
    | _ => simp only [step, hr, reduceCtorEq] at hstep
  | writer failed =>
    simp only [step, some.injEq] at hstep
    subst hstep
    have hempty : channelBytes (s.channel ++ [if failed then .error else .writeFinished]) =
        channelBytes s.channel := by
      rw [channelBytes_concat]
      cases failed <;> exact append_nil _
    rw [← append_nil s.read, ← mapCredit_id s.stream]
    refine h.reader_moves h.fits ?_ ?_
    · intro t ht
      rw [hempty]
      rfl
    · rw [hempty, append_nil]
  | receive now =>
    cases hc : s.channel with
    | nil => simp only [step, hc, reduceCtorEq] at hstep
    | cons report channel =>
      simp only [step, hc] at hstep
      obtain ⟨stream, hstream, rfl⟩ := map_eq_some_iff.mp hstep
      obtain ⟨sent, hserves⟩ := TcpStream.step_serves hstream
      rw [TcpRelayEvent.received_incoming] at hserves
      exact h.shard_serves hserves (by rw [hc, channelBytes_cons])
  | shard e =>
    have hown : e.incoming = [] ∧ ∃ stream, s.stream.step e = some stream ∧
        s' = { s with stream } := by
      cases e with
      | data now data => cases hstep
      | eof now => cases hstep
      | writeFinished now => cases hstep
      | _ =>
        obtain ⟨stream, hstream, rfl⟩ := map_eq_some_iff.mp hstep
        exact ⟨rfl, stream, hstream, rfl⟩
    obtain ⟨hincoming, stream, hstream, rfl⟩ := hown
    obtain ⟨sent, hserves⟩ := TcpStream.step_serves hstream
    rw [hincoming] at hserves
    exact h.shard_serves hserves rfl

/-- In every interleaving of reader and shard the response credit is conserved while the
tunnel lives, and what HTTP/3 accepted is a prefix of what was read from the target. -/
theorem tcpDownload_conserves (now : ℕ) (es : List DownloadEvent) (s : TcpDownload)
    (hrun : run step (opened now) es = some s) :
    (∀ t ∈ s.stream.tunnel,
      t.responseCredit + s.reader.reserved + (channelBytes s.channel).length + t.unsent.length =
        maxBufferedResponseBytes) ∧
      sentBytes s.stream.trace <+: s.read := by
  have h : s.Conserves := run_preserves (fun _ _ _ hi hs => step_conserves hi hs)
    (opened_conserves now) hrun
  exact ⟨h.credit, h.sent_prefix⟩

/-- Two reads, of three bytes and of two; HTTP/3 takes two bytes of the first while the reader
holds the second and has begun to reserve for the next. -/
def interleaved : List DownloadEvent :=
  [.acquire 65536, .read (.ok [1, 2, 3]), .release, .send, .acquire 65536, .receive 1,
    .read (.ok [4, 5]), .shard (.flush 2 [.accepts 2, .blocked]), .release, .send, .acquire 7]

theorem tcpDownload_conserves_interleaved :
    ∃ s, run step (opened 0) interleaved = some s ∧ s.stream.tunnel.isSome = true ∧
      s.read = [1, 2, 3, 4, 5] ∧ sentBytes s.stream.trace = [1, 2] ∧
      (∀ t ∈ s.stream.tunnel,
        t.responseCredit + s.reader.reserved + (channelBytes s.channel).length + t.unsent.length =
          maxBufferedResponseBytes) ∧
      sentBytes s.stream.trace <+: s.read := by
  refine ⟨(run step (opened 0) interleaved).get (by decide +kernel), (some_get _).symm,
    by decide +kernel, by decide +kernel, by decide +kernel, ?_⟩
  exact tcpDownload_conserves 0 interleaved _ (some_get _).symm

end TcpDownload

end MasqueServer
