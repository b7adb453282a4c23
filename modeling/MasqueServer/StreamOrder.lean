import MasqueServer.CapsuleViews

/-!
# The order of a stream

In the view of a stream the bytes that quiche has taken are whole capsules and the written part of
the front one, so an end of the response that is sent between capsules ends a sequence of whole
capsules. A request that ended inside of a capsule leaves only the ways that reset the stream.
-/
namespace MasqueServer

open List Option

/-- Quiche has taken whole capsules off the front of the queue, and the written part of the next
one, unless the stream has failed. -/
structure QuicStream.Output (quic : QuicStream) (stream : QueuedStream) : Prop where
  opened : quic.opened = true
  fin : quic.fin = false
  offset_le : stream.offset ≤ (stream.send.headD []).length
  written : quic.failed = false → ∃ written,
    quic.accepted = written.flatten ++ (stream.send.headD []).take stream.offset ∧
    written ++ stream.send <+: quic.queued ∧
    (stream.finishedAt = none → written ++ stream.send = quic.queued)
  ended : stream.finishedAt.isSome = true → quic.ended = true
  truncated : quic.truncated = true ↔
    stream.finishedAt.isSome = true ∧ stream.decoder.isPartial = true

def QuicStream.Whole (quic : QuicStream) : Prop := ∃ n, quic.accepted = (quic.queued.take n).flatten

namespace QuicStream

variable {quic quic' : QuicStream} {stream : QueuedStream}

lemma Output.whole (h : quic.Output stream) (hfailed : quic.failed = false)
    (hoffset : stream.offset = 0) : quic.Whole := by
  obtain ⟨written, haccepted, hqueued, -⟩ := h.written hfailed
  have hle := (prefix_append written stream.send).trans hqueued
  refine ⟨written.length, ?_⟩
  rw [haccepted, hoffset, take_zero, append_nil, ← prefix_iff_eq_take.mp hle]

lemma Output.discard (h : quic.Output stream) (hoffset : stream.offset = 0)
    (hfinished : stream.finishedAt.isSome = true) :
    quic.Output { stream with send := [], bytes := 0, offset := 0 } := by
  refine { h with offset_le := Nat.zero_le _, written := fun hfailed => ?_ }
  obtain ⟨written, haccepted, hqueued, -⟩ := h.written hfailed
  refine ⟨written, ?_, ?_, fun hnone => ?_⟩
  · rw [haccepted, hoffset, take_zero, take_zero]
  · rw [append_nil]
    exact (prefix_append written stream.send).trans hqueued
  · rw [show stream.finishedAt = none from hnone] at hfinished
    cases hfinished

lemma Output.concat (h : quic.Output stream) (hopen : stream.finishedAt = none)
    (data : Bytes) :
    QuicStream.Output { quic with queued := quic.queued ++ [data] }
      { stream with bytes := stream.bytes + data.length, send := stream.send ++ [data] } := by
  refine ⟨h.opened, h.fin, ?_, fun hfailed => ?_, h.ended, h.truncated⟩
  · have hle := h.offset_le
    show stream.offset ≤ ((stream.send ++ [data]).headD []).length
    cases hsend : stream.send with
    | nil =>
      rw [hsend] at hle
      exact (Nat.le_zero.mp hle).symm ▸ Nat.zero_le _
    | cons front rest =>
      rw [hsend] at hle
      exact hle
  · obtain ⟨written, haccepted, -, hqueued⟩ := h.written hfailed
    have hall : written ++ (stream.send ++ [data]) = quic.queued ++ [data] := by
      rw [← append_assoc, hqueued hopen]
    refine ⟨written, ?_, ⟨[], by rw [append_nil]; exact hall⟩, fun _ => hall⟩
    show quic.accepted = written.flatten ++ ((stream.send ++ [data]).headD []).take stream.offset
    have hle := h.offset_le
    cases hsend : stream.send with
    | nil =>
      rw [hsend] at hle haccepted
      have hzero : stream.offset = 0 := Nat.le_zero.mp hle
      rw [haccepted, hzero, take_zero, take_zero]
    | cons front rest =>
      rw [hsend] at haccepted
      exact haccepted

lemma sendBody_accepted {data : Bytes} {result : SendResult} {written : ℕ}
    (h : quic.sendBody data false result = (quic', .accepted written)) :
    result ≠ .failed ∧ quic' = { quic with accepted := quic.accepted ++ data.take written } := by
  cases result with
  | accepted n =>
    cases h
    refine ⟨by simp, ?_⟩
    rw [Bool.false_and, Bool.or_false, ← take_eq_take_min]
  | blocked => cases h
  | failed => cases h

end QuicStream

namespace CapsuleConnection.Flush

variable {f f' : Flush}

/-- A flush keeps to the capsules, and to what has been recorded of the stream. -/
structure Writes (f f' : Flush) : Prop where
  output : f'.quic.Output f'.stream
  truncated : f'.quic.truncated = f.quic.truncated
  decoder : f'.stream.decoder = f.stream.decoder
  finishedAt : f'.stream.finishedAt = f.stream.finishedAt

variable (h : f.quic.Output f.stream)
include h

lemma writes_refl : f.Writes f := ⟨h, rfl, rfl, rfl⟩

omit h in
lemma Writes.trans {f'' : Flush} (h : f.Writes f') (h' : f'.Writes f'') : f.Writes f'' :=
  ⟨h'.output, h'.truncated.trans h.truncated, h'.decoder.trans h.decoder,
    h'.finishedAt.trans h.finishedAt⟩

lemma popFront_writes {data : Bytes} {rest : List Bytes}
    (hsend : f.stream.send = data :: rest) {quic : QuicStream} (hfailed : f.quic.failed = false)
    {written : ℕ}
    (hquic : quic =
      { f.quic with accepted := f.quic.accepted ++ (data.drop f.stream.offset).take written })
    (hwhole : f.stream.offset + written = data.length)
    (hpop : Flush.popFront { f with quic } data rest = some f') : f.Writes f' := by
  simp only [popFront, bind_eq_bind, bind_eq_some_iff, Option.pure_def,
    some.injEq] at hpop
  obtain ⟨bytes, -, sendBytes, -, sendPackets, -, rfl⟩ := hpop
  subst hquic
  refine ⟨⟨h.opened, h.fin, Nat.zero_le _, fun _ => ?_, h.ended, h.truncated⟩, rfl, rfl, rfl⟩
  obtain ⟨before, haccepted, hqueued, hall⟩ := h.written hfailed
  rw [hsend] at haccepted hqueued hall
  have hmove : before ++ [data] ++ rest = before ++ data :: rest := by simp
  refine ⟨before ++ [data], ?_, hmove ▸ hqueued, fun hnone => hmove ▸ hall hnone⟩
  show f.quic.accepted ++ (data.drop f.stream.offset).take written =
    (before ++ [data]).flatten ++ (rest.headD []).take 0
  rw [haccepted, headD_cons, append_assoc, ← take_add, hwhole, take_length]
  simp

lemma advance_writes {data : Bytes} {rest : List Bytes}
    (hsend : f.stream.send = data :: rest) {quic : QuicStream} (hfailed : f.quic.failed = false)
    {written : ℕ}
    (hquic : quic =
      { f.quic with accepted := f.quic.accepted ++ (data.drop f.stream.offset).take written })
    (hle : f.stream.offset + written ≤ data.length) :
    f.Writes { f with quic, stream := { f.stream with offset := f.stream.offset + written } } := by
  subst hquic
  refine ⟨⟨h.opened, h.fin, ?_, fun _ => ?_, h.ended, h.truncated⟩, rfl, rfl, rfl⟩
  · show f.stream.offset + written ≤ (f.stream.send.headD []).length
    rw [hsend]
    exact hle
  · obtain ⟨before, haccepted, hqueued, hall⟩ := h.written hfailed
    refine ⟨before, ?_, hqueued, hall⟩
    show f.quic.accepted ++ (data.drop f.stream.offset).take written =
      before.flatten ++ (f.stream.send.headD []).take (f.stream.offset + written)
    rw [haccepted, hsend, headD_cons, append_assoc, ← take_add]

lemma loop_writes {results : List SendResult} {keep : Bool}
    (hfails : f.quic.failed = true → ∀ result ∈ results, result = .failed)
    (hloop : Flush.loop results f = some (f', keep)) : f.Writes f' := by
  induction results generalizing f with
  | nil =>
    cases hloop
    exact writes_refl h
  | cons result results ih =>
    rw [Flush.loop] at hloop
    split at hloop
    · cases hloop
      exact writes_refl h
    · rename_i data rest hsend
      split at hloop
      · rename_i quic hcall
        cases hloop
        cases result <;> cases hcall
        exact writes_refl h
      · rename_i quic hcall
        obtain ⟨f₁, habandon, hf₁⟩ := map_eq_some_iff.mp hloop
        cases hf₁
        simp only [abandon, bind_eq_bind, bind_eq_some_iff, Option.pure_def,
          some.injEq] at habandon
        obtain ⟨sendBytes, -, sendPackets, -, rfl⟩ := habandon
        cases result <;> cases hcall
        exact ⟨⟨h.opened, h.fin, Nat.zero_le _, fun hfailed => Bool.noConfusion hfailed, h.ended,
          h.truncated⟩, rfl, rfl, rfl⟩
      · rename_i quic written hcall
        obtain ⟨hresult, hquic⟩ := QuicStream.sendBody_accepted hcall
        have hle := QuicStream.sendBody_le hcall
        rw [length_drop] at hle
        have hoffset := h.offset_le
        rw [hsend, headD_cons] at hoffset
        have hfailed : f.quic.failed = false := by
          cases hfailed : f.quic.failed with
          | false => rfl
          | true => exact absurd (hfails hfailed result mem_cons_self) hresult
        have hfailed' : quic.failed = false := by rw [hquic, hfailed]
        split_ifs at hloop with hzero hwhole
        · cases hloop
          have hadvance := advance_writes h hsend hfailed hquic (by omega)
          rw [hzero] at hadvance
          exact hadvance
        · obtain ⟨f₁, hpop, hrest⟩ := bind_eq_some_iff.mp hloop
          have hwrites := popFront_writes h hsend hfailed hquic hwhole hpop
          refine hwrites.trans (ih hwrites.output (fun htrue => ?_) hrest)
          simp only [popFront, bind_eq_bind, bind_eq_some_iff, Option.pure_def,
            some.injEq] at hpop
          obtain ⟨bytes, -, sendBytes, -, sendPackets, -, rfl⟩ := hpop
          rw [show quic.failed = true from htrue] at hfailed'
          cases hfailed'
        · have hwrites := advance_writes h hsend hfailed hquic (by omega)
          refine hwrites.trans (ih hwrites.output (fun htrue => ?_) hloop)
          rw [show quic.failed = true from htrue] at hfailed'
          cases hfailed'

end CapsuleConnection.Flush

namespace StreamView

variable {v v' v'' : StreamView} {stream : QueuedStream} {quic : QuicStream} {result : SendResult}

structure Good (v : StreamView) : Prop where
  fin : v.quic.fin = true → v.quic.Whole
  truncated : v.quic.truncated = true → v.quic.fin = false ∧
    (v.stream.isSome = true ∨ v.quic.reset.isSome = true ∨ v.quic.clientReset = true)
  output : ∀ stream, v.stream = some stream → v.quic.Output stream
  kind : ∀ stream, v.stream = some stream →
    v.ip = stream.decoder.isIp ∧ v.udp = !stream.decoder.isIp
  listed_finished : ∀ stream, v.stream = some stream → v.listed → stream.finishedAt.isSome = true
  absent : v.stream = none → v.ip = false ∧ v.udp = false ∧ ¬v.listed
  unopened : v.quic.opened = false → v.stream = none ∧ v.quic.fin = false ∧
    v.quic.truncated = false ∧ v.quic.accepted = [] ∧ v.quic.queued = []

/-- A stream goes on in order, and a truncated request stays one. -/
structure Leads (v v' : StreamView) : Prop where
  good : v'.Good
  truncated : v.quic.truncated = true → v'.quic.truncated = true

lemma Leads.trans (h : v.Leads v') (h' : v'.Leads v'') : v.Leads v'' :=
  ⟨h'.good, fun htruncated => h'.truncated (h.truncated htruncated)⟩

namespace Good

lemma leads_refl (h : v.Good) : v.Leads v := ⟨h, fun htruncated => htruncated⟩

lemma ofReleased (hfin : v.quic.fin = true → v.quic.Whole)
    (htruncated : v.quic.truncated = true → v.quic.fin = false ∧
      (v.quic.reset.isSome = true ∨ v.quic.clientReset = true))
    (hopened : v.quic.opened = false → v.quic.fin = false ∧ v.quic.truncated = false ∧
      v.quic.accepted = [] ∧ v.quic.queued = []) : v.released.Good where
  fin := hfin
  truncated h := ⟨(htruncated h).1, .inr (htruncated h).2⟩
  output _ h := by cases h
  kind _ h := by cases h
  listed_finished _ h := by cases h
  absent _ := ⟨rfl, rfl, id⟩
  unopened h := ⟨rfl, hopened h⟩

lemma ofStream (hstream : v.stream = some stream) (hout : v.quic.Output stream)
    (hkind : v.ip = stream.decoder.isIp ∧ v.udp = !stream.decoder.isIp)
    (hlisted : v.listed → stream.finishedAt.isSome = true) : v.Good := by
  have hget : ∀ {found}, v.stream = some found → found = stream := fun {found} hfound => by
    rw [hstream, some.injEq] at hfound
    exact hfound.symm
  refine ⟨fun hfin => ?_, fun _ => ⟨hout.fin, .inl ?_⟩, fun found hfound => ?_,
    fun found hfound => ?_, fun found hfound => ?_, fun hnone => ?_, fun hopened => ?_⟩
  · rw [hout.fin] at hfin
    cases hfin
  · rw [hstream, isSome_some]
  · exact hget hfound ▸ hout
  · exact hget hfound ▸ hkind
  · exact hget hfound ▸ hlisted
  · rw [hstream] at hnone
    cases hnone
  · rw [hout.opened] at hopened
    cases hopened

variable (h : v.Good)
include h

lemma reset (quic : QuicStream)
    (hkept : quic.fin = v.quic.fin ∧ quic.accepted = v.quic.accepted ∧ quic.queued = v.quic.queued ∧
      quic.truncated = v.quic.truncated ∧ quic.opened = v.quic.opened)
    (hreset : quic.reset.isSome = true ∨ quic.clientReset = true) :
    v.Leads { v with quic }.released := by
  obtain ⟨hfin, haccepted, hqueued, htruncated, hopened⟩ := hkept
  refine ⟨ofReleased (fun hf => ?_) (fun ht => ⟨?_, hreset⟩) fun ho => ?_, fun ht => ?_⟩
  · obtain ⟨n, hn⟩ := h.fin (hfin ▸ hf)
    exact ⟨n, by rw [show quic.accepted = v.quic.accepted from haccepted,
      show quic.queued = v.quic.queued from hqueued, hn]⟩
  · rw [show quic.fin = v.quic.fin from hfin]
    exact (h.truncated (htruncated ▸ ht)).1
  · have hun := h.unopened (hopened ▸ ho)
    exact ⟨hfin.trans hun.2.1, htruncated.trans hun.2.2.1, haccepted.trans hun.2.2.2.1,
      hqueued.trans hun.2.2.2.2⟩
  · exact htruncated.trans ht

lemma shutdown (code : WireErrorCode) : v.Leads (v.shutdown code).released :=
  h.reset _ ⟨rfl, rfl, rfl, rfl, rfl⟩ (.inl rfl)

variable (hstream : v.stream = some stream)
include hstream

lemma fin_released (hoffset : stream.offset = 0) (hnot : v.quic.truncated = false)
    (hfails : v.quic.failed = true → result = .failed) :
    v.Leads { v with quic := (v.quic.sendBody [] true result).1 }.released := by
  have hout := h.output stream hstream
  have hopened : (v.quic.sendBody [] true result).1.opened = true := by
    cases result <;> exact hout.opened
  have htruncated : (v.quic.sendBody [] true result).1.truncated = false := by
    cases result <;> exact hnot
  refine ⟨ofReleased (fun hfin => ?_) (fun ht => ?_) fun ho => ?_, fun ht => ?_⟩
  · cases result with
    | accepted written =>
      have hfailed : v.quic.failed = false := by
        cases hfailed : v.quic.failed with
        | false => rfl
        | true => cases hfails hfailed
      obtain ⟨n, hn⟩ := hout.whole hfailed hoffset
      refine ⟨n, ?_⟩
      show v.quic.accepted ++ ([] : Bytes).take written = (v.quic.queued.take n).flatten
      rw [hn, take_nil, append_nil]
    | blocked => exact h.fin hfin
    | failed => exact h.fin hfin
  · rw [show (v.quic.sendBody [] true result).1.truncated = true from ht] at htruncated
    cases htruncated
  · rw [show (v.quic.sendBody [] true result).1.opened = false from ho] at hopened
    cases hopened
  · rw [ht] at hnot
    cases hnot

lemma endResponse (hoffset : stream.offset = 0) (hfinished : stream.finishedAt.isSome = true)
    (hnot : v.quic.truncated = false) (hfails : v.quic.failed = true → result = .failed) :
    v.Leads (v.endResponse result) := by
  have hout := h.output stream hstream
  unfold StreamView.endResponse
  split_ifs
  · have hfin := h.fin_released hstream hoffset hnot hfails
    cases result with
    | accepted written => exact hfin
    | failed => exact hfin
    | blocked =>
      exact ⟨ofStream (v := { v with listed := True }) hstream hout (h.kind stream hstream)
        fun _ => hfinished, fun ht => ht⟩
  · refine ⟨ofReleased (fun hfin => ?_) (fun ht => ?_) fun ho => ?_, fun ht => ht⟩
    · exact h.fin hfin
    · rw [hnot] at ht
      cases ht
    · rw [hout.opened] at ho
      cases ho

lemma discarded (hoffset : stream.offset = 0) (hfinished : stream.finishedAt.isSome = true) :
    v.discarded.Good := by
  have hget : v.discarded.stream = some { stream with send := [], bytes := 0, offset := 0 } := by
    rw [StreamView.discarded, hstream, map_some]
  exact ofStream hget ((h.output stream hstream).discard hoffset hfinished) (h.kind stream hstream)
    fun _ => hfinished

lemma close_false (hfinished : stream.finishedAt.isSome = true)
    (hfails : v.quic.failed = true → result = .failed) : v.Leads (v.close false result) := by
  unfold StreamView.close
  simp only [hstream, any_some, Bool.false_or]
  split_ifs with hreset _ hip
  · exact h.shutdown _
  · exact h.shutdown _
  all_goals
    rw [Bool.or_eq_true, not_or, Bool.not_eq_true, Bool.not_eq_true] at hreset
    have hoffset : stream.offset = 0 := by simpa [QueuedStream.hasPartialOutput] using hreset.2
    have hnot : v.quic.truncated = false := by
      cases ht : v.quic.truncated with
      | false => rfl
      | true =>
        rw [((h.output stream hstream).truncated.mp ht).2] at hreset
        cases hreset.1
  · exact h.endResponse hstream hoffset hfinished hnot hfails
  · have hgood := h.discarded hstream hoffset hfinished
    have hget : v.discarded.stream = some { stream with send := [], bytes := 0, offset := 0 } := by
      rw [StreamView.discarded, hstream, map_some]
    exact ⟨(hgood.endResponse hget rfl hfinished hnot hfails).good,
      (hgood.endResponse hget rfl hfinished hnot hfails).truncated⟩

omit hstream in
lemma close_true : v.Leads (v.close true result) := by
  unfold StreamView.close
  simp only [Bool.true_or, if_true]
  exact h.shutdown .messageError

lemma finishBody (hfinished : stream.finishedAt.isSome = true)
    (hfails : v.quic.failed = true → result = .failed) : v.Leads (v.finishBody result) := by
  unfold StreamView.finishBody
  split_ifs
  · exact ⟨ofStream (v := { v with listed := True }) hstream (h.output stream hstream)
      (h.kind stream hstream) fun _ => hfinished, fun ht => ht⟩
  · exact h.close_false hstream hfinished hfails

lemma idleClosed {sweep : IdleSweep} {id : ℕ} (hexpired : v.isExpired sweep id = true)
    (hfails : v.quic.failed = true → result = .failed) :
    v.Leads (v.idleClosed sweep result).released := by
  unfold StreamView.idleClosed
  dsimp only
  split_ifs with hclean
  · rw [Bool.and_eq_true, Bool.not_eq_true', Bool.or_eq_false_iff,
      decide_eq_false_iff_not] at hclean
    obtain ⟨⟨hdrain, hoffset⟩, -⟩ := hclean
    have hoffset : stream.offset = 0 := by
      simpa [hstream, QueuedStream.hasPartialOutput] using hoffset
    have hopen : stream.finishedAt = none := by
      cases hfinished : stream.finishedAt with
      | none => rfl
      | some finished =>
        simp only [StreamView.isExpired, StreamView.drainExpired, hstream, bind_some,
          QueuedStream.drainExpired, hfinished, map_some, getD_some] at hexpired hdrain
        rw [hexpired] at hdrain
        exact absurd rfl hdrain
    have hnot : v.quic.truncated = false := by
      cases ht : v.quic.truncated with
      | false => rfl
      | true =>
        have hsome := ((h.output stream hstream).truncated.mp ht).1
        rw [hopen] at hsome
        cases hsome
    have hfin := h.fin_released hstream hoffset hnot hfails
    cases result with
    | accepted written => exact hfin
    | blocked => exact h.shutdown .requestCancelled
    | failed =>
      exact h.reset { v.quic with failed := true, reset := some .requestCancelled }
        ⟨rfl, rfl, rfl, rfl, rfl⟩ (.inl rfl)
  · exact h.shutdown .requestCancelled

omit hstream in
omit h in
lemma ended (h : v.Good) : v.Leads { v with quic := { v.quic with ended := true } } := by
  refine ⟨⟨h.fin, h.truncated, fun stream hstream => ?_, h.kind, h.listed_finished, h.absent,
    h.unopened⟩, fun ht => ht⟩
  have hout := h.output stream hstream
  exact ⟨hout.opened, hout.fin, hout.offset_le, hout.written, fun _ => rfl, hout.truncated⟩

omit hstream in
lemma marked (hended : v.quic.ended = true) (now : ℕ) : v.Leads (v.marked now) := by
  unfold StreamView.marked
  cases hstream : v.stream with
  | none => exact h.leads_refl
  | some stream =>
    dsimp only
    split_ifs with hfinished
    · exact h.leads_refl
    · have hout := h.output stream hstream
      have hnot : ¬v.quic.truncated = true := fun ht => hfinished (hout.truncated.mp ht).1
      refine ⟨ofStream rfl
        ⟨hout.opened, hout.fin, hout.offset_le, fun hfailed => ?_, fun _ => hended,
          ⟨fun ht => ⟨rfl, ht⟩, And.right⟩⟩ (h.kind stream hstream) fun _ => rfl, fun ht =>
            absurd ht hnot⟩
      obtain ⟨written, haccepted, hqueued, -⟩ := hout.written hfailed
      exact ⟨written, haccepted, hqueued, fun hnone => by cases hnone⟩

lemma queued (hopen : stream.finishedAt = none) (data : Bytes) :
    v.Leads (v.queued stream data) :=
  ⟨ofStream rfl ((h.output stream hstream).concat hopen data) (h.kind stream hstream)
    (h.listed_finished stream hstream), fun ht => ht⟩

omit hstream in
lemma opened (hnew : v.quic.opened = false) (decoder : CapsuleStream) :
    v.Leads (v.opened { decoder with }) := by
  obtain ⟨hnone, hfin, htruncated, haccepted, hqueued⟩ := h.unopened hnew
  obtain ⟨hip, hudp, hlisted⟩ := h.absent hnone
  have hnot : ¬v.quic.truncated = true := by simp [htruncated]
  refine ⟨ofStream rfl ⟨rfl, hfin, Nat.zero_le _, fun _ => ?_, fun hsome => ?_,
    ⟨fun ht => absurd ht hnot, fun hfinished => ?_⟩⟩ ⟨?_, ?_⟩ fun hl => absurd hl hlisted,
    fun ht => ht⟩
  · refine ⟨[], ?_, nil_prefix, fun _ => hqueued.symm⟩
    show v.quic.accepted = [].flatten ++ [].take 0
    rw [haccepted]
    rfl
  · cases hsome
  · cases hfinished.1
  · show (decoder.decoder.isIp || v.ip) = decoder.decoder.isIp
    rw [hip, Bool.or_false]
  · show (!decoder.decoder.isIp || v.udp) = !decoder.decoder.isIp
    rw [hudp, Bool.or_false]

lemma decoded (hopen : stream.finishedAt = none) {decoder : StreamDecoder}
    (hkind : decoder.isIp = stream.decoder.isIp) :
    v.Leads { v with stream := some { stream with decoder } } := by
  have hout := h.output stream hstream
  have hnot : ¬v.quic.truncated = true := fun ht => by
    have hsome := (hout.truncated.mp ht).1
    rw [hopen] at hsome
    cases hsome
  refine ⟨ofStream rfl ⟨hout.opened, hout.fin, hout.offset_le, hout.written, hout.ended,
    ⟨fun ht => absurd ht hnot, fun hfinished => ?_⟩⟩ ?_ (h.listed_finished stream hstream),
    fun ht => ht⟩
  · rw [show stream.finishedAt = none from hopen] at hfinished
    cases hfinished.1
  rw [hkind]
  exact h.kind stream hstream

lemma flushed {f : CapsuleConnection.Flush} {bytes packets : ℕ}
    (hwrites : CapsuleConnection.Flush.Writes ⟨stream, bytes, packets, v.quic⟩ f) :
    v.Leads { v with stream := some f.stream, quic := f.quic } := by
  refine ⟨ofStream rfl hwrites.output ?_ fun hlisted => ?_, fun ht => hwrites.truncated.trans ht⟩
  · rw [hwrites.decoder]
    exact h.kind stream hstream
  · rw [hwrites.finishedAt]
    exact h.listed_finished stream hstream hlisted

omit hstream

lemma tornDown_eq (hip : v.ip = true) : v.tornDown = v.released := by
  have hudp : v.udp = false := by
    cases hstream : v.stream with
    | none =>
      rw [(h.absent hstream).1] at hip
      cases hip
    | some stream =>
      obtain ⟨hkind, hudp⟩ := h.kind stream hstream
      rw [hudp, ← hkind, hip, Bool.not_true]
  rw [tornDown, if_pos hip, removed, released, hudp]

lemma ip_eq_false (hudp : v.udp = true) : v.ip = false := by
  cases hip : v.ip with
  | false => rfl
  | true =>
    have hreleased := congrArg StreamView.udp (h.tornDown_eq hip)
    rw [tornDown, if_pos hip] at hreleased
    rw [show v.udp = false from hreleased] at hudp
    cases hudp

end Good

lemma idleClosed_eq (v : StreamView) (sweep : IdleSweep) (result : SendResult) :
    ∃ quic, v.idleClosed sweep result = { v with quic } := by
  unfold idleClosed
  dsimp only
  split_ifs
  · cases result <;> exact ⟨_, rfl⟩
  · exact ⟨_, rfl⟩

lemma Good.swept (h : v.Good) {sweep : IdleSweep} {id : ℕ} {v₁ v₂ v₃ : StreamView}
    (hudp : (v.udp = true → v₁ = v.udpSwept sweep id) ∧ (¬v.udp = true → v₁ = v))
    (hip : (v₁.ip = true ∧ v₁.isExpired sweep id = true →
        v₂ = v₁.idleClosed sweep (sweep.results id)) ∧
      (¬(v₁.ip = true ∧ v₁.isExpired sweep id = true) → v₂ = v₁))
    (hremoved : (v₂.stream.isSome = true ∧ v₂.udp = false ∧ v₂.ip = false → v₃ = v₂.removed) ∧
      (¬(v₂.stream.isSome = true ∧ v₂.udp = false ∧ v₂.ip = false) → v₃ = v₂))
    (hend : (v₁.ip = true ∧ v₁.isExpired sweep id = true → v' = v₃.tornDown) ∧
      (¬(v₁.ip = true ∧ v₁.isExpired sweep id = true) → v' = v₃)) :
    v' = if v.stream.isSome = true ∧ v.isExpired sweep id = true then
      (v.idleClosed sweep (sweep.results id)).released else v := by
  obtain ⟨quic, hquic⟩ := idleClosed_eq v sweep (sweep.results id)
  cases hstream : v.stream with
  | none =>
    obtain ⟨hnip, hnudp, -⟩ := h.absent hstream
    obtain rfl := hudp.2 (by simp [hnudp])
    obtain rfl := hip.2 (by simp [hnip])
    obtain rfl := hremoved.2 (by simp [hstream])
    rw [hend.2 (by simp [hnip]), if_neg (by simp)]
  | some stream =>
    obtain ⟨hkip, hkudp⟩ := h.kind stream hstream
    cases hk : stream.decoder.isIp with
    | true =>
      rw [hk] at hkip hkudp
      obtain rfl := (hudp.2 (by simp [hkudp])).symm
      by_cases hexpired : v.isExpired sweep id = true
      · have h₂ := hip.1 ⟨hkip, hexpired⟩
        rw [hquic] at h₂
        obtain rfl := hremoved.2 (by simp [h₂, hkip])
        rw [hend.1 ⟨hkip, hexpired⟩, if_pos ⟨rfl, hexpired⟩, hquic, h₂]
        simp [tornDown, removed, released, hkip, hkudp]
      · obtain rfl := hip.2 fun hboth => hexpired hboth.2
        obtain rfl := hremoved.2 (by simp [hkip])
        rw [hend.2 fun hboth => hexpired hboth.2, if_neg fun hboth => hexpired hboth.2]
    | false =>
      rw [hk] at hkip hkudp
      have h₁ := hudp.1 hkudp
      rw [udpSwept] at h₁
      by_cases hexpired : v.isExpired sweep id = true
      · rw [if_pos hexpired, hquic] at h₁
        have hnip : ¬(v₁.ip = true ∧ v₁.isExpired sweep id = true) := by simp [h₁, hkip]
        obtain rfl := hip.2 hnip
        have h₃ := hremoved.1 (by simp [h₁, hkip, hstream])
        rw [hend.2 hnip, h₃, if_pos ⟨rfl, hexpired⟩, hquic, h₁]
        simp [removed, released, hkip]
      · rw [if_neg hexpired] at h₁
        subst h₁
        obtain rfl := hip.2 fun hboth => hexpired hboth.2
        obtain rfl := hremoved.2 (by simp [hkudp])
        rw [hend.2 fun hboth => hexpired hboth.2, if_neg fun hboth => hexpired hboth.2]

lemma tornDown_removed (v : StreamView) :
    ({ v with udp := false }.removed).tornDown = v.released := by
  cases v.ip <;> simp [tornDown, removed, released]

end StreamView

end MasqueServer
