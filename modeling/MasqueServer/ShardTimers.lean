import MasqueServer.TimerQueue

/-!
# The timers of a shard

A round of the shard's loop handles an event, expires the timers that are due, relays what the
serviced connections hold, drives each of them and reaps those that have closed. The deadline of a
connection is kept twice: in the connection, and in the queue under the connection's index.
-/
namespace MasqueServer

open List Option Table

/-- The connections with work pending in the current round. -/
structure DirtySet where
  pending : List ℕ := []
  seen : List ℕ := []

namespace DirtySet

def mark (d : DirtySet) (index : ℕ) : DirtySet :=
  if index ∈ d.seen then d else ⟨d.pending ++ [index], index :: d.seen⟩

def takeInto (d : DirtySet) (out : List ℕ) : DirtySet × List ℕ :=
  ({ d with pending := [] }, out ++ d.pending)

lemma pending_subset_mark (d : DirtySet) (index : ℕ) : d.pending ⊆ (d.mark index).pending := by
  unfold mark
  split_ifs
  · exact List.Subset.refl _
  · exact subset_append_left _ _

def Covered (d : DirtySet) (taken : List ℕ) : Prop :=
  ∀ index ∈ d.seen, index ∈ d.pending ∨ index ∈ taken

lemma Covered.mark {d : DirtySet} {taken : List ℕ} (h : d.Covered taken) (index : ℕ) :
    (d.mark index).Covered taken ∧ (index ∈ (d.mark index).pending ∨ index ∈ taken) := by
  unfold DirtySet.mark
  by_cases hseen : index ∈ d.seen
  · rw [if_pos hseen]
    exact ⟨h, h index hseen⟩
  · rw [if_neg hseen]
    refine ⟨fun i hi => ?_, .inl mem_concat_self⟩
    obtain rfl | hi := mem_cons.mp hi
    · exact .inl mem_concat_self
    · exact (h i hi).imp_left (mem_append_left [index])

lemma Covered.takeInto {d : DirtySet} {taken : List ℕ} (h : d.Covered taken) :
    (d.takeInto taken).1.Covered (d.takeInto taken).2 := fun i hi =>
  .inr (mem_append.mpr (h i hi).symm)

end DirtySet

/-- What a connection's next deadline is computed from. -/
structure Attention where
  tcpReadResumes : Bool
  capsuleReadResumes : Bool
  localError : Bool
  isDraining : Bool
  isClosed : Bool
  timeoutInstant : Option ℕ
  deferredSend : Option ℕ
  firstAuthDeadline : Option ℕ

namespace Attention

def nextDeadline (a : Attention) (now : ℕ) : Option ℕ :=
  if (a.tcpReadResumes || a.capsuleReadResumes) && !a.localError && !a.isDraining &&
    !a.isClosed then
    some now
  else
    (a.timeoutInstant.toList ++ a.deferredSend.toList ++ a.firstAuthDeadline.toList).min?

def authExpired (a : Attention) (now : ℕ) : Bool :=
  match a.firstAuthDeadline with
  | some deadline => decide (deadline ≤ now)
  | none => false

/-- Drive a connection: an expired wait for authentication closes it, and the rest is as the
transport leaves it. -/
def drive (a : Attention) (now : ℕ) (after : Attention) : Attention :=
  if a.authExpired now then { after with localError := true, firstAuthDeadline := none }
  else { after with firstAuthDeadline := a.firstAuthDeadline }

end Attention

/-- A connection with its deadline. The field `computed` is not part of the code: it records the
next deadline that the last drive computed, until the timer for it fires. -/
structure TimedConnection where
  index : ℕ
  attention : Attention
  scheduledDeadline : Option ℕ := none
  computed : Option (Option ℕ) := none

/-- Where a round is. -/
inductive RoundPhase where
  | handling
  | relaying
  | driving (remaining : List ℕ)
  | reaping (remaining : List ℕ)

/-- A shard with the indices of its former connections. -/
structure TimedShard (Key : Type) where
  connections : Table Key TimedConnection := ∅
  connByIndex : Table ℕ Key := ∅
  timers : TimerQueue := {}
  dirty : DirtySet := {}
  serviced : List ℕ := []
  phase : RoundPhase := .handling
  reaped : List ℕ := []

inductive RoundEvent (Key : Type) where
  /-- A packet opens a connection. -/
  | accept (key : Key) (index : ℕ) (attention : Attention)
  /-- A handler or a relay changes what a connection waits for, and may mark it. -/
  | handle (key : Key) (attention : Attention) (marks : Bool)
  | expire (now : ℕ)
  /-- The idle sweep is over. -/
  | sweep
  | beginDrive
  /-- Drive the next serviced connection; the clock is read at its start and at its end. -/
  | drive (now later : ℕ) (after : Attention)
  | beginReap
  | reap
  | endRound

namespace TimedShard

variable {Key : Type} [DecidableEq Key]

variable (s : TimedShard Key)

def lookup (index : ℕ) : Option (Key × TimedConnection) := do
  let key ← s.connByIndex.get index
  let client ← s.connections.get key
  return (key, client)

def fire (wakeup : ℕ × ℕ) : TimedShard Key :=
  match s.lookup wakeup.1 with
  | none => s
  | some (key, client) =>
    if client.scheduledDeadline = some wakeup.2 then
      { s with
        connections := s.connections.put key
          { client with scheduledDeadline := none, computed := none }
        dirty := s.dirty.mark wakeup.1 }
    else s

def expireConnectionTimers (now : ℕ) : Option (TimedShard Key) :=
  (s.timers.expire now).map fun (timers, fired) => fired.foldl fire { s with timers }

def reschedule (timers : TimerQueue) (client : TimedConnection) (later : ℕ) :
    Option (TimerQueue × TimedConnection) :=
  let deadline := client.attention.nextDeadline later
  if client.scheduledDeadline = deadline then
    some (timers, { client with computed := some deadline })
  else do
    let timers ← match deadline with
      | some deadline => timers.schedule client.index deadline
      | none => timers.cancel client.index
    return (timers, { client with scheduledDeadline := deadline, computed := some deadline })

def driveConnection (index now later : ℕ) (after : Attention) : Option (TimedShard Key) :=
  match s.lookup index with
  | none => some s
  | some (key, client) => do
    let driven := { client with attention := client.attention.drive now after }
    let (timers, client) ← reschedule s.timers driven later
    return { s with timers, connections := s.connections.put key client }

def reapConnection (index : ℕ) : Option (TimedShard Key) :=
  match s.lookup index with
  | none => some s
  | some (key, client) =>
    if client.attention.isClosed then do
      let timers ← s.timers.cancel client.index
      return { s with
        timers
        connections := s.connections.remove key
        connByIndex := s.connByIndex.remove client.index
        reaped := client.index :: s.reaped }
    else some s

def acceptConnection (key : Key) (index : ℕ) (attention : Attention) : TimedShard Key :=
  { s with
    connByIndex := s.connByIndex.put index key
    connections := s.connections.put key { index, attention }
    dirty := s.dirty.mark index }

def handleConnection (key : Key) (attention : Attention) (marks : Bool) : TimedShard Key :=
  match s.connections.get key with
  | none => s
  | some client =>
    { s with
      connections := s.connections.put key { client with attention }
      dirty := if marks then s.dirty.mark client.index else s.dirty }

def takeDirty : TimedShard Key :=
  { s with dirty := (s.dirty.takeInto s.serviced).1, serviced := (s.dirty.takeInto s.serviced).2 }

/-- One step of a round. There is no next state when the event does not belong to the phase the
round is in, or when the queue panics. -/
def step (event : RoundEvent Key) : Option (TimedShard Key) :=
  match s.phase, event with
  | .handling, .accept key index attention => some (s.acceptConnection key index attention)
  | .handling, .handle key attention marks => some (s.handleConnection key attention marks)
  | .relaying, .handle key attention marks => some (s.handleConnection key attention marks)
  | .handling, .expire now =>
    (s.expireConnectionTimers now).map fun s => { s.takeDirty with phase := .relaying }
  | .relaying, .sweep => some s.takeDirty
  | .relaying, .beginDrive => some { s with phase := .driving s.serviced }
  | .driving (index :: rest), .drive now later after =>
    (s.driveConnection index now later after).map fun s => { s with phase := .driving rest }
  | .driving [], .beginReap => some { s with phase := .reaping s.serviced }
  | .reaping (index :: rest), .reap =>
    (s.reapConnection index).map fun s => { s with phase := .reaping rest }
  | .reaping [], .endRound => some { s with dirty := {}, serviced := [], phase := .handling }
  | _, _ => none

/-- A connection is accepted under a key that is not in use and an index that never was. -/
def Fresh : RoundEvent Key → Prop
  | .accept key index _ =>
    s.connections.get key = none ∧ s.connByIndex.get index = none ∧ index ∉ s.reaped
  | _ => True

instance decidableFresh (s : TimedShard Key) (event : RoundEvent Key) :
    Decidable (s.Fresh event) := by
  cases event <;> unfold Fresh <;> infer_instance

/-! ### The two records of a deadline -/

/-- The tables agree, and each connection has recorded the deadline that a map gives its index. -/
structure Books (s : TimedShard Key) (deadlines : Table ℕ ℕ) : Prop where
  listed : ∀ key client, s.connections.get key = some client →
    s.connByIndex.get client.index = some key
  live : ∀ index key, s.connByIndex.get index = some key →
    ∃ client, s.connections.get key = some client ∧ client.index = index
  scheduled : ∀ key client, s.connections.get key = some client →
    client.scheduledDeadline = deadlines.get client.index
  absent : ∀ index, s.connByIndex.get index = none → deadlines.get index = none
  gone : ∀ index ∈ s.reaped, s.connByIndex.get index = none

variable {s s' : TimedShard Key} {deadlines deadlines' : Table ℕ ℕ} {key : Key} {index : ℕ}
  {client client' : TimedConnection}

lemma lookup_eq_some : s.lookup index = some (key, client) ↔
    s.connByIndex.get index = some key ∧ s.connections.get key = some client := by
  simp only [lookup, bind_eq_bind, bind_eq_some_iff, Option.pure_def,
    some.injEq, Prod.mk.injEq]
  constructor
  · rintro ⟨k, hk, c, hc, rfl, rfl⟩
    exact ⟨hk, hc⟩
  · rintro ⟨hk, hc⟩
    exact ⟨key, hk, client, hc, rfl, rfl⟩

namespace Books

variable (h : s.Books deadlines)
include h

lemma lookup_index (hlookup : s.lookup index = some (key, client)) : client.index = index := by
  obtain ⟨hkey, hclient⟩ := lookup_eq_some.mp hlookup
  obtain ⟨found, hfound, hindex⟩ := h.live index key hkey
  rw [hclient, some.injEq] at hfound
  exact hfound ▸ hindex

lemma get_of_lookup (hlookup : s.lookup index = none) : s.connByIndex.get index = none := by
  rw [eq_none_iff_forall_ne_some]
  intro key hkey
  obtain ⟨client, hclient, -⟩ := h.live index key hkey
  rw [lookup_eq_some.mpr ⟨hkey, hclient⟩] at hlookup
  cases hlookup

lemma key_eq {key' : Key} (hclient : s.connections.get key = some client)
    (hclient' : s.connections.get key' = some client') (hindex : client.index = client'.index) :
    key = key' := by
  have hkey := h.listed key client hclient
  rw [hindex, h.listed key' client' hclient', some.injEq] at hkey
  exact hkey.symm

lemma congr (hsame : ∀ index, deadlines'.get index = deadlines.get index) : s.Books deadlines' :=
  { h with
    scheduled := fun key client hclient => by rw [hsame, h.scheduled key client hclient]
    absent := fun index hindex => by rw [hsame, h.absent index hindex] }

lemma of_tables (hconnections : s'.connections = s.connections)
    (hconnByIndex : s'.connByIndex = s.connByIndex) (hreaped : s'.reaped = s.reaped) :
    s'.Books deadlines := by
  obtain ⟨hlisted, hlive, hscheduled, habsent, hgone⟩ := h
  rw [← hconnections] at hlisted hlive hscheduled
  rw [← hconnByIndex] at hlisted hlive habsent hgone
  rw [← hreaped] at hgone
  exact ⟨hlisted, hlive, hscheduled, habsent, hgone⟩

lemma update (hclient : s.connections.get key = some client) (client' : TimedConnection)
    (hindex : client'.index = client.index)
    (hdeadline : client'.scheduledDeadline = deadlines'.get client.index)
    (hsame : ∀ i ≠ client.index, deadlines'.get i = deadlines.get i)
    (hconnections : s'.connections = s.connections.put key client')
    (hconnByIndex : s'.connByIndex = s.connByIndex) (hreaped : s'.reaped = s.reaped) :
    s'.Books deadlines' := by
  have hget : ∀ k, s'.connections.get k = if k = key then some client' else s.connections.get k :=
    fun k => by rw [hconnections, get_put]
  have hlisted := h.listed key client hclient
  refine ⟨fun k c hc => ?_, fun i k hk => ?_, fun k c hc => ?_, fun i hi => ?_, fun i hi => ?_⟩
  · rw [hget] at hc
    rw [hconnByIndex]
    by_cases hk : k = key
    · rw [if_pos hk, some.injEq] at hc
      rw [← hc, hindex, hlisted, hk]
    · rw [if_neg hk] at hc
      exact h.listed k c hc
  · rw [hconnByIndex] at hk
    obtain ⟨c, hc, hci⟩ := h.live i k hk
    rw [hget]
    by_cases heq : k = key
    · rw [heq, hclient, some.injEq] at hc
      exact ⟨client', by rw [if_pos heq], by rw [hindex, hc, hci]⟩
    · exact ⟨c, by rw [if_neg heq, hc], hci⟩
  · rw [hget] at hc
    by_cases hk : k = key
    · rw [if_pos hk, some.injEq] at hc
      rw [← hc, hindex, hdeadline]
    · rw [if_neg hk] at hc
      have hne : c.index ≠ client.index := fun heq => hk (h.key_eq hc hclient heq)
      rw [hsame _ hne, h.scheduled k c hc]
  · rw [hconnByIndex] at hi
    have hne : i ≠ client.index := by
      rintro rfl
      rw [hlisted] at hi
      cases hi
    rw [hsame i hne, h.absent i hi]
  · rw [hconnByIndex]
    exact h.gone i (hreaped ▸ hi)

lemma accept (hkey : s.connections.get key = none) (hindex : s.connByIndex.get index = none)
    (hreaped : index ∉ s.reaped) (attention : Attention) :
    (s.acceptConnection key index attention).Books deadlines := by
  refine ⟨fun k c hc => ?_, fun i k hk => ?_, fun k c hc => ?_, fun i hi => ?_, fun i hi => ?_⟩
  · simp only [acceptConnection, get_put] at hc ⊢
    by_cases hk : k = key
    · rw [if_pos hk, some.injEq] at hc
      rw [if_pos (by rw [← hc]), hk]
    · rw [if_neg hk] at hc
      have hlisted := h.listed k c hc
      have hne : c.index ≠ index := by
        rintro rfl
        rw [hlisted] at hindex
        cases hindex
      rw [if_neg hne, hlisted]
  · simp only [acceptConnection, get_put] at hk ⊢
    by_cases hi : i = index
    · rw [if_pos hi, some.injEq] at hk
      exact ⟨{ index, attention }, by rw [if_pos hk.symm], hi.symm⟩
    · rw [if_neg hi] at hk
      obtain ⟨c, hc, hci⟩ := h.live i k hk
      have hne : k ≠ key := by
        rintro rfl
        rw [hc] at hkey
        cases hkey
      exact ⟨c, by rw [if_neg hne, hc], hci⟩
  · simp only [acceptConnection, get_put] at hc
    by_cases hk : k = key
    · rw [if_pos hk, some.injEq] at hc
      rw [← hc]
      exact (h.absent index hindex).symm
    · rw [if_neg hk] at hc
      exact h.scheduled k c hc
  · simp only [acceptConnection, get_put] at hi
    by_cases hii : i = index
    · rw [if_pos hii] at hi
      cases hi
    · rw [if_neg hii] at hi
      exact h.absent i hi
  · have hne : i ≠ index := fun heq => hreaped (heq ▸ hi)
    simp only [acceptConnection, get_put, if_neg hne]
    exact h.gone i hi

lemma reap (hclient : s.connections.get key = some client)
    (hconnections : s'.connections = s.connections.remove key)
    (hconnByIndex : s'.connByIndex = s.connByIndex.remove client.index)
    (hreaped : s'.reaped = client.index :: s.reaped) :
    s'.Books (deadlines.remove client.index) := by
  have hget : ∀ {k c}, s'.connections.get k = some c →
      s.connections.get k = some c ∧ c.index ≠ client.index := by
    intro k c hc
    rw [hconnections, Table.get_remove, ite_eq_iff] at hc
    obtain ⟨-, hc⟩ | ⟨hk, hc⟩ := hc
    · cases hc
    · exact ⟨hc, fun heq => hk (h.key_eq hc hclient heq)⟩
  refine ⟨fun k c hc => ?_, fun i k hk => ?_, fun k c hc => ?_, fun i hi => ?_, fun i hi => ?_⟩
  · obtain ⟨hc, hne⟩ := hget hc
    rw [hconnByIndex, Table.get_remove, if_neg hne, h.listed k c hc]
  · rw [hconnByIndex, Table.get_remove, ite_eq_iff] at hk
    obtain ⟨-, hk⟩ | ⟨hi, hk⟩ := hk
    · cases hk
    · obtain ⟨c, hc, hci⟩ := h.live i k hk
      have hne : k ≠ key := by
        rintro rfl
        rw [hclient, some.injEq] at hc
        exact hi (hc ▸ hci.symm)
      exact ⟨c, by rw [hconnections, Table.get_remove, if_neg hne, hc], hci⟩
  · obtain ⟨hc, hne⟩ := hget hc
    rw [Table.get_remove, if_neg hne, h.scheduled k c hc]
  · rw [hconnByIndex, Table.get_remove] at hi
    rw [Table.get_remove]
    by_cases hii : i = client.index
    · rw [if_pos hii]
    · rw [if_neg hii] at hi ⊢
      exact h.absent i hi
  · rw [hconnByIndex, Table.get_remove]
    by_cases hii : i = client.index
    · rw [if_pos hii]
    · rw [if_neg hii]
      exact h.gone i ((mem_cons.mp (hreaped ▸ hi)).resolve_left hii)

end Books

/-! ### The progress of a round -/

def awaited (s : TimedShard Key) : List ℕ :=
  match s.phase with
  | .handling => s.dirty.pending
  | .relaying => s.serviced
  | .driving remaining => remaining
  | .reaping _ => []

/-- A connection that has been driven has its computed deadline recorded; one that has not, or
whose timer has fired since, is among those still to be driven. -/
structure Progress (s : TimedShard Key) : Prop where
  computed : ∀ key client deadline, s.connections.get key = some client →
    client.computed = some deadline → client.scheduledDeadline = deadline
  awaits : ∀ key client, s.connections.get key = some client → client.computed = none →
    client.index ∈ s.awaited
  covered : s.dirty.Covered s.serviced
  idle : s.phase = .handling → s.serviced = []

namespace Progress

lemma move (h : s.Progress) (hconnections : s'.connections = s.connections)
    (hawaited : s.awaited ⊆ s'.awaited) (hcovered : s'.dirty.Covered s'.serviced)
    (hidle : s'.phase = .handling → s'.serviced = []) : s'.Progress :=
  ⟨fun key client deadline hclient => h.computed key client deadline (hconnections ▸ hclient),
    fun key client hclient hnone => hawaited (h.awaits key client (hconnections ▸ hclient) hnone),
    hcovered, hidle⟩

lemma put (h : s.Progress) (client' : TimedConnection)
    (hconnections : s'.connections = s.connections.put key client')
    (hcomputed : ∀ deadline, client'.computed = some deadline →
      client'.scheduledDeadline = deadline)
    (hawaits : client'.computed = none → client'.index ∈ s'.awaited)
    (hothers : ∀ k c, k ≠ key → s.connections.get k = some c → c.index ∈ s.awaited →
      c.index ∈ s'.awaited)
    (hcovered : s'.dirty.Covered s'.serviced)
    (hidle : s'.phase = .handling → s'.serviced = []) : s'.Progress := by
  have hget : ∀ {k c}, s'.connections.get k = some c →
      c = client' ∨ k ≠ key ∧ s.connections.get k = some c := by
    intro k c hc
    rw [hconnections, get_put, ite_eq_iff] at hc
    obtain ⟨-, hc⟩ | ⟨hk, hc⟩ := hc
    · exact .inl (some.inj hc).symm
    · exact .inr ⟨hk, hc⟩
  refine ⟨fun k c deadline hc hd => ?_, fun k c hc hnone => ?_, hcovered, hidle⟩
  · obtain rfl | ⟨-, hc⟩ := hget hc
    · exact hcomputed deadline hd
    · exact h.computed k c deadline hc hd
  · obtain rfl | ⟨hk, hc⟩ := hget hc
    · exact hawaits hnone
    · exact hothers k c hk hc (h.awaits k c hc hnone)

omit [DecidableEq Key] in
lemma mark_awaited (s : TimedShard Key) (index : ℕ) :
    s.awaited ⊆ ({ s with dirty := s.dirty.mark index } : TimedShard Key).awaited := by
  unfold awaited
  cases s.phase with
  | handling => exact s.dirty.pending_subset_mark index
  | _ => exact List.Subset.refl _

lemma mem_awaited_mark (h : s.Progress) (hphase : s.phase = .handling) (index : ℕ) :
    index ∈ ({ s with dirty := s.dirty.mark index } : TimedShard Key).awaited := by
  have hmark := (h.covered.mark index).2
  rw [h.idle hphase] at hmark
  simpa [awaited, hphase] using hmark

end Progress

def Synced (s : TimedShard Key) : Prop :=
  ∃ deadlines, s.timers.Refines deadlines ∧ s.Books deadlines ∧ s.Progress

lemma synced_start : Synced ({} : TimedShard Key) := by
  refine ⟨∅, TimerQueue.refines_empty, ⟨?_, ?_, ?_, ?_, ?_⟩, ⟨?_, ?_, ?_, fun _ => rfl⟩⟩ <;>
    simp [DirtySet.Covered]

/-! ### Steps -/

lemma Synced.accept (h : s.Synced) (hphase : s.phase = .handling)
    (hkey : s.connections.get key = none) (hindex : s.connByIndex.get index = none)
    (hreaped : index ∉ s.reaped) (attention : Attention) :
    (s.acceptConnection key index attention).Synced := by
  obtain ⟨deadlines, hrefines, hbooks, hprogress⟩ := h
  refine ⟨deadlines, hrefines, hbooks.accept hkey hindex hreaped attention, ?_⟩
  exact hprogress.put _ rfl (fun _ hnone => by cases hnone)
    (fun _ => hprogress.mem_awaited_mark hphase index)
    (fun k c _ _ hc => Progress.mark_awaited s index hc) (hprogress.covered.mark index).1
    hprogress.idle

lemma Synced.handle (h : s.Synced) (key : Key) (attention : Attention) (marks : Bool) :
    (s.handleConnection key attention marks).Synced := by
  obtain ⟨deadlines, hrefines, hbooks, hprogress⟩ := h
  unfold handleConnection
  cases hclient : s.connections.get key with
  | none => exact ⟨deadlines, hrefines, hbooks, hprogress⟩
  | some client =>
    refine ⟨deadlines, hrefines, hbooks.update hclient { client with attention } rfl
      (hbooks.scheduled key client hclient) (fun _ _ => rfl) rfl rfl rfl, ?_⟩
    cases marks with
    | false =>
      exact hprogress.put _ rfl (fun deadline => hprogress.computed key client deadline hclient)
        (hprogress.awaits key client hclient) (fun _ _ _ _ hc => hc) hprogress.covered
        hprogress.idle
    | true =>
      exact hprogress.put _ rfl (fun deadline => hprogress.computed key client deadline hclient)
        (fun hnone =>
          Progress.mark_awaited s client.index (hprogress.awaits key client hclient hnone))
        (fun _ _ _ _ hc => Progress.mark_awaited s client.index hc)
        (hprogress.covered.mark client.index).1 hprogress.idle

lemma fire_books {wakeup : ℕ × ℕ} (hbooks : s.Books deadlines) (hprogress : s.Progress)
    (hphase : s.phase = .handling)
    (hwakeup : deadlines.get wakeup.1 = some wakeup.2 ∨ deadlines.get wakeup.1 = none) :
    (s.fire wakeup).Books (deadlines.remove wakeup.1) ∧ (s.fire wakeup).Progress ∧
      (s.fire wakeup).phase = .handling ∧ (s.fire wakeup).timers = s.timers := by
  have hkeep (hnone : deadlines.get wakeup.1 = none) : s.Books (deadlines.remove wakeup.1) := by
    refine hbooks.congr fun i => ?_
    rw [Table.get_remove]
    split_ifs with hi
    · rw [hi, hnone]
    · rfl
  unfold fire
  cases hlookup : s.lookup wakeup.1 with
  | none =>
    exact ⟨hkeep (hbooks.absent _ (hbooks.get_of_lookup hlookup)), hprogress, hphase, rfl⟩
  | some found =>
    obtain ⟨key, client⟩ := found
    have hindex := hbooks.lookup_index hlookup
    have hclient := (lookup_eq_some.mp hlookup).2
    have hscheduled := hbooks.scheduled key client hclient
    rw [hindex] at hscheduled
    by_cases hdue : client.scheduledDeadline = some wakeup.2
    · simp only [if_pos hdue]
      refine ⟨hbooks.update hclient { client with scheduledDeadline := none, computed := none } rfl
        (by simp [hindex]) (fun i hi => ?_) rfl rfl rfl, ?_, hphase, trivial⟩
      · rw [Table.get_remove, if_neg (hindex ▸ hi)]
      · exact hprogress.put _ rfl (fun _ hnone => by cases hnone)
          (fun _ => hindex ▸ hprogress.mem_awaited_mark hphase client.index)
          (fun _ _ _ _ hc => Progress.mark_awaited s wakeup.1 hc)
            (hprogress.covered.mark wakeup.1).1
          hprogress.idle
    · simp only [if_neg hdue]
      refine ⟨hkeep (hwakeup.resolve_left fun heq => hdue ?_), hprogress, hphase, trivial⟩
      rw [hscheduled, heq]

lemma foldl_fire_books {fired : List (ℕ × ℕ)} (hbooks : s.Books deadlines) (hprogress : s.Progress)
    (hphase : s.phase = .handling)
    (hfired : ∀ w ∈ fired, deadlines.get w.1 = some w.2 ∨ deadlines.get w.1 = none) :
    (fired.foldl fire s).Books ((fired.map Prod.fst).foldl Table.remove deadlines) ∧
      (fired.foldl fire s).Progress ∧ (fired.foldl fire s).phase = .handling ∧
      (fired.foldl fire s).timers = s.timers := by
  induction fired generalizing s deadlines with
  | nil => exact ⟨hbooks, hprogress, hphase, rfl⟩
  | cons w fired ih =>
    obtain ⟨hbooks', hprogress', hphase', htimers⟩ :=
      fire_books hbooks hprogress hphase (hfired w mem_cons_self)
    obtain ⟨hb, hp, hph, ht⟩ := ih hbooks' hprogress' hphase' fun u hu => by
      rw [Table.get_remove]
      split_ifs
      · exact .inr rfl
      · exact hfired u (mem_cons_of_mem w hu)
    exact ⟨hb, hp, hph, ht.trans htimers⟩

lemma Progress.take (h : s.Progress) (hphase : s.phase = .handling ∨ s.phase = .relaying) :
    ({ s.takeDirty with phase := .relaying } : TimedShard Key).Progress := by
  refine h.move rfl ?_ h.covered.takeInto (by rintro ⟨⟩)
  obtain hp | hp := hphase <;> simp [awaited, hp, takeDirty, DirtySet.takeInto]

lemma Synced.expire (h : s.Synced) (hphase : s.phase = .handling) (now : ℕ) :
    ∃ s₁, s.expireConnectionTimers now = some s₁ ∧
      Synced { s₁.takeDirty with phase := .relaying } := by
  obtain ⟨deadlines, hrefines, hbooks, hprogress⟩ := h
  obtain ⟨timers, fired, hexpire, hrefines', hfired, -⟩ := hrefines.expire now
  have hdue : ∀ w ∈ fired, deadlines.get w.1 = some w.2 ∨ deadlines.get w.1 = none :=
    fun w hw => .inl ((hfired w.1 w.2).mp hw).1
  have hbooks₀ : ({ s with timers } : TimedShard Key).Books deadlines :=
    hbooks.of_tables rfl rfl rfl
  have hprogress₀ : ({ s with timers } : TimedShard Key).Progress :=
    hprogress.move rfl (List.Subset.refl _) hprogress.covered hprogress.idle
  obtain ⟨hb, hp, hph, ht⟩ := foldl_fire_books hbooks₀ hprogress₀ hphase hdue
  refine ⟨fired.foldl fire { s with timers }, by rw [expireConnectionTimers, hexpire]; rfl, ?_⟩
  refine ⟨deadlines.retain fun _ deadline => decide (now < deadline), ht ▸ hrefines',
    (hb.congr fun i => ?_).of_tables rfl rfl rfl, hp.take (.inl hph)⟩
  rw [get_foldl_remove, get_retain]
  cases hget : deadlines.get i with
  | none => simp
  | some deadline =>
    by_cases hlate : now < deadline
    · have hmem : i ∉ fired.map Prod.fst := by
        rw [List.mem_map]
        rintro ⟨w, hw, rfl⟩
        obtain ⟨hw, hle⟩ := (hfired w.1 w.2).mp hw
        rw [hget, some.injEq] at hw
        omega
      simp [hmem, hlate]
    · have hmem : i ∈ fired.map Prod.fst :=
        List.mem_map_of_mem ((hfired i deadline).mpr ⟨hget, not_lt.mp hlate⟩)
      simp [hmem, not_lt.mp hlate]

lemma reschedule_spec {timers : TimerQueue} (hrefines : timers.Refines deadlines)
    (client : TimedConnection) (hscheduled : client.scheduledDeadline = deadlines.get client.index)
    (later : ℕ) :
    ∃ timers' deadlines', reschedule timers client later = some (timers',
        { client with
          scheduledDeadline := client.attention.nextDeadline later
          computed := some (client.attention.nextDeadline later) }) ∧
      timers'.Refines deadlines' ∧
      deadlines'.get client.index = client.attention.nextDeadline later ∧
      ∀ i ≠ client.index, deadlines'.get i = deadlines.get i := by
  unfold reschedule
  by_cases hsame : client.scheduledDeadline = client.attention.nextDeadline later
  · simp only [if_pos hsame]
    refine ⟨timers, deadlines, by rw [← hsame], hrefines, by rw [← hscheduled, hsame], ?_⟩
    exact fun _ _ => rfl
  · simp only [if_neg hsame]
    cases client.attention.nextDeadline later with
    | none =>
      obtain ⟨timers', hcancel, hrefines'⟩ := hrefines.cancel client.index
      refine ⟨timers', _, by simp [hcancel], hrefines', by simp, fun i hi => ?_⟩
      rw [Table.get_remove, if_neg hi]
    | some deadline =>
      obtain ⟨timers', hschedule, hrefines'⟩ := hrefines.schedule client.index deadline
      refine ⟨timers', _, by simp [hschedule], hrefines', by simp, fun i hi => ?_⟩
      rw [get_put, if_neg hi]

lemma Synced.drive {rest : List ℕ} (h : s.Synced) (hphase : s.phase = .driving (index :: rest))
    (now later : ℕ) (after : Attention) :
    ∃ s₁, s.driveConnection index now later after = some s₁ ∧
      Synced { s₁ with phase := .driving rest } ∧
      ∀ key client, s.lookup index = some (key, client) →
        s₁.timers.deadlineOf index = (client.attention.drive now after).nextDeadline later := by
  obtain ⟨deadlines, hrefines, hbooks, hprogress⟩ := h
  have hawaited : ∀ {c : TimedConnection}, c.index ∈ s.awaited → c.index ≠ index →
      c.index ∈ rest := by
    intro c hc hne
    rw [awaited, hphase] at hc
    exact (mem_cons.mp hc).resolve_left hne
  unfold driveConnection
  cases hlookup : s.lookup index with
  | none =>
    refine ⟨s, rfl, ⟨deadlines, hrefines, hbooks.of_tables rfl rfl rfl, ?_⟩, fun _ _ hf => ?_⟩
    · refine ⟨hprogress.computed, fun key client hclient hnone => ?_, hprogress.covered, ?_⟩
      · refine hawaited (hprogress.awaits key client hclient hnone) ?_
        rintro rfl
        have hlisted := hbooks.listed key client hclient
        rw [hbooks.get_of_lookup hlookup] at hlisted
        cases hlisted
      · rintro ⟨⟩
    · cases hf
  | some found =>
    obtain ⟨key, client⟩ := found
    have hindex := hbooks.lookup_index hlookup
    have hclient := (lookup_eq_some.mp hlookup).2
    obtain ⟨timers', deadlines', hreschedule, hrefines', hnext, hsame⟩ :=
      reschedule_spec hrefines { client with attention := client.attention.drive now after }
        (hbooks.scheduled key client hclient) later
    refine ⟨_, by simp [hreschedule]; rfl, ⟨deadlines', hrefines', ?_, ?_⟩, ?_⟩
    · refine hbooks.update hclient
        { client with
          attention := client.attention.drive now after
          scheduledDeadline := (client.attention.drive now after).nextDeadline later
          computed := some ((client.attention.drive now after).nextDeadline later) }
        rfl hnext.symm hsame rfl rfl rfl
    · refine hprogress.put _ rfl (fun deadline hdeadline => some.inj hdeadline)
        (fun hnone => by cases hnone) (fun k c hk hc hmem => ?_) hprogress.covered ?_
      · exact hawaited hmem fun heq => hk (hbooks.key_eq hc hclient (heq.trans hindex.symm))
      · rintro ⟨⟩
    · rintro k c hf
      obtain ⟨rfl, rfl⟩ := Prod.mk.inj (some.inj hf)
      rw [← hindex, hrefines'.deadlineOf_eq]
      exact hnext

lemma Synced.reap {rest : List ℕ} (h : s.Synced) (hphase : s.phase = .reaping (index :: rest)) :
    ∃ s₁, s.reapConnection index = some s₁ ∧ Synced { s₁ with phase := .reaping rest } := by
  obtain ⟨deadlines, hrefines, hbooks, hprogress⟩ := h
  have hkept : ({ s with phase := .reaping rest } : TimedShard Key).Synced :=
    ⟨deadlines, hrefines, hbooks.of_tables rfl rfl rfl, hprogress.move rfl
      (by simp [awaited, hphase]) hprogress.covered (by rintro ⟨⟩)⟩
  unfold reapConnection
  cases hlookup : s.lookup index with
  | none => exact ⟨s, rfl, hkept⟩
  | some found =>
    obtain ⟨key, client⟩ := found
    have hclient := (lookup_eq_some.mp hlookup).2
    by_cases hclosed : client.attention.isClosed
    · obtain ⟨timers', hcancel, hrefines'⟩ := hrefines.cancel client.index
      have hget : ∀ {k c}, (s.connections.remove key).get k = some c →
          s.connections.get k = some c := by
        intro k c hc
        rw [Table.get_remove, ite_eq_iff] at hc
        obtain ⟨-, hc⟩ | ⟨-, hc⟩ := hc
        · cases hc
        · exact hc
      refine ⟨_, by simp [hclosed, hcancel]; rfl, deadlines.remove client.index, hrefines',
        hbooks.reap hclient rfl rfl rfl, ?_⟩
      refine ⟨fun k c deadline hc => hprogress.computed k c deadline (hget hc),
        fun k c hc hnone => ?_, hprogress.covered, by rintro ⟨⟩⟩
      have hmem := hprogress.awaits k c (hget hc) hnone
      rw [awaited, hphase] at hmem
      cases hmem
    · exact ⟨s, by simp [hclosed], hkept⟩

def Belongs : RoundPhase → RoundEvent Key → Prop
  | .handling, .accept .. | .handling, .handle .. | .handling, .expire _ => True
  | .relaying, .handle .. | .relaying, .sweep | .relaying, .beginDrive => True
  | .driving (_ :: _), .drive .. | .driving [], .beginReap => True
  | .reaping (_ :: _), .reap | .reaping [], .endRound => True
  | _, _ => False

lemma Synced.exists_step (h : s.Synced) {event : RoundEvent Key} (hbelongs : Belongs s.phase event)
    (hfresh : s.Fresh event) : ∃ s', s.step event = some s' ∧ s'.Synced := by
  have h₀ := h
  obtain ⟨deadlines, hrefines, hbooks, hprogress⟩ := h₀
  have hmove {s' : TimedShard Key} (htimers : s'.timers = s.timers)
      (hconnections : s'.connections = s.connections) (hconnByIndex : s'.connByIndex =
        s.connByIndex)
      (hreaped : s'.reaped = s.reaped) (hprogress' : s'.Progress) : s'.Synced :=
    ⟨deadlines, htimers ▸ hrefines, hbooks.of_tables hconnections hconnByIndex hreaped, hprogress'⟩
  cases hphase : s.phase with
  | handling =>
    rw [hphase] at hbelongs
    cases event with
    | accept key index attention =>
      exact ⟨_, by simp only [step, hphase],
        h.accept hphase hfresh.1 hfresh.2.1 hfresh.2.2 attention⟩
    | handle key attention marks =>
      exact ⟨_, by simp only [step, hphase], h.handle key attention marks⟩
    | expire now =>
      obtain ⟨s₁, hexpire, hsynced⟩ := h.expire hphase now
      exact ⟨_, by simp only [step, hphase, hexpire, map_some], hsynced⟩
    | _ => cases hbelongs
  | relaying =>
    rw [hphase] at hbelongs
    cases event with
    | handle key attention marks =>
      exact ⟨_, by simp only [step, hphase], h.handle key attention marks⟩
    | sweep =>
      refine ⟨s.takeDirty, by simp only [step, hphase], hmove rfl rfl rfl rfl ?_⟩
      have htake := hprogress.take (.inr hphase)
      rwa [← hphase] at htake
    | beginDrive =>
      refine ⟨{ s with phase := .driving s.serviced }, by simp only [step, hphase],
        hmove rfl rfl rfl rfl (hprogress.move rfl ?_ hprogress.covered (by rintro ⟨⟩))⟩
      simp [awaited, hphase]
    | _ => cases hbelongs
  | driving remaining =>
    rw [hphase] at hbelongs
    cases remaining with
    | nil =>
      cases event with
      | beginReap =>
        refine ⟨{ s with phase := .reaping s.serviced }, by simp only [step, hphase],
          hmove rfl rfl rfl rfl (hprogress.move rfl ?_ hprogress.covered (by rintro ⟨⟩))⟩
        simp [awaited, hphase]
      | _ => cases hbelongs
    | cons index rest =>
      cases event with
      | drive now later after =>
        obtain ⟨s₁, hdrive, hsynced, -⟩ := h.drive hphase now later after
        exact ⟨_, by simp only [step, hphase, hdrive, map_some], hsynced⟩
      | _ => cases hbelongs
  | reaping remaining =>
    rw [hphase] at hbelongs
    cases remaining with
    | nil =>
      cases event with
      | endRound =>
        refine ⟨{ s with dirty := {}, serviced := [], phase := .handling },
          by simp only [step, hphase],
          hmove rfl rfl rfl rfl (hprogress.move rfl ?_ ?_ fun _ => rfl)⟩
        · simp [awaited, hphase]
        · simp [DirtySet.Covered]
      | _ => cases hbelongs
    | cons index rest =>
      cases event with
      | reap =>
        obtain ⟨s₁, hreap, hsynced⟩ := h.reap hphase
        exact ⟨_, by simp only [step, hphase, hreap, map_some], hsynced⟩
      | _ => cases hbelongs

lemma belongs_of_step {event : RoundEvent Key} (hstep : s.step event = some s') :
    Belongs s.phase event := by
  unfold step at hstep
  split at hstep <;> simp_all [Belongs]

lemma synced_run {events : List (RoundEvent Key)} (hfresh : Meets Fresh step {} events)
    (hrun : run step {} events = some s) : s.Synced := by
  refine run_invariant (fun s event s' h hallowed hstep => ?_) synced_start hfresh hrun
  obtain ⟨t, ht, hsynced⟩ := h.exists_step (belongs_of_step hstep) hallowed
  rw [hstep, some.injEq] at ht
  exact ht ▸ hsynced

/-- After every run in which keys and indices are fresh when a connection is accepted: each
connection's recorded deadline is the one the queue holds for its index; the queue holds none for
a reaped connection; a drive leaves the next deadline it computes in the queue, and once all
serviced connections are driven every connection is left so; and no event of the phase fails. -/
theorem shardTimers_agree {events : List (RoundEvent Key)} (hfresh : Meets Fresh step {} events)
    (hrun : run step {} events = some s) :
    (∀ key client, s.connections.get key = some client →
      s.timers.deadlineOf client.index = client.scheduledDeadline) ∧
    (∀ index ∈ s.reaped, s.timers.deadlineOf index = none) ∧
    (∀ index rest key client now later after, s.phase = .driving (index :: rest) →
      s.lookup index = some (key, client) →
      ∃ s', s.step (.drive now later after) = some s' ∧
        s'.timers.deadlineOf index = (client.attention.drive now after).nextDeadline later) ∧
    (∀ remaining key client, s.phase = .reaping remaining →
      s.connections.get key = some client →
      ∃ deadline, client.computed = some deadline ∧
        s.timers.deadlineOf client.index = deadline) ∧
    ∀ event, Belongs s.phase event → s.Fresh event → ∃ s', s.step event = some s' := by
  have h := synced_run hfresh hrun
  have h₀ := h
  obtain ⟨deadlines, hrefines, hbooks, hprogress⟩ := h₀
  have hscheduled : ∀ key client, s.connections.get key = some client →
      s.timers.deadlineOf client.index = client.scheduledDeadline := fun key client hclient => by
    rw [hrefines.deadlineOf_eq, hbooks.scheduled key client hclient]
  refine ⟨hscheduled, fun index hindex => ?_, ?_, ?_, fun event hbelongs hnew => ?_⟩
  · rw [hrefines.deadlineOf_eq, hbooks.absent index (hbooks.gone index hindex)]
  · intro index rest key client now later after hphase hlookup
    obtain ⟨s₁, hdrive, -, hnext⟩ := h.drive hphase now later after
    refine ⟨{ s₁ with phase := .driving rest }, ?_, hnext key client hlookup⟩
    simp only [step, hphase, hdrive, map_some]
  · intro remaining key client hphase hclient
    cases hcomputed : client.computed with
    | none =>
      have hmem := hprogress.awaits key client hclient hcomputed
      rw [awaited, hphase] at hmem
      cases hmem
    | some deadline =>
      refine ⟨deadline, rfl, (hscheduled key client hclient).trans ?_⟩
      exact hprogress.computed key client deadline hclient hcomputed
  · obtain ⟨s', hstep, -⟩ := h.exists_step hbelongs hnew
    exact ⟨s', hstep⟩

def waitingUntil (deadline : ℕ) (isClosed : Bool) : Attention where
  tcpReadResumes := false
  capsuleReadResumes := false
  localError := false
  isDraining := false
  isClosed := isClosed
  timeoutInstant := some deadline
  deferredSend := none
  firstAuthDeadline := none

/-- Two connections: both are driven when they are accepted, and the first again when its timer
has fired, after which it is closed. -/
def twoRounds : List (RoundEvent ℕ) :=
  [.accept 70 1 (waitingUntil 5 false), .accept 80 2 (waitingUntil 6 false), .expire 0,
    .beginDrive, .drive 0 0 (waitingUntil 9 false), .drive 0 0 (waitingUntil 20 false), .beginReap,
    .reap, .reap, .endRound, .expire 10, .beginDrive, .drive 10 11 (waitingUntil 12 true),
    .beginReap, .reap]

def afterTwoRounds : TimedShard ℕ := (run step {} twoRounds).get (by decide +kernel)

theorem shardTimers_agree_twoRounds :
    Meets Fresh step {} twoRounds ∧ afterTwoRounds.reaped = [1] ∧
      afterTwoRounds.timers.deadlineOf 1 = none ∧ afterTwoRounds.timers.deadlineOf 2 = some 20 := by
  have hfresh : Meets Fresh step {} twoRounds := by decide +kernel
  have hreaped : afterTwoRounds.reaped = [1] := by decide +kernel
  have hrun : run step {} twoRounds = some afterTwoRounds := (some_get _).symm
  have hagree := shardTimers_agree hfresh hrun
  refine ⟨hfresh, hreaped, hagree.2.1 1 (by simp [hreaped]), ?_⟩
  decide +kernel

end TimedShard

end MasqueServer
