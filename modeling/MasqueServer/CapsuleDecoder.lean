import MasqueServer.ByteOrder
import MasqueServer.CapsuleChunks

/-!
# The buffering capsule decoder

This decoder appends every chunk to a buffer and takes whole capsules off its front. The front is
only cut off once it has grown long, or when nothing is left behind it.
-/
namespace MasqueServer

open List

def compactThreshold : ℕ := 16 * 1024

def defaultMaxCapsuleSize : ℕ := 1024 * 1024

def tryDecodeOne (buf : Bytes) (maxCapsuleSize : ℕ) : Except DecodeError (CapsuleFrame × ℕ) :=
  match Varint.decode buf with
  | .error _ => .error .incomplete
  | .ok (capsuleType, tlen) =>
    match Varint.decode (buf.drop tlen) with
    | .error _ => .error .incomplete
    | .ok (length, llen) =>
      if maxCapsuleSize < length then .error (.tooLarge length maxCapsuleSize)
      else if 2 ^ 64 ≤ tlen + llen + length then .error
        (.malformed "capsule length overflows usize")
      else if buf.length < tlen + llen + length then .error .incomplete
      else (parseCapsuleValue capsuleType (slice buf (tlen + llen) length)).map fun frame =>
        (frame, tlen + llen + length)

variable {buf : Bytes} {maxCapsuleSize kind : ℕ} {d : DatagramCapsules}

lemma tryDecodeOne_le {n : ℕ} {frame : CapsuleFrame}
    (h : tryDecodeOne buf maxCapsuleSize = .ok (frame, n)) : n ≤ buf.length := by
  unfold tryDecodeOne at h
  split at h
  · cases h
  · split at h
    · cases h
    · split_ifs at h with hmax hoverflow hshort
      cases hvalue : parseCapsuleValue _ _ with
      | error e =>
        rw [hvalue] at h
        cases h
      | ok frame =>
        rw [hvalue] at h
        cases h
        omega

structure CapsuleDecoder where
  buf : Bytes
  consumed : ℕ
  maxCapsuleSize : ℕ
  consumed_le : consumed ≤ buf.length

namespace CapsuleDecoder

def withMaxCapsuleSize (maxCapsuleSize : ℕ) : CapsuleDecoder := ⟨[], 0, maxCapsuleSize, le_rfl⟩

def new : CapsuleDecoder := withMaxCapsuleSize defaultMaxCapsuleSize

variable (k : CapsuleDecoder)

def pending : Bytes := k.buf.drop k.consumed

def buffered : ℕ := k.buf.length - k.consumed

def compact : CapsuleDecoder :=
  if 0 < k.consumed ∧ (compactThreshold ≤ k.consumed ∨ k.consumed = k.buf.length) then
    ⟨k.buf.drop k.consumed, 0, k.maxCapsuleSize, Nat.zero_le _⟩
  else k

def extend (data : Bytes) : CapsuleDecoder :=
  ⟨k.buf ++ data, k.consumed, k.maxCapsuleSize,
    k.consumed_le.trans (by rw [length_append]; omega)⟩

def decodeLoop : ℕ → CapsuleDecoder → Except DecodeError (CapsuleDecoder × List CapsuleFrame)
  | 0, k => .ok (k, [])
  | fuel + 1, k =>
    match h : tryDecodeOne k.pending k.maxCapsuleSize with
    | .ok (frame, n) => do
      let (k, frames) ← decodeLoop fuel { k with
        consumed := k.consumed + n
        consumed_le := by
          have := tryDecodeOne_le h
          rw [pending, length_drop] at this
          have := k.consumed_le
          omega }
      return (k, frame :: frames)
    | .error .incomplete => .ok (k, [])
    | .error e => .error e

def decode (data : Bytes) : Except DecodeError (CapsuleDecoder × List CapsuleFrame) :=
  let k := k.compact.extend data
  decodeLoop k.buffered k

def decodeUncompacted (data : Bytes) :
    Except DecodeError (CapsuleDecoder × List CapsuleFrame) :=
  let k := k.extend data
  decodeLoop k.buffered k

@[simp] lemma length_pending : k.pending.length = k.buffered := by
  simp [pending, buffered]

@[simp] lemma pending_compact : k.compact.pending = k.pending := by
  unfold compact
  split_ifs <;> simp [pending]

@[simp] lemma maxCapsuleSize_compact : k.compact.maxCapsuleSize = k.maxCapsuleSize := by
  unfold compact
  split_ifs <;> rfl

@[simp] lemma pending_extend (data : Bytes) : (k.extend data).pending = k.pending ++ data :=
  drop_append_of_le_length k.consumed_le

end CapsuleDecoder

/-! ### Errors of values -/

section Values

variable {α β : Type}

def NeverIncomplete (r : Except DecodeError α) : Prop := r ≠ .error .incomplete

variable {r : Except DecodeError α}

lemma NeverIncomplete.bind {k : α → Except DecodeError β} (hr : NeverIncomplete r)
    (hk : ∀ a, NeverIncomplete (k a)) : NeverIncomplete (r >>= k) := by
  cases r with
  | error e => exact fun h => hr (congrArg Except.error (Except.error.inj h))
  | ok a => exact hk a

lemma NeverIncomplete.map (hr : NeverIncomplete r) (f : α → β) :
    NeverIncomplete (r.map f) := by
  cases r with
  | error e => exact fun h => hr (congrArg Except.error (Except.error.inj h))
  | ok a => exact fun h => by cases h

lemma neverIncomplete_ok (a : α) : NeverIncomplete (.ok a : Except DecodeError α) := by
  intro h
  cases h

lemma neverIncomplete_malformed (msg : String) :
    NeverIncomplete (.error (.malformed msg) : Except DecodeError α) := by
  intro h
  cases h

lemma readAddress_neverIncomplete (ipVersion : UInt8) (buf : Bytes) :
    NeverIncomplete (readAddress ipVersion buf) := by
  unfold readAddress
  split_ifs <;> first | exact neverIncomplete_ok _ | exact neverIncomplete_malformed _

lemma parseAssignedAddress_neverIncomplete (buf : Bytes) :
    NeverIncomplete (parseAssignedAddress buf) := by
  unfold parseAssignedAddress
  split
  · exact neverIncomplete_malformed _
  · split
    · exact neverIncomplete_malformed _
    · refine (readAddress_neverIncomplete _ _).bind fun p => ?_
      dsimp only
      split
      · exact neverIncomplete_malformed _
      · split_ifs
        · exact neverIncomplete_ok _
        · exact neverIncomplete_malformed _

lemma parseAssignedAddresses_neverIncomplete (buf : Bytes) :
    NeverIncomplete (parseAssignedAddresses buf) := by
  have hloop : ∀ fuel buf, NeverIncomplete (assignedLoop fuel buf) := by
    intro fuel
    induction fuel with
    | zero => intro buf; cases buf <;> exact neverIncomplete_ok _
    | succ fuel ih =>
      intro buf
      cases buf with
      | nil => exact neverIncomplete_ok _
      | cons byte rest =>
        refine (parseAssignedAddress_neverIncomplete _).bind fun p => ?_
        exact (ih p.2).bind fun addresses => neverIncomplete_ok _
  exact hloop buf.length buf

lemma parseAddressRange_neverIncomplete (previous : PreviousRange) (ipVersion : UInt8)
    (buf : Bytes) : NeverIncomplete (parseAddressRange previous ipVersion buf) := by
  unfold parseAddressRange
  refine NeverIncomplete.bind ?_ fun p => ?_
  · unfold readRange
    split_ifs <;> first | exact neverIncomplete_ok _ | exact neverIncomplete_malformed _
  · dsimp only
    split
    · exact neverIncomplete_malformed _
    · split_ifs
      · exact neverIncomplete_malformed _
      · exact neverIncomplete_ok _

lemma parseAddressRanges_neverIncomplete (buf : Bytes) :
    NeverIncomplete (parseAddressRanges buf) := by
  have hloop : ∀ fuel previous buf, NeverIncomplete (rangesLoop fuel previous buf) := by
    intro fuel
    induction fuel with
    | zero => intro previous buf; cases buf <;> exact neverIncomplete_ok _
    | succ fuel ih =>
      intro previous buf
      cases buf with
      | nil => exact neverIncomplete_ok _
      | cons ipVersion buf =>
        refine (parseAddressRange_neverIncomplete _ _ _).bind fun p => ?_
        exact (ih _ p.2.2).bind fun ranges => neverIncomplete_ok _
  exact hloop buf.length none buf

lemma parseCapsuleValue_neverIncomplete (capsuleType : ℕ) (value : Bytes) :
    NeverIncomplete (parseCapsuleValue capsuleType value) := by
  unfold parseCapsuleValue
  split_ifs
  · exact neverIncomplete_ok _
  · exact (parseAssignedAddresses_neverIncomplete value).map _
  · refine NeverIncomplete.map ?_ _
    refine (parseAssignedAddresses_neverIncomplete value).bind fun addresses => ?_
    split_ifs
    · exact neverIncomplete_malformed _
    · exact neverIncomplete_malformed _
    · exact neverIncomplete_ok _
  · exact (parseAddressRanges_neverIncomplete value).map _
  · exact neverIncomplete_ok _

end Values

/-! ### What the decoder finds -/

def bufferedHandler (maxCapsuleSize : ℕ) :
    FrameHandler UInt8 (ℕ × ℕ) CapsuleFrame DecodeError where
  check := fun (_, length) =>
    if maxCapsuleSize < length then .error (.tooLarge length maxCapsuleSize) else .ok ()
  receive := fun (kind, _) value => (parseCapsuleValue kind value).map fun frame => [frame]

lemma tryDecodeOne_of_none (h : splitHeader buf = none) :
    tryDecodeOne buf maxCapsuleSize = .error .incomplete := by
  unfold splitHeader at h
  unfold tryDecodeOne
  cases hkind : Varint.decode buf with
  | error e => rfl
  | ok p =>
    obtain ⟨kind, tlen⟩ := p
    rw [hkind] at h
    dsimp only at h ⊢
    cases hlength : Varint.decode (buf.drop tlen) with
    | error e => rfl
    | ok q =>
      rw [hlength] at h
      cases h

lemma tryDecodeOne_of_some {body : Bytes} (maxCapsuleSize : ℕ) {length : ℕ}
    (h : splitHeader buf = some ((kind, length), body)) :
    tryDecodeOne buf maxCapsuleSize =
      if maxCapsuleSize < length then .error (.tooLarge length maxCapsuleSize)
      else if body.length < length then .error .incomplete
      else (parseCapsuleValue kind (body.take length)).map fun frame =>
        (frame, buf.length - body.length + length) := by
  obtain ⟨t, l, rfl, ht, hl⟩ := splitHeader_eq_some.mp h
  have hmax := Varint.decode_le_maxValue hl
  have htlen := Varint.decode_bounds ht
  have hllen := Varint.decode_bounds hl
  have hno : ¬2 ^ 64 ≤ t.length + l.length + length := by
    unfold Varint.maxValue at hmax
    omega
  unfold tryDecodeOne
  rw [append_assoc, Varint.decode_append ht]
  simp only [drop_left]
  rw [Varint.decode_append hl]
  simp only [if_neg hno, slice]
  have hdrop : (t ++ (l ++ body)).drop (t.length + l.length) = body := by
    rw [← drop_drop, drop_left, drop_left]
  have hlength : (t ++ (l ++ body)).length = t.length + l.length + body.length := by
    simp only [length_append]
    omega
  rw [hdrop, hlength, Nat.add_sub_cancel]
  congr 1
  refine if_congr ?_ rfl rfl
  omega

namespace CapsuleDecoder

variable {k k' : CapsuleDecoder} {data rest : Bytes} {frames : List CapsuleFrame}

variable {fuel : ℕ} {out : Except DecodeError Bytes}

lemma decodeLoop_of_incomplete (h : tryDecodeOne k.pending k.maxCapsuleSize = .error .incomplete) :
    decodeLoop fuel k = .ok (k, []) := by
  cases fuel with
  | zero => rfl
  | succ fuel =>
    unfold decodeLoop
    split <;> simp_all

lemma decodeLoop_of_error {e : DecodeError} (h : tryDecodeOne k.pending k.maxCapsuleSize = .error e)
    (he : e ≠ .incomplete) :
    decodeLoop (fuel + 1) k = .error e := by
  unfold decodeLoop
  split <;> simp_all

lemma decodeLoop_of_ok (fuel : ℕ) {n : ℕ} {frame : CapsuleFrame}
    (h : tryDecodeOne k.pending k.maxCapsuleSize = .ok (frame, n)) :
    ∃ k', k'.pending = k.pending.drop n ∧ k'.maxCapsuleSize = k.maxCapsuleSize ∧
      decodeLoop (fuel + 1) k = (decodeLoop fuel k').map fun p => (p.1, frame :: p.2) := by
  have hle : k.consumed + n ≤ k.buf.length := by
    have hn := tryDecodeOne_le h
    rw [length_pending, buffered] at hn
    have := k.consumed_le
    omega
  refine ⟨⟨k.buf, k.consumed + n, k.maxCapsuleSize, hle⟩, drop_drop.symm, rfl, ?_⟩
  rw [decodeLoop]
  split
  · rename_i frame' n' h'
    rw [h] at h'
    cases h'
    cases decodeLoop fuel _ <;> rfl
  · simp_all
  · simp_all

def Finds (r : Except DecodeError (CapsuleDecoder × List CapsuleFrame)) (maxCapsuleSize : ℕ)
    (frames : List CapsuleFrame) : Except DecodeError Bytes → Prop
  | .error e => r = .error e
  | .ok rest => ∃ k, r = .ok (k, frames) ∧ k.pending = rest ∧ k.maxCapsuleSize = maxCapsuleSize

theorem decodeLoop_finds {octets : Bytes}
    (hs : capsuleFraming.Scans (bufferedHandler k.maxCapsuleSize) octets frames out)
    (hpending : k.pending = octets) (hfuel : octets.length ≤ fuel) :
    Finds (decodeLoop fuel k) k.maxCapsuleSize frames out := by
  generalize hmax : k.maxCapsuleSize = maxCapsuleSize at hs
  induction hs generalizing k fuel with
  | short hsplit =>
    subst hpending
    exact ⟨k, decodeLoop_of_incomplete (tryDecodeOne_of_none hsplit), rfl, hmax⟩
  | @refused xs header body e hsplit hcheck =>
    subst hpending hmax
    have hlt := Framing.length_lt_of_split hsplit
    obtain ⟨n, rfl⟩ : ∃ n, fuel = n + 1 := ⟨fuel - 1, by omega⟩
    have hone := tryDecodeOne_of_some k.maxCapsuleSize hsplit
    simp only [bufferedHandler] at hcheck
    split_ifs at hcheck with hlarge
    cases hcheck
    rw [if_pos hlarge] at hone
    exact decodeLoop_of_error hone (by simp)
  | @waiting xs header body hsplit hcheck hbody =>
    subst hpending hmax
    have hone := tryDecodeOne_of_some k.maxCapsuleSize hsplit
    simp only [bufferedHandler] at hcheck
    split_ifs at hcheck with hlarge
    rw [if_neg hlarge, if_pos (show body.length < header.2 from hbody)] at hone
    exact ⟨k, decodeLoop_of_incomplete hone, rfl, rfl⟩
  | @malformed xs header body e hsplit hcheck hbody hreceive =>
    subst hpending hmax
    have hlt := Framing.length_lt_of_split hsplit
    obtain ⟨n, rfl⟩ : ∃ n, fuel = n + 1 := ⟨fuel - 1, by omega⟩
    have hone := tryDecodeOne_of_some k.maxCapsuleSize hsplit
    simp only [bufferedHandler] at hcheck hreceive
    split_ifs at hcheck with hlarge
    have hle : header.2 ≤ body.length := hbody
    rw [if_neg hlarge, if_neg (Nat.not_lt.mpr hle)] at hone
    have hnever := parseCapsuleValue_neverIncomplete header.1 (body.take header.2)
    cases hvalue : parseCapsuleValue header.1 (body.take header.2) with
    | error e' =>
      rw [show capsuleFraming.size header = header.2 from rfl, hvalue] at hreceive
      cases hreceive
      rw [hvalue] at hone hnever
      exact decodeLoop_of_error hone fun h => hnever (congrArg Except.error h)
    | ok frame =>
      rw [show capsuleFraming.size header = header.2 from rfl, hvalue] at hreceive
      cases hreceive
  | @frame xs header body found more out hsplit hcheck hbody hreceive hrest ih =>
    subst hpending hmax
    have hlt := Framing.length_lt_of_split hsplit
    obtain ⟨n, rfl⟩ : ∃ n, fuel = n + 1 := ⟨fuel - 1, by omega⟩
    have hone := tryDecodeOne_of_some k.maxCapsuleSize hsplit
    simp only [bufferedHandler] at hcheck hreceive
    split_ifs at hcheck with hlarge
    have hle : header.2 ≤ body.length := hbody
    rw [if_neg hlarge, if_neg (Nat.not_lt.mpr hle)] at hone
    cases hvalue : parseCapsuleValue header.1 (body.take header.2) with
    | error e' =>
      rw [show capsuleFraming.size header = header.2 from rfl, hvalue] at hreceive
      cases hreceive
    | ok frame =>
      rw [show capsuleFraming.size header = header.2 from rfl, hvalue] at hreceive
      cases hreceive
      rw [hvalue] at hone
      obtain ⟨k', hpending, hmax, hloop⟩ := decodeLoop_of_ok n hone
      obtain ⟨octets, -, hoctets, -⟩ := capsuleFraming.split_eq k.pending header body hsplit
      have hdrop : k'.pending = body.drop (capsuleFraming.size header) := by
        rw [hpending, hoctets, length_append, Nat.add_sub_cancel, ← drop_drop,
          drop_left]
        rfl
      have hlength : (body.drop (capsuleFraming.size header)).length ≤ n := by
        rw [length_drop]
        omega
      have hnext := ih hdrop hlength hmax
      cases out with
      | error e =>
        unfold Finds at hnext ⊢
        rw [hloop, hnext]
        rfl
      | ok rest =>
        obtain ⟨k'', hk'', hrest'', hmax''⟩ := hnext
        refine ⟨k'', ?_, hrest'', hmax''⟩
        rw [hloop, hk'']
        rfl

theorem decode_finds
    (hs : capsuleFraming.Scans (bufferedHandler k.maxCapsuleSize) (k.pending ++ data) frames out) :
    Finds (k.decode data) k.maxCapsuleSize frames out := by
  have hsize : (k.compact.extend data).maxCapsuleSize = k.maxCapsuleSize := maxCapsuleSize_compact k
  have hpending : (k.compact.extend data).pending = k.pending ++ data := by simp
  rw [← hsize] at hs ⊢
  refine decodeLoop_finds hs hpending ?_
  rw [← hpending, length_pending]

theorem decodeUncompacted_finds
    (hs : capsuleFraming.Scans (bufferedHandler k.maxCapsuleSize) (k.pending ++ data) frames out) :
    Finds (k.decodeUncompacted data) k.maxCapsuleSize frames out := by
  have hpending : (k.extend data).pending = k.pending ++ data := by simp
  refine decodeLoop_finds (k := k.extend data) hs hpending ?_
  rw [← hpending, length_pending]

/-! ### The decoder without compaction -/

def visible (r : Except DecodeError (CapsuleDecoder × List CapsuleFrame)) :
    Except DecodeError (Bytes × ℕ × List CapsuleFrame) :=
  r.map fun p => (p.1.pending, p.1.maxCapsuleSize, p.2)

lemma visible_eq_of_finds {r r' : Except DecodeError (CapsuleDecoder × List CapsuleFrame)}
    {maxCapsuleSize : ℕ} (h : Finds r maxCapsuleSize frames out)
    (h' : Finds r' maxCapsuleSize frames out) :
    visible r = visible r' := by
  cases out with
  | error e =>
    unfold Finds at h h'
    rw [h, h']
  | ok rest =>
    obtain ⟨k, rfl, hrest, hmax⟩ := h
    obtain ⟨k', rfl, hrest', hmax'⟩ := h'
    simp [visible, Except.map, hrest, hrest', hmax, hmax']

lemma visible_decode (hpending : k.pending = k'.pending)
    (hmax : k.maxCapsuleSize = k'.maxCapsuleSize) (data : Bytes) :
    visible (k.decode data) = visible (k'.decodeUncompacted data) := by
  obtain ⟨frames, out, hs⟩ := capsuleFraming.exists_scans (bufferedHandler k.maxCapsuleSize)
    (k.pending ++ data)
  have hs' := hs
  rw [hpending, hmax] at hs'
  have huncompacted := decodeUncompacted_finds hs'
  rw [← hmax] at huncompacted
  exact visible_eq_of_finds (decode_finds hs) huncompacted

theorem visible_feed (hpending : k.pending = k'.pending)
    (hmax : k.maxCapsuleSize = k'.maxCapsuleSize) (chunks : List Bytes) :
    visible (feed decode k chunks) = visible (feed decodeUncompacted k' chunks) := by
  induction chunks generalizing k k' with
  | nil => simp [feed, visible, Except.map, hpending, hmax]
  | cons chunk chunks ih =>
    have hchunk := visible_decode hpending hmax chunk
    rw [feed, feed]
    cases hd : k.decode chunk with
    | error e =>
      cases hd' : k'.decodeUncompacted chunk with
      | error e' =>
        rw [hd, hd'] at hchunk
        cases hchunk
        rfl
      | ok p =>
        rw [hd, hd'] at hchunk
        cases hchunk
    | ok p =>
      cases hd' : k'.decodeUncompacted chunk with
      | error e =>
        rw [hd, hd'] at hchunk
        cases hchunk
      | ok p' =>
        rw [hd, hd'] at hchunk
        simp only [visible, Except.map, Except.ok.injEq, Prod.mk.injEq] at hchunk
        have hrest := ih hchunk.1 hchunk.2.1
        simp only [chain, Except.bind]
        rw [hchunk.2.2]
        unfold visible at hrest ⊢
        cases hf : feed decode p.1 chunks with
        | error e =>
          cases hf' : feed decodeUncompacted p'.1 chunks with
          | error e' =>
            rw [hf, hf'] at hrest
            cases hrest
            rfl
          | ok q =>
            rw [hf, hf'] at hrest
            cases hrest
        | ok q =>
          cases hf' : feed decodeUncompacted p'.1 chunks with
          | error e =>
            rw [hf, hf'] at hrest
            cases hrest
          | ok q' =>
            rw [hf, hf'] at hrest
            simp only [Except.map, Except.ok.injEq, Prod.mk.injEq] at hrest ⊢
            simp [hrest]

end CapsuleDecoder

/-! ### Agreement with the streaming parser -/

def CapsuleFrame.isUnknown : CapsuleFrame → Bool
  | .unknown _ _ => true
  | _ => false

/-- No capsule of the stream declares a length above the limit that either decoder has for its
type. -/
def DeclaredWithin (maxCapsuleSize : ℕ) (d : DatagramCapsules) (octets : Bytes) : Prop :=
  ∀ done tail kind length body, octets = done ++ tail → capsuleFraming.Whole done →
    splitHeader tail = some ((kind, length), body) →
    length ≤ maxCapsuleSize ∧ ∀ limit, d.limitFor kind = some limit → length ≤ limit

/-- Chunk after chunk, the known frames and the error are the same, and the one decoder holds
octets exactly if the other is in the middle of a capsule. -/
def DecodersAgree (k : CapsuleDecoder) (c : IpCapsules) : List Bytes → Prop
  | [] => True
  | chunk :: chunks =>
    match k.decode chunk, c.decode chunk with
    | .ok (k', frames), .ok (c', frames') =>
      frames.filter (!·.isUnknown) = frames' ∧ (k'.buffered ≠ 0 ↔ c'.isPartial = true) ∧
        DecodersAgree k' c' chunks
    | .error e, .error e' => e = e'
    | _, _ => False

namespace DeclaredWithin

variable {maxCapsuleSize : ℕ} {d : DatagramCapsules} {octets more : Bytes}

lemma suffix (h : DeclaredWithin maxCapsuleSize d (octets ++ more))
    (hwhole : capsuleFraming.Whole octets) : DeclaredWithin maxCapsuleSize d more := by
  intro done tail kind length body hmore hdone hsplit
  refine h (octets ++ done) tail kind length body ?_ (hwhole.append hdone) hsplit
  rw [hmore, append_assoc]

lemma left (h : DeclaredWithin maxCapsuleSize d (octets ++ more)) :
    DeclaredWithin maxCapsuleSize d octets := by
  intro done tail kind length body hoctets hdone hsplit
  refine h done (tail ++ more) kind length (body ++ more) ?_ hdone
    (capsuleFraming.split_append tail _ body hsplit more)
  rw [hoctets, append_assoc]

lemma tail {body : Bytes} {header : ℕ × ℕ} (h : DeclaredWithin maxCapsuleSize d octets)
    (hsplit : capsuleFraming.split octets = some (header, body))
    (hbody : capsuleFraming.size header ≤ body.length) :
    DeclaredWithin maxCapsuleSize d (body.drop (capsuleFraming.size header)) := by
  obtain ⟨front, -, rfl, hfront⟩ := capsuleFraming.split_eq octets header body hsplit
  rw [← take_append_drop (capsuleFraming.size header) body, ← append_assoc] at h
  refine h.suffix ?_
  rw [← append_nil (front ++ _)]
  exact .cons hfront (length_take_of_le hbody) .nil

lemma of_none (hsplit : splitHeader octets = none) : DeclaredWithin maxCapsuleSize d octets := by
  intro done tail kind length body hoctets hdone hsplit'
  subst hoctets
  cases hdone with
  | nil => exact absurd (hsplit.symm.trans hsplit') (by simp)
  | @cons front value rest header hfront hvalue hrest =>
    have hall := capsuleFraming.split_append front header [] hfront (value ++ rest ++ tail)
    simp only [← append_assoc] at hall
    exact absurd (hsplit.symm.trans hall) (by simp)

lemma of_split {kind length : ℕ} {body : Bytes}
    (hsplit : splitHeader octets = some ((kind, length), body)) (hmax : length ≤ maxCapsuleSize)
    (hlimit : ∀ limit, d.limitFor kind = some limit → length ≤ limit)
    (hrest : length ≤ body.length → DeclaredWithin maxCapsuleSize d (body.drop length)) :
    DeclaredWithin maxCapsuleSize d octets := by
  intro done tail kind' length' body' hoctets hdone hsplit'
  subst hoctets
  cases hdone with
  | nil =>
    cases hsplit.symm.trans hsplit'
    exact ⟨hmax, hlimit⟩
  | @cons front value rest header hfront hvalue hwhole =>
    have hall := capsuleFraming.split_append front header [] hfront (value ++ rest ++ tail)
    simp only [← append_assoc] at hall
    cases hsplit.symm.trans hall
    have hlength : value.length = length := hvalue
    have hmore := hrest (by simp only [length_append]; omega)
    rw [nil_append, append_assoc, ← hlength, drop_left] at hmore
    exact hmore rest tail kind' length' body' rfl hwhole hsplit'

end DeclaredWithin

lemma IpCapsules.frame_eq (kind : ℕ) (value : Bytes) :
    IpCapsules.frame kind value = parseCapsuleValue kind value := by
  unfold IpCapsules.frame parseCapsuleValue
  split_ifs <;> rfl

lemma isUnknown_of_parse {value : Bytes} {frame : CapsuleFrame}
    (hcontrol : d.controlLimit ≠ none) (h : parseCapsuleValue kind value = .ok frame) :
    frame.isUnknown = true ↔ d.limitFor kind = none := by
  have hmap {α : Type} {r : Except DecodeError α} {f : α → CapsuleFrame}
      (hf : ∀ a, (f a).isUnknown = false) (h : r.map f = .ok frame) : frame.isUnknown = false := by
    obtain ⟨a, -, rfl⟩ := map_ok_iff.mp h
    exact hf a
  unfold parseCapsuleValue at h
  unfold DatagramCapsules.limitFor
  split_ifs at h with hdatagram hassign hrequest hroute
  · cases h
    simp [hdatagram, CapsuleFrame.isUnknown]
  · simp [hassign, hcontrol, hmap (fun _ => rfl) h, capsuleAddressAssign, capsuleDatagram]
  · simp [hrequest, hcontrol, hmap (fun _ => rfl) h, capsuleAddressRequest, capsuleDatagram]
  · simp [hroute, hcontrol, hmap (fun _ => rfl) h, capsuleRouteAdvertisement, capsuleDatagram]
  · cases h
    simp [hdatagram, hassign, hrequest, hroute, CapsuleFrame.isUnknown]

lemma parse_of_limitFor_none (hcontrol : d.controlLimit ≠ none) (h : d.limitFor kind = none)
    (value : Bytes) :
    parseCapsuleValue kind value = .ok (.unknown kind value) := by
  unfold DatagramCapsules.limitFor at h
  unfold parseCapsuleValue
  split_ifs at h with hdatagram hcontrols
  · exact absurd h hcontrol
  · simp only [not_or] at hcontrols
    rw [if_neg hdatagram, if_neg hcontrols.1, if_neg hcontrols.2.1, if_neg hcontrols.2.2]

theorem scans_known (hcontrol : d.controlLimit ≠ none) {octets : Bytes}
    {frames : List CapsuleFrame} {out : Except DecodeError Bytes}
    (hwithin : DeclaredWithin maxCapsuleSize d octets)
    (hs : capsuleFraming.Scans (bufferedHandler maxCapsuleSize) octets frames out) :
    capsuleFraming.Scans (d.handler IpCapsules.frame) octets
      (frames.filter (!·.isUnknown)) out := by
  have hchecks {octets body : Bytes} {header : ℕ × ℕ}
      (hwithin : DeclaredWithin maxCapsuleSize d octets)
      (hsplit : capsuleFraming.split octets = some (header, body)) :
      (d.handler IpCapsules.frame).check header = .ok () := by
    have hle := (hwithin [] octets header.1 header.2 body rfl .nil hsplit).2
    simp only [DatagramCapsules.handler]
    cases hlimit : d.limitFor header.1 with
    | none => rfl
    | some limit => exact if_neg (Nat.not_lt.mpr (hle limit hlimit))
  induction hs with
  | short hsplit => exact .short hsplit
  | @refused xs header body e hsplit hcheck =>
    have hle := (hwithin [] xs header.1 header.2 body rfl .nil hsplit).1
    simp only [bufferedHandler, if_neg (Nat.not_lt.mpr hle)] at hcheck
    cases hcheck
  | waiting hsplit hcheck hbody => exact .waiting hsplit (hchecks hwithin hsplit) hbody
  | @malformed xs header body e hsplit hcheck hbody hreceive =>
    refine .malformed hsplit (hchecks hwithin hsplit) hbody ?_
    simp only [DatagramCapsules.handler, IpCapsules.frame_eq]
    cases hlimit : d.limitFor header.1 with
    | some limit => exact hreceive
    | none =>
      simp only [bufferedHandler, parse_of_limitFor_none hcontrol hlimit] at hreceive
      cases hreceive
  | @frame xs header body found more out hsplit hcheck hbody hreceive hrest ih =>
    rw [filter_append]
    refine .frame hsplit (hchecks hwithin hsplit) hbody ?_ (ih (hwithin.tail hsplit hbody))
    simp only [DatagramCapsules.handler, IpCapsules.frame_eq]
    simp only [bufferedHandler] at hreceive
    cases hvalue : parseCapsuleValue header.1 (body.take (capsuleFraming.size header)) with
    | error e =>
      rw [hvalue] at hreceive
      cases hreceive
    | ok frame =>
      rw [hvalue] at hreceive
      cases hreceive
      have hunknown := isUnknown_of_parse hcontrol hvalue
      cases hlimit : d.limitFor header.1 with
      | none => simp [hunknown.mpr hlimit]
      | some limit =>
        have hknown : frame.isUnknown = false := by
          rw [← Bool.not_eq_true, hunknown, hlimit]
          simp
        simp [hknown, Except.map]

theorem DatagramCapsules.Holds.agree {k : CapsuleDecoder} {c : IpCapsules}
    (hholds : c.decoder.Holds IpCapsules.frame k.pending) (hcontrol : c.decoder.controlLimit ≠ none)
    {chunks : List Bytes}
    (hwithin : DeclaredWithin k.maxCapsuleSize c.decoder (k.pending ++ chunks.flatten)) :
    DecodersAgree k c chunks := by
  induction chunks generalizing k c with
  | nil => trivial
  | cons chunk chunks ih =>
    rw [flatten_cons, ← append_assoc] at hwithin
    obtain ⟨frames, out, hs⟩ := capsuleFraming.exists_scans (bufferedHandler k.maxCapsuleSize)
      (k.pending ++ chunk)
    have hdecoder := CapsuleDecoder.decode_finds hs
    have hparser := hholds.finds (scans_known hcontrol hwithin.left hs)
    unfold DecodersAgree
    rw [IpCapsules.decode]
    cases out with
    | error e =>
      unfold CapsuleDecoder.Finds at hdecoder
      unfold DatagramCapsules.Finds at hparser
      rw [hdecoder, hparser]
      rfl
    | ok rest =>
      obtain ⟨k', hk', rfl, hmax⟩ := hdecoder
      obtain ⟨d', hd', hholds', hlimits⟩ := hparser
      rw [hk', hd']
      refine ⟨rfl, ?_, ih (c := ⟨d'⟩) hholds' ?_ ?_⟩
      · rw [← CapsuleDecoder.length_pending, Ne, length_eq_zero_iff, ← hholds'.isPartial_iff,
          Bool.not_eq_false]
        rfl
      · have hsame : d'.controlLimit = c.decoder.controlLimit :=
          congrFun hlimits capsuleAddressAssign
        rwa [hsame]
      · obtain ⟨done, hdone, hwhole⟩ := hs.exists_whole
        rw [hdone, append_assoc, ← hmax] at hwithin
        have hrest := hwithin.suffix hwhole
        unfold DeclaredWithin at hrest ⊢
        rwa [hlimits]

/-- As long as no capsule declares too much, both decoders read the same known capsules from
every chunking of a stream; and the buffering one reads what it would read without compaction. -/
theorem capsuleDecoders_agree (maxCapsuleSize maxDatagram : ℕ) (chunks : List Bytes)
    (hwithin : DeclaredWithin maxCapsuleSize (IpCapsules.new maxDatagram).decoder chunks.flatten) :
    DecodersAgree (.withMaxCapsuleSize maxCapsuleSize) (.new maxDatagram) chunks ∧
      CapsuleDecoder.visible
        (feed CapsuleDecoder.decode (.withMaxCapsuleSize maxCapsuleSize) chunks) =
        CapsuleDecoder.visible
          (feed CapsuleDecoder.decodeUncompacted (.withMaxCapsuleSize maxCapsuleSize) chunks) := by
  have hidle : (IpCapsules.new maxDatagram).decoder.Idle := ⟨rfl, rfl⟩
  refine ⟨DatagramCapsules.Holds.agree hidle.holds (by simp [IpCapsules.new,
    DatagramCapsules.withIpControls]) hwithin, CapsuleDecoder.visible_feed rfl rfl chunks⟩

/-- A datagram and a capsule of an unknown type, both cut, and the beginning of a third one. -/
theorem capsuleDecoders_agree_cut :
    DecodersAgree (.withMaxCapsuleSize 1024) (.new 1500) [[0, 2, 0], [7, 63, 1], [9, 0]] := by
  refine (capsuleDecoders_agree 1024 1500 _ ?_).1
  refine .of_split rfl (by decide) (fun limit hlimit => ?_) fun _ => ?_
  · cases hlimit
    decide
  · exact .of_split rfl (by decide) (fun limit hlimit => by cases hlimit) fun _ => .of_none rfl

end MasqueServer
