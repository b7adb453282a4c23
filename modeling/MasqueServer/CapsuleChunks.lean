import MasqueServer.CapsuleParser
import MasqueServer.FramedStreams

/-!
# Capsules in chunks

The streaming parser sees a request body in the chunks in which it happens to arrive. It reads
the same capsules wherever they are cut, and it finds in them what there is to find in a stream
of frames: the parser between two chunks stands for the beginning of a capsule that it has not
seen the end of.
-/
namespace MasqueServer

open List Option

def splitHeader (octets : Bytes) : Option ((ℕ × ℕ) × Bytes) :=
  match Varint.decode octets with
  | .error _ => none
  | .ok (kind, typeLen) =>
    match Varint.decode (octets.drop typeLen) with
    | .error _ => none
    | .ok (length, lengthLen) => some ((kind, length), octets.drop (typeLen + lengthLen))

lemma splitHeader_eq_some {octets body : Bytes} {kind length : ℕ} :
    splitHeader octets = some ((kind, length), body) ↔
      ∃ t l, octets = t ++ l ++ body ∧ Varint.decode t = .ok (kind, t.length) ∧
        Varint.decode l = .ok (length, l.length) := by
  constructor
  · intro h
    unfold splitHeader at h
    split at h
    · cases h
    · rename_i k typeLen hkind
      split at h
      · cases h
      · rename_i n lengthLen hlength
        cases h
        have hk := Varint.decode_bounds hkind
        have hn := Varint.decode_bounds hlength
        rw [length_drop] at hn
        refine ⟨octets.take typeLen, (octets.drop typeLen).take lengthLen, ?_, ?_, ?_⟩
        · rw [append_assoc, ← drop_drop, take_append_drop, take_append_drop]
        · rw [length_take_of_le hk.2.2]
          exact Varint.decode_take hkind le_rfl
        · rw [length_take_of_le (by rw [length_drop]; omega)]
          exact Varint.decode_take hlength le_rfl
  · rintro ⟨t, l, rfl, ht, hl⟩
    unfold splitHeader
    rw [append_assoc, Varint.decode_append ht]
    simp only [drop_left]
    rw [Varint.decode_append hl]
    simp only
    rw [← drop_drop, drop_left, drop_left]

lemma readHeader_eq (octets : Bytes) :
    readHeader octets = (splitHeader octets).map Prod.fst := by
  unfold readHeader splitHeader
  cases Varint.decode octets with
  | error e => rfl
  | ok p =>
    obtain ⟨kind, typeLen⟩ := p
    dsimp only
    cases Varint.decode (octets.drop typeLen) <;> rfl

def capsuleFraming : Framing UInt8 (ℕ × ℕ) where
  split := splitHeader
  size := Prod.snd
  split_append := by
    rintro xs ⟨kind, length⟩ body h ys
    obtain ⟨t, l, rfl, ht, hl⟩ := splitHeader_eq_some.mp h
    exact splitHeader_eq_some.mpr ⟨t, l, append_assoc _ _ _, ht, hl⟩
  split_eq := by
    rintro xs ⟨kind, length⟩ body h
    obtain ⟨t, l, rfl, ht, hl⟩ := splitHeader_eq_some.mp h
    have hne : t ≠ [] := by
      rw [← length_pos_iff]
      exact (Varint.decode_bounds ht).1
    refine ⟨t ++ l, by simp [hne], rfl, ?_⟩
    exact splitHeader_eq_some.mpr ⟨t, l, (append_nil _).symm, ht, hl⟩

namespace DatagramCapsules

variable {γ : Type} {receive : ℕ → Bytes → Except DecodeError γ} {d d' : DatagramCapsules}
  {data more : Bytes}

/-! ### Where the chunks are cut -/

lemma andThen_eq_chain (rest : Bytes) (p : DatagramCapsules × Option (ℕ × Bytes)) :
    andThen receive rest p =
      chain ((emit receive p.2).map fun frames => (p.1, frames)) fun d =>
        d.decodeWith receive rest := by
  unfold andThen
  cases emit receive p.2 with
  | error e => rfl
  | ok frames =>
    simp only [bind, Except.bind, Except.map, chain]
    cases p.1.decodeWith receive rest <;> rfl

lemma takeValue_append_of_le (hle : d.remaining ≤ data.length) :
    d.takeValue (data ++ more) = d.takeValue data := by
  simp only [takeValue, length_append]
  rw [Nat.min_eq_left hle, Nat.min_eq_left (by omega), take_append_of_le_length hle]

lemma takeValue_of_lt (hlt : data.length < d.remaining) :
    d.takeValue data = ({ d with remaining := d.remaining - data.length,
                                 value := d.value.map (· ++ data) }, none) := by
  simp only [takeValue, Nat.min_eq_right hlt.le, take_length]
  rw [if_neg (by omega)]

lemma takeValue_takeValue (hlt : data.length < d.remaining) :
    (d.takeValue data).1.takeValue more = d.takeValue (data ++ more) := by
  rw [takeValue_of_lt hlt]
  simp only [takeValue, length_append, Option.map_map]
  have htake : min d.remaining (data.length + more.length) =
      data.length + min (d.remaining - data.length) more.length := by omega
  have hvalue : (fun v => v ++ more.take (min (d.remaining - data.length) more.length)) ∘
    (· ++ data) =
      fun v : Bytes => v ++ (data ++ more).take
        (min d.remaining (data.length + more.length)) := by
    funext v
    rw [htake, take_length_add_append]
    simp
  rw [hvalue, htake, Nat.sub_add_eq]

theorem decodeWith_append (d : DatagramCapsules) (data more : Bytes) :
    d.decodeWith receive (data ++ more) =
      chain (d.decodeWith receive data) fun d => d.decodeWith receive more := by
  induction hn : data.length using Nat.strong_induction_on generalizing d data with
  | _ n ih =>
    have hthen (rest : Bytes) (hrest : rest.length < n)
        (p : DatagramCapsules × Option (ℕ × Bytes)) :
        andThen receive (rest ++ more) p =
          chain (andThen receive rest p) fun d => d.decodeWith receive more := by
      rw [andThen_eq_chain, andThen_eq_chain, chain_assoc]
      congr 1
      funext d
      exact ih rest.length hrest d rest rfl
    cases data with
    | nil => simp
    | cons byte rest =>
      rw [length_cons] at hn
      by_cases hzero : d.remaining = 0
      · rw [cons_append]
        cases hheader : readHeader (d.header ++ [byte]) with
        | none =>
          rw [decodeWith_header hzero hheader, decodeWith_header hzero hheader]
          exact ih rest.length (by omega) _ rest rfl
        | some p =>
          rw [decodeWith_begin hzero hheader, decodeWith_begin hzero hheader]
          cases d.beginValue p.1 p.2 with
          | error e => rfl
          | ok q => exact hthen rest (by omega) q
      · by_cases hle : d.remaining ≤ (byte :: rest).length
        · rw [decodeWith_value hzero (by simp), decodeWith_value hzero (by simp),
            takeValue_append_of_le hle, drop_append_of_le_length hle]
          refine hthen _ ?_ _
          rw [length_drop, length_cons]
          omega
        · rw [Nat.not_le] at hle
          cases more with
          | nil => simp
          | cons next more =>
            have hpos : ((d.takeValue (byte :: rest)).1).remaining ≠ 0 := by
              rw [takeValue_of_lt hle]
              exact Nat.sub_ne_zero_of_lt hle
            have hfirst : d.decodeWith receive (byte :: rest) =
                .ok ((d.takeValue (byte :: rest)).1, []) := by
              rw [decodeWith_value hzero (by simp), drop_of_length_le hle.le,
                takeValue_of_lt hle, andThen_none, decodeWith_nil]
            rw [hfirst, chain_ok_nil, decodeWith_value hpos (by simp),
              decodeWith_value hzero (by simp), takeValue_takeValue hle, takeValue_of_lt hle,
              drop_append, drop_of_length_le hle.le, nil_append]

theorem decodeWith_incremental (receive : ℕ → Bytes → Except DecodeError γ) :
    Incremental fun (d : DatagramCapsules) data => d.decodeWith receive data :=
  ⟨fun _ => rfl, decodeWith_append⟩

/-! ### What there is to find -/

def handler (receive : ℕ → Bytes → Except DecodeError γ) (d : DatagramCapsules) :
    FrameHandler UInt8 (ℕ × ℕ) γ DecodeError where
  check := fun (kind, length) =>
    match d.limitFor kind with
    | some limit => if limit < length then .error (.tooLarge length limit) else .ok ()
    | none => .ok ()
  receive := fun (kind, _) value =>
    match d.limitFor kind with
    | some _ => (receive kind value).map fun frame => [frame]
    | none => .ok []

def Idle (d : DatagramCapsules) : Prop := d.header = [] ∧ d.remaining = 0

lemma isPartial_eq_false : d.isPartial = false ↔ d.Idle := by
  simp [isPartial, Idle]

variable {octets body : Bytes} {kind length : ℕ} {frames : List γ}
  {out : Except DecodeError Bytes}

lemma readHeader_eq_none_of_append {more : Bytes} (h : readHeader (octets ++ more) = none) :
    readHeader octets = none := by
  rw [readHeader_eq, map_eq_none_iff] at h ⊢
  by_contra hsome
  obtain ⟨⟨header, body⟩, hsplit⟩ := ne_none_iff_exists'.mp hsome
  have hmore := capsuleFraming.split_append octets header body hsplit more
  exact absurd (h.symm.trans hmore) (by simp)

lemma decodeWith_short (hzero : d.remaining = 0) (h : readHeader (d.header ++ data) = none) :
    d.decodeWith receive data =
      .ok ({ d with header := d.header ++ data, incomplete := h }, []) := by
  induction data generalizing d with
  | nil => simp
  | cons byte rest ih =>
    have happ : d.header ++ byte :: rest = d.header ++ [byte] ++ rest := by simp
    have hnone : readHeader (d.header ++ [byte]) = none :=
      readHeader_eq_none_of_append (happ ▸ h)
    rw [decodeWith_header hzero hnone, ih
      (d := { d with header := d.header ++ [byte], incomplete := hnone })
      hzero (happ ▸ h)]
    simp

lemma decodeWith_split (hidle : d.Idle) (h : splitHeader octets = some ((kind, length), body)) :
    d.decodeWith receive octets = d.beginValue kind length >>= andThen receive body := by
  obtain ⟨t, l, rfl, ht, hl⟩ := splitHeader_eq_some.mp h
  have hne : t ++ l ≠ [] := by
    have hb := Varint.decode_bounds ht
    rw [← length_pos_iff, length_append]
    omega
  refine decodeWith_headers hidle.2 hne ?_ ?_
  · rw [hidle.1, nil_append]
    exact fun n hn => readHeader_take ht hl hn
  · rw [hidle.1, nil_append]
    exact readHeader_append ht hl

lemma decodeWith_waiting (hidle : d.Idle)
    (hsplit : splitHeader octets = some ((kind, length), body))
    (hcheck : (d.handler receive).check (kind, length) = .ok ()) (hbody : body.length < length) :
    ∃ d', d.decodeWith receive octets = .ok (d', []) ∧ d'.remaining ≠ 0 ∧
      d'.limitFor = d.limitFor := by
  have hrest (begun : DatagramCapsules) (hremaining : begun.remaining = length)
      (hlimits : begun.limitFor = d.limitFor) :
      ∃ d', begun.decodeWith receive body = .ok (d', []) ∧ d'.remaining ≠ 0 ∧
        d'.limitFor = d.limitFor := by
    by_cases hnil : body = []
    · subst hnil
      exact ⟨begun, rfl, by simp at hbody; omega, hlimits⟩
    · rw [decodeWith_value (by omega) hnil, takeValue_of_lt (by omega), andThen_none,
        drop_of_length_le (by omega)]
      exact ⟨_, rfl, by simp only; omega, hlimits⟩
  rw [decodeWith_split hidle hsplit]
  unfold beginValue
  simp only [handler] at hcheck
  cases hlimit : d.limitFor kind with
  | none =>
    have hlimit' : limitFor { d with header := [], incomplete := rfl, remaining := length, kind }
        kind = none := hlimit
    simp only [hlimit', bind, Except.bind, andThen_none]
    exact hrest _ rfl rfl
  | some limit =>
    have hlimit' : limitFor { d with header := [], incomplete := rfl, remaining := length, kind }
        kind = some limit := hlimit
    rw [hlimit] at hcheck
    have hle : ¬limit < length := by
      intro hlt
      simp [hlt] at hcheck
    simp only [hlimit', if_neg hle, if_neg (by omega : ¬length = 0), bind, Except.bind,
      andThen_none]
    exact hrest _ rfl rfl

lemma decodeWith_frame (hidle : d.Idle) (hsplit : splitHeader octets = some ((kind, length), body))
    (hcheck : (d.handler receive).check (kind, length) = .ok ()) (hbody : length ≤ body.length) :
    d.decodeWith receive octets =
      chain (((d.handler receive).receive (kind, length) (body.take length)).map
          fun frames => (d.cleared kind, frames))
        fun d => d.decodeWith receive (body.drop length) := by
  rw [decodeWith_split hidle hsplit]
  unfold beginValue
  simp only [handler] at hcheck ⊢
  cases hlimit : d.limitFor kind with
  | none =>
    have hlimit' : limitFor { d with header := [], incomplete := rfl, remaining := length, kind }
        kind = none := hlimit
    simp only [hlimit', bind, Except.bind, andThen_none, Except.map, chain_ok_nil]
    by_cases hzero : length = 0
    · subst hzero
      rfl
    · have hne : body ≠ [] := by
        rw [← length_pos_iff]
        omega
      rw [decodeWith_value hzero hne]
      simp only [takeValue, Nat.min_eq_left hbody, Nat.sub_self, if_true, map_none]
      rw [andThen_none]
      rfl
  | some limit =>
    have hlimit' : limitFor { d with header := [], incomplete := rfl, remaining := length, kind }
        kind = some limit := hlimit
    rw [hlimit] at hcheck
    have hle : ¬limit < length := by
      intro hlt
      simp [hlt] at hcheck
    simp only [hlimit', if_neg hle]
    by_cases hzero : length = 0
    · subst hzero
      simp only [if_true, bind, Except.bind, andThen_eq_chain, emit, take_zero]
      rfl
    · have hne : body ≠ [] := by
        rw [← length_pos_iff]
        omega
      simp only [if_neg hzero, bind, Except.bind, andThen_none]
      rw [decodeWith_value hzero hne, andThen_eq_chain]
      simp only [takeValue, Nat.min_eq_left hbody, Nat.sub_self, if_true, map_some, emit,
        nil_append]
      rfl

/-- The parser has read the beginning of a capsule, and nothing else. -/
structure Holds (receive : ℕ → Bytes → Except DecodeError γ) (d : DatagramCapsules)
    (pending : Bytes) : Prop where
  read : ∃ idle : DatagramCapsules, idle.Idle ∧ idle.limitFor = d.limitFor ∧
    idle.decodeWith receive pending = .ok (d, [])
  isPartial_iff : d.isPartial = false ↔ pending = []

lemma Idle.holds (hidle : d.Idle) : Holds receive d [] :=
  ⟨⟨d, hidle, rfl, rfl⟩, by simp [isPartial_eq_false, hidle]⟩

lemma handler_congr (h : d'.limitFor = d.limitFor) : d'.handler receive = d.handler receive := by
  simp only [handler, h]

/-- The parser's answer agrees with what was found. -/
def Finds (receive : ℕ → Bytes → Except DecodeError γ) (d : DatagramCapsules)
    (data : Bytes) (frames : List γ) : Except DecodeError Bytes → Prop
  | .error e => d.decodeWith receive data = .error e
  | .ok rest => ∃ d', d.decodeWith receive data = .ok (d', frames) ∧ Holds receive d' rest ∧
      d'.limitFor = d.limitFor

theorem Idle.finds (hidle : d.Idle)
    (hs : capsuleFraming.Scans (d.handler receive) octets frames out) :
    Finds receive d octets frames out := by
  generalize hhandler : d.handler receive = h at hs
  induction hs generalizing d with
  | @short xs hsplit =>
    have hnone : readHeader (d.header ++ xs) = none := by
      rw [hidle.1, nil_append, readHeader_eq, map_eq_none_iff]
      exact hsplit
    refine ⟨_, decodeWith_short hidle.2 hnone,
      ⟨⟨d, hidle, rfl, decodeWith_short hidle.2 hnone⟩, ?_⟩,
      rfl⟩
    simp [isPartial, hidle.1, hidle.2]
  | @refused xs header body e hsplit hcheck =>
    unfold Finds
    rw [decodeWith_split hidle hsplit]
    rw [← hhandler] at hcheck
    unfold beginValue
    simp only [handler] at hcheck
    have hfor : limitFor
          { d with header := [], incomplete := rfl, remaining := header.2, kind := header.1 }
        header.1 = d.limitFor header.1 := rfl
    simp only [hfor]
    cases hlimit : d.limitFor header.1 with
    | none => simp [hlimit] at hcheck
    | some limit =>
      simp only [hlimit] at hcheck ⊢
      split_ifs at hcheck with hlt
      cases hcheck
      simp [hlt, bind, Except.bind]
  | @waiting xs header body hsplit hcheck hbody =>
    rw [← hhandler] at hcheck
    obtain ⟨d', hd', hremaining, hlimits⟩ := decodeWith_waiting hidle hsplit hcheck hbody
    refine ⟨d', hd', ⟨⟨d, hidle, hlimits.symm, hd'⟩, ?_⟩, hlimits⟩
    have hne : xs ≠ [] := by
      rintro rfl
      exact absurd (capsuleFraming.split_nil.symm.trans hsplit) (by simp)
    simp [isPartial, hremaining, hne]
  | @malformed xs header body e hsplit hcheck hbody hreceive =>
    rw [← hhandler] at hcheck hreceive
    unfold Finds
    rw [decodeWith_frame hidle hsplit hcheck hbody]
    have hvalue : (d.handler receive).receive (header.1, header.2) (body.take header.2) =
      .error e :=
      hreceive
    rw [hvalue]
    rfl
  | @frame xs header body frames more out hsplit hcheck hbody hreceive hrest ih =>
    rw [← hhandler] at hcheck hreceive
    have hvalue : (d.handler receive).receive (header.1, header.2) (body.take header.2) =
      .ok frames :=
      hreceive
    have hstep : d.decodeWith receive xs =
        chain (.ok (d.cleared header.1, frames)) fun d =>
          d.decodeWith receive (body.drop header.2) := by
      rw [decodeWith_frame hidle hsplit hcheck hbody, hvalue]
      rfl
    have hcleared := ih (d := d.cleared header.1) ⟨rfl, rfl⟩ hhandler
    cases out with
    | error e =>
      unfold Finds at hcleared ⊢
      rw [hstep, chain_ok]
      exact congrArg _ hcleared
    | ok rest =>
      obtain ⟨d', hd', hholds, hsame⟩ := hcleared
      refine ⟨d', ?_, hholds, hsame⟩
      rw [hstep, chain_ok]
      exact congrArg _ hd'

theorem Holds.finds {pending : Bytes} (hholds : Holds receive d pending)
    (hs : capsuleFraming.Scans (d.handler receive) (pending ++ data) frames out) :
    Finds receive d data frames out := by
  obtain ⟨idle, hidle, hlimits, hread⟩ := hholds.read
  have hdecode : idle.decodeWith receive (pending ++ data) = d.decodeWith receive data := by
    rw [decodeWith_append, hread, chain_ok_nil]
  rw [← handler_congr hlimits] at hs
  have hfinds := hidle.finds hs
  unfold Finds at hfinds ⊢
  rwa [hdecode, hlimits] at hfinds

lemma Idle.scans_of_ok (hidle : d.Idle) (h : d.decodeWith receive octets = .ok (d', frames)) :
    ∃ rest, capsuleFraming.Scans (d.handler receive) octets frames (.ok rest) ∧
      Holds receive d' rest := by
  obtain ⟨frames', out, hs⟩ := capsuleFraming.exists_scans (d.handler receive) octets
  have hfinds := hidle.finds hs
  cases out with
  | error e => exact absurd (h.symm.trans hfinds) (by simp)
  | ok rest =>
    obtain ⟨d'', hd'', hholds, -⟩ := hfinds
    rw [h] at hd''
    cases hd''
    exact ⟨rest, hs, hholds⟩

lemma Idle.scans_of_error {e : DecodeError} (hidle : d.Idle)
    (h : d.decodeWith receive octets = .error e) :
    ∃ frames, capsuleFraming.Scans (d.handler receive) octets frames (.error e) := by
  obtain ⟨frames, out, hs⟩ := capsuleFraming.exists_scans (d.handler receive) octets
  have hfinds := hidle.finds hs
  cases out with
  | error e' =>
    have heq := h.symm.trans hfinds
    cases heq
    exact ⟨frames, hs⟩
  | ok rest =>
    obtain ⟨d'', hd'', -⟩ := hfinds
    rw [h] at hd''
    cases hd''

/-! ### What is buffered -/

/-- What is kept of a value, with what is still to come, is within the limit of its type. -/
def Bounded (d : DatagramCapsules) : Prop :=
  ∀ value, d.value = some value →
    ∃ limit, d.limitFor d.kind = some limit ∧ value.length + d.remaining ≤ limit

lemma beginValue_bounded {out : Option (ℕ × Bytes)}
    (h : d.beginValue kind length = .ok (d', out)) : d'.Bounded := by
  unfold beginValue at h
  dsimp only at h
  split at h
  · rename_i limit hlimit
    split_ifs at h with hlt hzero
    · cases h
      exact fun value hvalue => by cases hvalue
    · cases h
      intro value hvalue
      cases hvalue
      exact ⟨limit, hlimit, by simp only [length_nil]; omega⟩
  · cases h
    exact fun value hvalue => by cases hvalue

lemma takeValue_bounded (h : d.Bounded) : (d.takeValue data).1.Bounded := by
  unfold takeValue
  dsimp only
  split_ifs with hzero
  · exact fun value hvalue => by cases hvalue
  · intro value hvalue
    obtain ⟨value', hvalue', rfl⟩ := map_eq_some_iff.mp hvalue
    obtain ⟨limit, hlimit, hle⟩ := h value' hvalue'
    refine ⟨limit, hlimit, ?_⟩
    simp only [length_append, length_take]
    omega

lemma decodeWith_single_bounded {byte : UInt8} (h : d.Bounded)
    (hstep : d.decodeWith receive [byte] = .ok (d', frames)) : d'.Bounded := by
  have hthen (p : DatagramCapsules × Option (ℕ × Bytes)) (hp : p.1.Bounded)
      (hrest : andThen receive [] p = .ok (d', frames)) : d'.Bounded := by
    unfold andThen at hrest
    rw [bind_ok_iff] at hrest
    obtain ⟨out, -, hrest⟩ := hrest
    rw [decodeWith_nil] at hrest
    cases hrest
    exact hp
  by_cases hzero : d.remaining = 0
  · cases hheader : readHeader (d.header ++ [byte]) with
    | none =>
      rw [decodeWith_header hzero hheader] at hstep
      cases hstep
      exact h
    | some p =>
      rw [decodeWith_begin hzero hheader, bind_ok_iff] at hstep
      obtain ⟨q, hbegin, hrest⟩ := hstep
      exact hthen q (beginValue_bounded hbegin) hrest
  · rw [decodeWith_value hzero (by simp)] at hstep
    have hdrop : [byte].drop d.remaining = [] := by
      rw [drop_eq_nil_iff]
      simp only [length_singleton]
      omega
    rw [hdrop] at hstep
    exact hthen _ (takeValue_bounded h) hstep

lemma decodeWith_bounded (h : d.Bounded) (hd' : d.decodeWith receive data = .ok (d', frames)) :
    d'.Bounded :=
  (decodeWith_incremental receive).invariant (fun _ _ _ _ => decodeWith_single_bounded) h hd'

lemma limitFor_of_unknown (hdatagram : kind ≠ capsuleDatagram)
    (hassign : kind ≠ capsuleAddressAssign) (hrequest : kind ≠ capsuleAddressRequest)
    (hroute : kind ≠ capsuleRouteAdvertisement) : d.limitFor kind = none := by
  simp [limitFor, hdatagram, hassign, hrequest, hroute]

def decode (d : DatagramCapsules) (data : Bytes) :
    Except DecodeError (DatagramCapsules × List Bytes) :=
  d.decodeWith (fun _ value => .ok value) data

end DatagramCapsules

/-! ### The parsers -/

def Offends {γ : Type} (receive : ℕ → Bytes → Except DecodeError γ) (d : DatagramCapsules)
    (tail : Bytes) (e : DecodeError) : Prop :=
  ∃ kind length body limit, splitHeader tail = some ((kind, length), body) ∧
    d.limitFor kind = some limit ∧
    (limit < length ∧ e = .tooLarge length limit ∨
      length ≤ body.length ∧ receive kind (body.take length) = .error e)

/-- A parser, with the state machine it is made of, reads a stream the same however it is cut,
answers what is before the first offence, knows when it is between capsules, and buffers within
its limits. -/
structure ReadsInChunks {σ γ : Type} (decode : σ → Bytes → Except DecodeError (σ × List γ))
    (receive : ℕ → Bytes → Except DecodeError γ) (parser : σ → DatagramCapsules) (start : σ) :
    Prop where
  feed_eq : ∀ s chunks, feed decode s chunks = decode s chunks.flatten
  delivered_before : ∀ chunks e, feed decode start chunks = .error e →
    ∃ done tail s frames, chunks.flatten = done ++ tail ∧ capsuleFraming.Whole done ∧
      decode start done = .ok (s, frames) ∧ Offends receive (parser start) tail e ∧
      delivered decode start chunks <+: frames
  isPartial_iff : ∀ chunks s frames, feed decode start chunks = .ok (s, frames) →
    ((parser s).isPartial = false ↔ capsuleFraming.Whole chunks.flatten)
  header_room : ∀ chunks s frames, feed decode start chunks = .ok (s, frames) →
    (parser s).header.length + 1 ≤ 16
  value_bounded : ∀ chunks s frames value, feed decode start chunks = .ok (s, frames) →
    (parser s).value = some value →
    ∃ limit, (parser s).limitFor (parser s).kind = some limit ∧ value.length ≤ limit
  unknown_skipped : ∀ chunks s frames, feed decode start chunks = .ok (s, frames) →
    (parser s).kind ≠ capsuleDatagram → (parser s).kind ≠ capsuleAddressAssign →
    (parser s).kind ≠ capsuleAddressRequest → (parser s).kind ≠ capsuleRouteAdvertisement →
    (parser s).value = none

section Wrapped

open DatagramCapsules

variable {σ γ : Type} {decode : σ → Bytes → Except DecodeError (σ × List γ)}
  {receive : ℕ → Bytes → Except DecodeError γ} {parser : σ → DatagramCapsules}

lemma offends_of_handler {d : DatagramCapsules} {tail body : Bytes} {header : ℕ × ℕ}
    {e : DecodeError} (hsplit : splitHeader tail = some (header, body))
    (hoffends : (d.handler receive).check header = .error e ∨ header.2 ≤ body.length ∧
      (d.handler receive).receive header (body.take header.2) = .error e) :
    Offends receive d tail e := by
  obtain ⟨kind, length⟩ := header
  simp only [handler] at hoffends
  cases hlimit : d.limitFor kind with
  | none => simp [hlimit] at hoffends
  | some limit =>
    simp only [hlimit] at hoffends
    refine ⟨kind, length, body, limit, hsplit, hlimit, ?_⟩
    rcases hoffends with hlarge | ⟨hle, hrefused⟩
    · split_ifs at hlarge with hlt
      cases hlarge
      exact .inl ⟨hlt, rfl⟩
    · refine .inr ⟨hle, ?_⟩
      cases hvalue : receive kind (body.take length) with
      | error e' =>
        rw [hvalue] at hrefused
        cases hrefused
        rfl
      | ok frame =>
        rw [hvalue] at hrefused
        cases hrefused

theorem readsInChunks_of_wrap (wrap : DatagramCapsules → σ) (hwrap : ∀ s, wrap (parser s) = s)
    (hparser : ∀ d, parser (wrap d) = d)
    (hdecode : ∀ s data, decode s data =
      ((parser s).decodeWith receive data).map fun p => (wrap p.1, p.2))
    {start : σ} (hidle : (parser start).Idle) (hbounded : (parser start).Bounded) :
    ReadsInChunks decode receive parser start := by
  have hok {s s' : σ} {data : Bytes} {frames : List γ} :
      decode s data = .ok (s', frames) ↔
        (parser s).decodeWith receive data = .ok (parser s', frames) := by
    rw [hdecode]
    cases (parser s).decodeWith receive data with
    | error e => simp [Except.map]
    | ok p =>
      obtain ⟨d, out⟩ := p
      simp only [Except.map, Except.ok.injEq, Prod.mk.injEq]
      constructor
      · rintro ⟨rfl, rfl⟩
        exact ⟨(hparser d).symm, rfl⟩
      · rintro ⟨rfl, rfl⟩
        exact ⟨hwrap s', rfl⟩
  have hincremental : Incremental decode := by
    refine ⟨fun s => hok.mpr rfl, fun s xs ys => ?_⟩
    rw [hdecode, hdecode, decodeWith_append]
    cases (parser s).decodeWith receive xs with
    | error e => rfl
    | ok p =>
      simp only [Except.map, chain_ok]
      rw [chain_ok, hdecode, hparser]
      cases p.1.decodeWith receive ys <;> rfl
  have hfed {chunks : List Bytes} {s : σ} {frames : List γ}
      (h : feed decode start chunks = .ok (s, frames)) :
      (parser start).decodeWith receive chunks.flatten = .ok (parser s, frames) := by
    rw [hincremental.feed_eq] at h
    exact hok.mp h
  refine ⟨hincremental.feed_eq, fun chunks e h => ?_, fun chunks s frames h => ?_,
    fun chunks s frames h => ?_, fun chunks s frames value h hvalue => ?_,
    fun chunks s frames h hdatagram hassign hrequest hroute => ?_⟩
  · rw [hincremental.feed_eq, hdecode] at h
    have herror : (parser start).decodeWith receive chunks.flatten = .error e := by
      cases hd : (parser start).decodeWith receive chunks.flatten with
      | error e' =>
        rw [hd] at h
        cases h
        rfl
      | ok p =>
        rw [hd] at h
        cases h
    obtain ⟨frames, hs⟩ := hidle.scans_of_error herror
    obtain ⟨done, tail, header, body, hflatten, hdone, hsplit, hoffends⟩ := hs.offending
    obtain ⟨d, hd, -⟩ := hidle.finds hdone
    refine ⟨done, tail, wrap d, frames, hflatten, (hdone.rest_eq_nil_iff.mp rfl), ?_,
      offends_of_handler hsplit hoffends, ?_⟩
    · rw [hok, hparser]
      exact hd
    · obtain ⟨xs, ys, s', hxs, hdelivered⟩ := hincremental.exists_delivered start chunks
      obtain ⟨rest, hs', -⟩ := hidle.scans_of_ok (hok.mp hdelivered)
      obtain ⟨more, out, hmore⟩ := capsuleFraming.exists_scans ((parser start).handler receive)
        (rest ++ ys)
      have hall := hs'.append hmore
      rw [← hxs] at hall
      rw [(hs.det hall).1]
      exact prefix_append _ _
  · obtain ⟨rest, hs, hholds⟩ := hidle.scans_of_ok (hfed h)
    rw [hholds.isPartial_iff, hs.rest_eq_nil_iff]
  · exact length_lt_of_incomplete (parser s).incomplete
  · obtain ⟨limit, hlimit, hle⟩ := decodeWith_bounded hbounded (hfed h) value hvalue
    exact ⟨limit, hlimit, by omega⟩
  · by_contra hsome
    obtain ⟨value, hvalue⟩ := ne_none_iff_exists'.mp hsome
    obtain ⟨limit, hlimit, -⟩ := decodeWith_bounded hbounded (hfed h) value hvalue
    rw [limitFor_of_unknown hdatagram hassign hrequest hroute] at hlimit
    cases hlimit

end Wrapped

/-- Both streaming parsers read a stream of capsules the same however it is cut. -/
theorem streamingParsers_readInChunks :
    (∀ limit, ReadsInChunks DatagramCapsules.decode (fun _ value => .ok value) id (.new limit)) ∧
    ∀ maxDatagram, ReadsInChunks IpCapsules.decode IpCapsules.frame IpCapsules.decoder
      (.new maxDatagram) := by
  constructor
  · intro limit
    refine readsInChunks_of_wrap id (fun _ => rfl) (fun _ => rfl) (fun d data => ?_) ⟨rfl, rfl⟩
      (fun value hvalue => by cases hvalue)
    rw [DatagramCapsules.decode]
    cases d.decodeWith _ data <;> rfl
  · intro maxDatagram
    refine readsInChunks_of_wrap IpCapsules.mk (fun _ => rfl) (fun _ => rfl) (fun c data => ?_)
      ⟨rfl, rfl⟩ (fun value hvalue => by cases hvalue)
    rw [IpCapsules.decode]
    cases c.decoder.decodeWith IpCapsules.frame data <;> rfl

end MasqueServer
