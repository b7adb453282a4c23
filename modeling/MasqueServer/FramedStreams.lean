import Mathlib.Data.List.Basic

/-!
# Streams in chunks and streams of frames

A reader takes the chunks of a stream as they arrive and answers frames, or an error. It is
incremental if it cannot tell where the chunks were cut; feeding it chunks is then feeding it their
concatenation.
-/
namespace MasqueServer

open List

section Chunks

variable {σ α γ ε : Type*}

variable (r : Except ε (σ × List γ))

def chain (k : σ → Except ε (σ × List γ)) : Except ε (σ × List γ) :=
  r.bind fun p => (k p.1).map fun q => (q.1, p.2 ++ q.2)

theorem chain_ok (s : σ) (frames : List γ) (k : σ → Except ε (σ × List γ)) :
    chain (.ok (s, frames)) k = (k s).map fun q => (q.1, frames ++ q.2) := rfl

@[simp] theorem chain_ok_nil (s : σ) (k : σ → Except ε (σ × List γ)) :
    chain (.ok (s, [])) k = k s := by
  rw [chain_ok]
  cases k s <;> rfl

@[simp] theorem chain_pure : chain r (fun s => .ok (s, [])) = r := by
  cases r with
  | error e => rfl
  | ok p => simp [chain, Except.bind, Except.map]

theorem chain_assoc (k l : σ → Except ε (σ × List γ)) :
    chain (chain r k) l = chain r fun s => chain (k s) l := by
  cases r with
  | error e => rfl
  | ok p =>
    rw [chain_ok, chain_ok]
    cases k p.1 with
    | error e => rfl
    | ok q =>
      simp only [chain, Except.bind, Except.map]
      cases l q.1 <;> simp

/-- The reader cannot tell where its input was cut. -/
structure Incremental (decode : σ → List α → Except ε (σ × List γ)) : Prop where
  nil : ∀ s, decode s [] = .ok (s, [])
  append : ∀ s xs ys, decode s (xs ++ ys) = chain (decode s xs) fun s' => decode s' ys

def feed (decode : σ → List α → Except ε (σ × List γ)) : σ → List (List α) → Except ε (σ × List γ)
  | s, [] => .ok (s, [])
  | s, chunk :: chunks => chain (decode s chunk) fun s' => feed decode s' chunks

def delivered (decode : σ → List α → Except ε (σ × List γ)) : σ → List (List α) → List γ
  | _, [] => []
  | s, chunk :: chunks =>
    match decode s chunk with
    | .error _ => []
    | .ok (s', frames) => frames ++ delivered decode s' chunks

namespace Incremental

variable {decode : σ → List α → Except ε (σ × List γ)} (h : Incremental decode)
include h

theorem feed_eq (s : σ) (chunks : List (List α)) :
    feed decode s chunks = decode s chunks.flatten := by
  induction chunks generalizing s with
  | nil => exact (h.nil s).symm
  | cons chunk chunks ih =>
    rw [flatten_cons, h.append, feed]
    congr 1
    funext s'
    exact ih s'

theorem exists_delivered (s : σ) (chunks : List (List α)) :
    ∃ xs ys s', chunks.flatten = xs ++ ys ∧ decode s xs = .ok (s', delivered decode s chunks) := by
  induction chunks generalizing s with
  | nil => exact ⟨[], [], s, rfl, h.nil s⟩
  | cons chunk chunks ih =>
    unfold delivered
    split
    · exact ⟨[], (chunk :: chunks).flatten, s, rfl, h.nil s⟩
    · rename_i s' frames hchunk
      obtain ⟨xs, ys, t, hflatten, hxs⟩ := ih s'
      refine ⟨chunk ++ xs, ys, t, by rw [flatten_cons, hflatten, append_assoc], ?_⟩
      rw [h.append, hchunk, chain_ok, hxs]
      rfl

theorem invariant {Inv : σ → Prop}
    (hstep : ∀ s a s' frames, Inv s → decode s [a] = .ok (s', frames) → Inv s') {s s' : σ}
    {xs : List α} {frames : List γ} (hs : Inv s) (hxs : decode s xs = .ok (s', frames)) :
      Inv s' := by
  induction xs generalizing s frames with
  | nil =>
    rw [h.nil] at hxs
    cases hxs
    exact hs
  | cons a xs ih =>
    rw [← singleton_append, h.append] at hxs
    cases ha : decode s [a] with
    | error e =>
      rw [ha] at hxs
      cases hxs
    | ok p =>
      rw [ha, chain_ok] at hxs
      cases hrest : decode p.1 xs with
      | error e =>
        rw [hrest] at hxs
        cases hxs
      | ok q =>
        rw [hrest] at hxs
        cases hxs
        exact ih (hstep s a p.1 p.2 hs ha) hrest

end Incremental

end Chunks

/-- How a header is told from what follows it, and the size of the body it declares. -/
structure Framing (α η : Type*) where
  split : List α → Option (η × List α)
  size : η → ℕ
  split_append : ∀ xs header body, split xs = some (header, body) →
    ∀ ys, split (xs ++ ys) = some (header, body ++ ys)
  split_eq : ∀ xs header body, split xs = some (header, body) →
    ∃ octets, octets ≠ [] ∧ xs = octets ++ body ∧ split octets = some (header, [])

/-- What a reader does with a header, before its body is there, and with a whole frame. -/
structure FrameHandler (α η γ ε : Type*) where
  check : η → Except ε Unit
  receive : η → List α → Except ε (List γ)

namespace Framing

variable {α η γ ε : Type*} {f : Framing α η} {xs ys : List α}

lemma length_lt_of_split {header : η} {body : List α} (h : f.split xs = some (header, body)) :
    body.length < xs.length := by
  obtain ⟨octets, hne, rfl, -⟩ := f.split_eq xs header body h
  rw [length_append]
  have := length_pos_iff.mpr hne
  omega

lemma split_nil (f : Framing α η) : f.split [] = none := by
  by_contra h
  obtain ⟨⟨header, body⟩, hsplit⟩ := Option.ne_none_iff_exists'.mp h
  exact absurd (length_lt_of_split hsplit) (by simp)

/-- A concatenation of whole frames. -/
inductive Whole (f : Framing α η) : List α → Prop
  | nil : Whole f []
  | cons {octets body rest : List α} {header : η} (hsplit : f.split octets = some (header, []))
      (hbody : body.length = f.size header) (hrest : Whole f rest) :
      Whole f (octets ++ body ++ rest)

/-- The frames of the input, up to its end or to the first offending frame, and the beginning of
a frame that is left over. -/
inductive Scans (f : Framing α η) (h : FrameHandler α η γ ε) :
    List α → List γ → Except ε (List α) → Prop
  | short {xs : List α} (hsplit : f.split xs = none) : Scans f h xs [] (.ok xs)
  | refused {xs : List α} {header : η} {body : List α} {e : ε}
      (hsplit : f.split xs = some (header, body)) (hcheck : h.check header = .error e) :
      Scans f h xs [] (.error e)
  | waiting {xs : List α} {header : η} {body : List α}
      (hsplit : f.split xs = some (header, body)) (hcheck : h.check header = .ok ())
      (hbody : body.length < f.size header) : Scans f h xs [] (.ok xs)
  | malformed {xs : List α} {header : η} {body : List α} {e : ε}
      (hsplit : f.split xs = some (header, body)) (hcheck : h.check header = .ok ())
      (hbody : f.size header ≤ body.length)
      (hreceive : h.receive header (body.take (f.size header)) = .error e) :
      Scans f h xs [] (.error e)
  | frame {xs : List α} {header : η} {body : List α} {frames more : List γ}
      {out : Except ε (List α)}
      (hsplit : f.split xs = some (header, body)) (hcheck : h.check header = .ok ())
      (hbody : f.size header ≤ body.length)
      (hreceive : h.receive header (body.take (f.size header)) = .ok frames)
      (hrest : Scans f h (body.drop (f.size header)) more out) :
      Scans f h xs (frames ++ more) out

variable {h : FrameHandler α η γ ε} {frames more : List γ} {out out' : Except ε (List α)}

theorem exists_scans (f : Framing α η) (h : FrameHandler α η γ ε) (xs : List α) :
    ∃ frames out, Scans f h xs frames out := by
  induction hn : xs.length using Nat.strongRecOn generalizing xs with
  | _ n ih =>
    cases hsplit : f.split xs with
    | none => exact ⟨_, _, .short hsplit⟩
    | some p =>
      obtain ⟨header, body⟩ := p
      cases hcheck : h.check header with
      | error e => exact ⟨_, _, .refused hsplit hcheck⟩
      | ok _ =>
        by_cases hbody : body.length < f.size header
        · exact ⟨_, _, .waiting hsplit hcheck hbody⟩
        · rw [Nat.not_lt] at hbody
          cases hreceive : h.receive header (body.take (f.size header)) with
          | error e => exact ⟨_, _, .malformed hsplit hcheck hbody hreceive⟩
          | ok frames =>
            have hlt := length_lt_of_split hsplit
            obtain ⟨more, out, hrest⟩ := ih _ (by rw [length_drop]; omega)
              (body.drop (f.size header)) rfl
            exact ⟨_, _, .frame hsplit hcheck hbody hreceive hrest⟩

theorem Scans.det (hs : Scans f h xs frames out) (hs' : Scans f h xs more out') :
    frames = more ∧ out = out' := by
  induction hs generalizing more with
  | short hsplit => cases hs' <;> simp_all
  | refused hsplit hcheck => cases hs' <;> simp_all
  | waiting hsplit hcheck hbody => cases hs' <;> grind
  | malformed hsplit hcheck hbody hreceive => cases hs' <;> grind
  | frame hsplit hcheck hbody hreceive hrest ih =>
    cases hs' with
    | frame hsplit' hcheck' hbody' hreceive' hrest' =>
      rw [hsplit] at hsplit'
      cases hsplit'
      rw [hreceive] at hreceive'
      cases hreceive'
      obtain ⟨rfl, rfl⟩ := ih hrest'
      exact ⟨rfl, rfl⟩
    | short => simp_all
    | refused => simp_all
    | waiting => grind
    | malformed => grind

theorem Scans.append {rest : List α} (hs : Scans f h xs frames (.ok rest))
    (hrest : Scans f h (rest ++ ys) more out) : Scans f h (xs ++ ys) (frames ++ more) out := by
  generalize hout : (Except.ok rest : Except ε (List α)) = o at hs
  induction hs with
  | refused => cases hout
  | malformed => cases hout
  | short hsplit =>
    cases hout
    exact hrest
  | waiting hsplit hcheck hbody =>
    cases hout
    exact hrest
  | frame hsplit hcheck hbody hreceive hrest' ih =>
    rw [append_assoc]
    refine .frame (f.split_append _ _ _ hsplit ys) hcheck (by simp; omega) ?_ ?_
    · rwa [take_append_of_le_length hbody]
    · rw [drop_append_of_le_length hbody]
      exact ih hout

theorem Whole.append (hxs : Whole f xs) (hys : Whole f ys) : Whole f (xs ++ ys) := by
  induction hxs with
  | nil => exact hys
  | cons hsplit hbody hrest ih =>
    rw [append_assoc _ _ ys]
    exact .cons hsplit hbody ih

theorem Scans.exists_whole {rest : List α} (hs : Scans f h xs frames (.ok rest)) :
    ∃ done, xs = done ++ rest ∧ Whole f done := by
  generalize hout : (Except.ok rest : Except ε (List α)) = o at hs
  induction hs with
  | refused => cases hout
  | malformed => cases hout
  | short hsplit =>
    cases hout
    exact ⟨[], rfl, .nil⟩
  | waiting hsplit hcheck hbody =>
    cases hout
    exact ⟨[], rfl, .nil⟩
  | @frame xs header body _ _ _ hsplit hcheck hbody hreceive hrest ih =>
    obtain ⟨done, hdrop, hdone⟩ := ih hout
    obtain ⟨octets, -, rfl, hoctets⟩ := f.split_eq xs header body hsplit
    refine ⟨octets ++ body.take (f.size header) ++ done, ?_,
      .cons hoctets (length_take_of_le hbody) hdone⟩
    rw [append_assoc _ done, ← hdrop, append_assoc, take_append_drop]

theorem Scans.rest_eq_nil_iff {rest : List α} (hs : Scans f h xs frames (.ok rest)) :
    rest = [] ↔ Whole f xs := by
  constructor
  · rintro rfl
    obtain ⟨done, rfl, hdone⟩ := hs.exists_whole
    rwa [append_nil]
  · intro hwhole
    induction hwhole generalizing frames with
    | nil =>
      cases hs with
      | short => rfl
      | waiting => rfl
      | frame hsplit =>
        rw [f.split_nil] at hsplit
        cases hsplit
    | @cons octets body rest' header hoctets hbody hrest ih =>
      have hfull := f.split_append octets header [] hoctets (body ++ rest')
      rw [nil_append, ← append_assoc] at hfull
      cases hs with
      | short hsplit =>
        rw [hfull] at hsplit
        cases hsplit
      | waiting hsplit hcheck hshort =>
        rw [hfull] at hsplit
        cases hsplit
        rw [length_append] at hshort
        omega
      | frame hsplit hcheck hle hreceive hscans =>
        rw [hfull] at hsplit
        cases hsplit
        rw [← hbody, drop_left] at hscans
        exact ih hscans

theorem Scans.offending {e : ε} (hs : Scans f h xs frames (.error e)) :
    ∃ done tail header body, xs = done ++ tail ∧ Scans f h done frames (.ok []) ∧
      f.split tail = some (header, body) ∧
      (h.check header = .error e ∨ f.size header ≤ body.length ∧
        h.receive header (body.take (f.size header)) = .error e) := by
  generalize hout : (Except.error e : Except ε (List α)) = o at hs
  induction hs with
  | short => cases hout
  | waiting => cases hout
  | refused hsplit hcheck =>
    cases hout
    exact ⟨[], _, _, _, rfl, .short f.split_nil, hsplit, .inl hcheck⟩
  | malformed hsplit hcheck hbody hreceive =>
    cases hout
    exact ⟨[], _, _, _, rfl, .short f.split_nil, hsplit, .inr ⟨hbody, hreceive⟩⟩
  | @frame xs header body _ _ _ hsplit hcheck hbody hreceive hrest ih =>
    obtain ⟨done, tail, header', body', hdrop, hdone, htail⟩ := ih hout
    obtain ⟨octets, -, rfl, hoctets⟩ := f.split_eq xs header body hsplit
    have hlen := length_take_of_le hbody
    refine ⟨octets ++ body.take (f.size header) ++ done, tail, header', body', ?_, ?_, htail⟩
    · rw [append_assoc _ done, ← hdrop, append_assoc, take_append_drop]
    · have hsplit' := f.split_append octets header [] hoctets (body.take (f.size header) ++ done)
      rw [nil_append, ← append_assoc] at hsplit'
      refine .frame hsplit' hcheck (by rw [length_append]; omega) ?_ ?_
      · rwa [take_left' hlen]
      · rwa [drop_left' hlen]

end Framing

end MasqueServer
