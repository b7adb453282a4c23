import MasqueServer.TargetUris

/-!
# CONNECT-UDP paths

A template is a literal, the two variables with a slash between them, and another literal. Its
expansions are compared with the paths the reader takes: the reader removes the first literal,
splits the rest into segments, drops the empty ones, and reads the target off the first two
without looking at the second literal or at further segments.
-/
namespace MasqueServer

open List

open Ascii

/-- The template's last literal, with or without a final slash. -/
def EndsAsTemplate (suffix tail : Bytes) : Prop :=
  tail = suffix ∨ tail ++ [slash] = suffix ∨ tail = suffix ++ [slash]

/-- A path cut as the template has it: a non-empty host segment, a port segment in digits, and
what follows. -/
structure UdpParts (front suffix path host port tail : Bytes) (target : UdpTarget) : Prop where
  path_eq : path = front ++ (host ++ slash :: (port ++ tail))
  host_nonempty : host ≠ []
  host_segment : slash ∉ host
  port_segment : slash ∉ port
  host_decodes : ∃ octets, Unescapes host octets ∧ target.host = fromUtf8Lossy octets
  port_decodes : ∃ digits, Unescapes port digits ∧ DigitPort digits target.port
  ends : EndsAsTemplate suffix tail

/-- A path cut into slashes, a host segment, a slash and further slashes, a port segment that spells
a number with or without a plus sign, and the end of the path or a slash with anything behind it. -/
structure UdpCut (front path lead host between port tail digits : Bytes) (value : ℕ) : Prop where
  path_eq : path = front ++ (lead ++ (host ++ slash :: (between ++ (port ++ tail))))
  lead_slashes : ∀ octet ∈ lead, octet = slash
  between_slashes : ∀ octet ∈ between, octet = slash
  host_nonempty : host ≠ []
  host_segment : slash ∉ host
  port_segment : slash ∉ port
  port_decodes : Unescapes port digits
  port_number : DigitPort digits value ∨ SignedPort digits value
  separated : tail = [] ∨ tail.head? = some slash

section Segments

variable {text host : Bytes}

end Segments

section Decoding

variable {text port digits glued : Bytes} {value : ℕ}

lemma eq_nil_of_longer_port {longer : Bytes} (hport : Unescapes port digits)
    (hdigits : DigitPort digits value) (hlonger : Unescapes (port ++ glued) longer)
    (hnumber : DigitPort longer value ∨ SignedPort longer value) : glued = [] := by
  rw [unescapes_iff] at hport hlonger
  have hpercent : (37 : UInt8) ∉ unescapeLenient port := hport ▸ hdigits.notMem 37 (by decide)
  rw [unescapeLenient_append hpercent, hport] at hlonger
  subst hlonger
  rcases hnumber with hnumber | ⟨signless, heq, -⟩
  · have hvalue := hnumber.numeral.value_eq
    rw [decimalFrom_append, hdigits.numeral.value_eq] at hvalue
    exact unescapeLenient_eq_nil (eq_nil_of_decimalFrom hdigits.pos hvalue)
  · cases digits with
    | nil => exact absurd rfl hdigits.numeral.nonempty
    | cons octet digits =>
      rw [cons_append, List.cons.injEq] at heq
      exact absurd (heq.1 ▸ mem_cons_self) (hdigits.notMem plus (by decide))

end Decoding

section Paths

variable {front suffix path host port tail lead host' between port' tail' digits : Bytes}
  {target : UdpTarget} {value : ℕ}

lemma port_nonempty_of_unescapes (h : Unescapes port digits) (hne : digits ≠ []) : port ≠ [] := by
  rintro rfl
  cases h
  exact hne rfl

lemma eq_nil_of_slashes_append {slashes after segment rest : Bytes}
    (hslashes : ∀ octet ∈ slashes, octet = slash) (hne : segment ≠ []) (hsegment : slash ∉ segment)
    (heq : slashes ++ after = segment ++ rest) : slashes = [] := by
  cases slashes with
  | nil => rfl
  | cons octet slashes =>
    cases segment with
    | nil => exact absurd rfl hne
    | cons first segment =>
      have hfirst := hslashes octet mem_cons_self
      rw [cons_append, cons_append, List.cons.injEq, hfirst] at heq
      exact absurd (heq.1 ▸ mem_cons_self) hsegment

/-- An expansion can be cut in one way only that gives its port. -/
lemma UdpParts.cut_eq (h : UdpParts front suffix path host port tail target)
    (hcut : UdpCut front path lead host' between port' tail' digits target.port) :
    lead = [] ∧ host' = host ∧ between = [] ∧ port' = port ∧ tail' = tail := by
  obtain ⟨digits', hdecodes, hdigits⟩ := h.port_decodes
  have hport : port ≠ [] := port_nonempty_of_unescapes hdecodes hdigits.numeral.nonempty
  have hrest := append_cancel_left (hcut.path_eq.symm.trans h.path_eq)
  have hlead : lead = [] := eq_nil_of_slashes_append hcut.lead_slashes h.host_nonempty
    h.host_segment hrest
  rw [hlead, nil_append] at hrest
  have hsplit := splitOnce_eq_some_iff.mpr ⟨hrest, h.host_segment⟩
  rw [splitOnce_eq_some_iff.mpr ⟨rfl, hcut.host_segment⟩, Option.some.injEq,
    Prod.mk.injEq] at hsplit
  obtain ⟨rfl, hsecond⟩ := hsplit
  have hbetween : between = [] := eq_nil_of_slashes_append hcut.between_slashes hport
    h.port_segment hsecond
  rw [hbetween, nil_append] at hsecond
  refine ⟨hlead, rfl, hbetween, ?_⟩
  obtain ⟨glued, rfl, rfl⟩ | ⟨glued, rfl, rfl⟩ := append_eq_append_iff.mp hsecond
  · cases glued with
    | nil => simp
    | cons octet glued =>
      obtain hnil | hhead := hcut.separated
      · cases hnil
      · exact absurd (by simpa using hhead) fun hslash => h.port_segment (by simp [hslash])
  · have hnil := eq_nil_of_longer_port hdecodes hdigits hcut.port_decodes hcut.port_number
    simp [hnil]

end Paths

end MasqueServer
