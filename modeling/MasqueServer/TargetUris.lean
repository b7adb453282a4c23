import MasqueServer.AddressText
import MasqueServer.BasicCredentials
import MasqueServer.DecimalNumerals
import MasqueServer.TextSplitting

/-!
# Targets in request URIs

The target of a standard CONNECT request is its authority; the target of a CONNECT-UDP request is
read off the path after the configured template's prefix. Both readers are compared with the grammar
of what they should take.
-/
namespace MasqueServer

open List Option

open Ascii

inductive UriError
  | pathMismatch
  | missingSegment (segment : Bytes)
  | invalidPort (text : Bytes)
  | invalidProtocol (text : Bytes)
  | invalidTarget
  | invalidTemplate
deriving DecidableEq

structure UdpTarget where
  host : Bytes
  port : ℕ
deriving DecidableEq

abbrev TcpTarget := UdpTarget

instance decidableEqExcept {α ε : Type} [DecidableEq α] [DecidableEq ε] :
    DecidableEq (Except ε α) := fun a b =>
  match a, b with
  | .ok a, .ok b => decidable_of_iff (a = b) (by simp)
  | .error a, .error b => decidable_of_iff (a = b) (by simp)
  | .ok _, .error _ => isFalse (by simp)
  | .error _, .ok _ => isFalse (by simp)

def percentDecode (text : Bytes) : Bytes := fromUtf8Lossy (unescapeLenient text)

def extractPrefix (template : Bytes) : Bytes := template.takeWhile (· ≠ openBrace)

def parsePort (text : Bytes) : Except UriError ℕ :=
  match parseUnsigned 65535 text with
  | none => .error (.invalidPort text)
  | some port => if port = 0 then .error (.invalidPort (asBytes "0")) else .ok port

def nonemptySegments (text : Bytes) : List Bytes :=
  (text.splitOn slash).filter fun segment => !segment.isEmpty

def parseUdpPath (path template : Bytes) : Except UriError UdpTarget :=
  match path.dropPrefix? (extractPrefix template) with
  | none => .error .pathMismatch
  | some rest =>
    match nonemptySegments rest with
    | [] => .error (.missingSegment (asBytes "target_host"))
    | [_] => .error (.missingSegment (asBytes "target_port"))
    | host :: port :: _ => do
      let value ← parsePort (percentDecode port)
      .ok ⟨percentDecode host, value⟩

def isAsciiControl (octet : UInt8) : Bool := octet ≤ 0x1F || octet == 0x7F

def splitAuthority (authority : Bytes) : Except UriError (Bytes × Bytes) :=
  match authority.dropPrefix? [openBracket] with
  | some rest =>
    match splitOncePair closeBracket colon rest with
    | none => .error (.missingSegment (asBytes "target_port"))
    | some (host, port) =>
      if host.isEmpty || (parseIpv6Addr host).isNone then .error .pathMismatch
      else .ok (host, port)
  | none =>
    match rsplitOnce colon authority with
    | none => .error (.missingSegment (asBytes "target_port"))
    | some (host, port) =>
      if host.isEmpty || host.contains colon then .error .pathMismatch else .ok (host, port)

def parseConnectAuthority (authority : Bytes) : Except UriError TcpTarget :=
  if authority.isEmpty
      || authority.any (fun octet => isAsciiControl octet || isAsciiWhitespace octet)
      || authority.contains slash || authority.contains atSign then .error .pathMismatch
  else do
    let (host, port) ← splitAuthority authority
    let value ← parsePort port
    .ok ⟨host, value⟩

/-- A port in ASCII digits, from 1 to 65535. -/
structure DigitPort (text : Bytes) (port : ℕ) : Prop where
  numeral : Numeral text port
  pos : 1 ≤ port
  le : port ≤ 65535

def SignedPort (text : Bytes) (port : ℕ) : Prop :=
  ∃ digits, text = plus :: digits ∧ DigitPort digits port

section Ports

variable {text : Bytes} {port : ℕ}

theorem parsePort_ok_iff :
    parsePort text = .ok port ↔ DigitPort text port ∨ SignedPort text port := by
  have hvalue : parsePort text = .ok port ↔ parseUnsigned 65535 text = some port ∧ port ≠ 0 := by
    unfold parsePort
    cases parseUnsigned 65535 text with
    | none => simp
    | some value =>
      by_cases hzero : value = 0
      · simp only [hzero, if_true, reduceCtorEq, some.injEq, false_iff, not_and, not_not]
        exact fun h => h.symm
      · simp only [hzero, if_false, Except.ok.injEq, some.injEq]
        exact ⟨fun h => ⟨h, h ▸ hzero⟩, fun h => h.1⟩
  rw [hvalue, parseUnsigned_eq_some_iff]
  constructor
  · rintro ⟨⟨digits, rfl | rfl, hnumeral, hle⟩, hne⟩
    · exact Or.inl ⟨hnumeral, Nat.pos_of_ne_zero hne, hle⟩
    · exact Or.inr ⟨digits, rfl, hnumeral, Nat.pos_of_ne_zero hne, hle⟩
  · rintro (h | ⟨digits, rfl, h⟩)
    · exact ⟨⟨text, Or.inl rfl, h.numeral, h.le⟩, Nat.pos_iff_ne_zero.mp h.pos⟩
    · exact ⟨⟨digits, Or.inr rfl, h.numeral, h.le⟩, Nat.pos_iff_ne_zero.mp h.pos⟩

lemma DigitPort.notMem (h : DigitPort text port) (octet : UInt8) (hoctet : ¬ IsDigit octet) :
    octet ∉ text :=
  fun hmem => hoctet (h.numeral.digits octet hmem)

lemma SignedPort.notMem_colon (h : SignedPort text port) : colon ∉ text := by
  obtain ⟨digits, rfl, hdigits⟩ := h
  rw [mem_cons, not_or]
  exact ⟨by decide, hdigits.notMem colon (by decide)⟩

lemma DigitPort.not_signedPort {port' : ℕ} (h : DigitPort text port) : ¬ SignedPort text port' := by
  rintro ⟨digits, rfl, -⟩
  exact h.notMem plus (by decide) mem_cons_self

lemma notMem_colon_of_parsePort (h : parsePort text = .ok port) : colon ∉ text := by
  rcases parsePort_ok_iff.mp h with h | h
  · exact h.notMem colon (by decide)
  · exact h.notMem_colon

end Ports

/-! ### The authority of a CONNECT request -/

/-- No slash, at-sign, ASCII control or whitespace character. -/
def AuthorityText (text : Bytes) : Prop :=
  ∀ octet ∈ text, isAsciiControl octet = false ∧ isAsciiWhitespace octet = false ∧
    octet ≠ slash ∧ octet ≠ atSign

/-- A bracketed IPv6 address or a name, a colon and a port that is written as `IsPort` says. -/
inductive HostAndPort (IsPort : Bytes → ℕ → Prop) : Bytes → TcpTarget → Prop
  | bracketed {host digits : Bytes} {port : ℕ} (haddress : (parseIpv6Addr host).isSome)
      (hport : IsPort digits port) :
      HostAndPort IsPort (openBracket :: (host ++ closeBracket :: colon :: digits)) ⟨host, port⟩
  | named {host digits : Bytes} {port : ℕ} (hhost : host ≠ []) (hcolon : colon ∉ host)
      (hbracket : host.head? ≠ some openBracket) (hport : IsPort digits port) :
      HostAndPort IsPort (host ++ colon :: digits) ⟨host, port⟩

def IsAuthority (text : Bytes) (target : TcpTarget) : Prop :=
  AuthorityText text ∧ HostAndPort DigitPort text target

section Authority

variable {IsPort IsPort' : Bytes → ℕ → Prop} {text rest host port : Bytes}
  {target : TcpTarget}

lemma HostAndPort.mono (hmono : ∀ digits value, IsPort digits value → IsPort' digits value)
    (h : HostAndPort IsPort text target) : HostAndPort IsPort' text target := by
  cases h with
  | bracketed haddress hport => exact .bracketed haddress (hmono _ _ hport)
  | named hhost hcolon hbracket hport => exact .named hhost hcolon hbracket (hmono _ _ hport)

lemma HostAndPort.or
    (h : HostAndPort (fun digits value => IsPort digits value ∨ IsPort' digits value) text target) :
    HostAndPort IsPort text target ∨ HostAndPort IsPort' text target := by
  cases h with
  | bracketed haddress hport => exact hport.imp (.bracketed haddress) (.bracketed haddress)
  | named hhost hcolon hbracket hport =>
    exact hport.imp (.named hhost hcolon hbracket) (.named hhost hcolon hbracket)

lemma HostAndPort.rsplitOnce (h : HostAndPort IsPort text target)
    (hcolon : ∀ digits value, IsPort digits value → colon ∉ digits) :
    ∃ front digits, rsplitOnce colon text = some (front, digits) ∧ IsPort digits target.port := by
  cases h with
  | @bracketed host digits port haddress hport =>
    have htext : openBracket :: (host ++ closeBracket :: colon :: digits) =
        openBracket :: (host ++ [closeBracket]) ++ colon :: digits := by simp
    exact ⟨_, _, rsplitOnce_eq_some_iff.mpr ⟨htext, hcolon _ _ hport⟩, hport⟩
  | named hhost _ hbracket hport =>
    exact ⟨_, _, rsplitOnce_eq_some_iff.mpr ⟨rfl, hcolon _ _ hport⟩, hport⟩

lemma HostAndPort.not_digitPort {target' : TcpTarget} (h : HostAndPort SignedPort text target) :
    ¬ HostAndPort DigitPort text target' := by
  intro h'
  obtain ⟨front, digits, hsplit, hsigned⟩ := h.rsplitOnce fun _ _ hport => hport.notMem_colon
  obtain ⟨front', digits', hsplit', hdigits⟩ :=
    h'.rsplitOnce fun _ _ hport => hport.notMem colon (by decide)
  have hparts := hsplit.symm.trans hsplit'
  simp only [some.injEq, Prod.mk.injEq] at hparts
  exact hdigits.not_signedPort (hparts.2 ▸ hsigned)

lemma notMem_closeBracket_of_parse (haddress : (parseIpv6Addr host).isSome) :
    closeBracket ∉ host := by
  obtain ⟨address, hparse⟩ := isSome_iff_exists.mp haddress
  intro hmem
  exact absurd (addressOctets_of_parseWith readIpv6Addr_taken hparse _ hmem) (by decide)

lemma ne_nil_of_parse (haddress : (parseIpv6Addr host).isSome) : host ≠ [] := by
  rintro rfl
  exact absurd haddress (by decide)

lemma splitAuthority_bracketed_iff :
    splitAuthority (openBracket :: rest) = .ok (host, port) ↔
      rest = host ++ closeBracket :: colon :: port ∧ (parseIpv6Addr host).isSome := by
  have hdrop : (openBracket :: rest).dropPrefix? [openBracket] = some rest := by
    simp [List.dropPrefix?]
  unfold splitAuthority
  rw [hdrop]
  constructor
  · intro h
    simp only at h
    split at h
    next => cases h
    next host' port' hparts =>
      split_ifs at h with hbad
      simp only [Except.ok.injEq, Prod.mk.injEq] at h
      obtain ⟨rfl, rfl⟩ := h
      simp only [Bool.or_eq_true, not_or, isNone_iff_eq_none] at hbad
      exact ⟨eq_of_splitOncePair hparts, ne_none_iff_isSome.mp hbad.2⟩
  · rintro ⟨rfl, haddress⟩
    simp only [splitOncePair_append (notMem_closeBracket_of_parse haddress)]
    refine if_neg ?_
    simp only [Bool.or_eq_true, not_or, List.isEmpty_iff, isNone_iff_eq_none]
    exact ⟨ne_nil_of_parse haddress, ne_none_iff_isSome.mpr haddress⟩

lemma splitAuthority_named_iff (hbracket : text.head? ≠ some openBracket) :
    splitAuthority text = .ok (host, port) ↔
      text = host ++ colon :: port ∧ colon ∉ port ∧ host ≠ [] ∧ colon ∉ host := by
  have hdrop : text.dropPrefix? [openBracket] = none := by
    cases text with
    | nil => rfl
    | cons octet rest =>
      have hne : octet ≠ openBracket := by simpa using hbracket
      simp [List.dropPrefix?, hne]
  unfold splitAuthority
  rw [hdrop]
  constructor
  · intro h
    simp only at h
    split at h
    next => cases h
    next host' port' hparts =>
      split_ifs at h with hbad
      simp only [Except.ok.injEq, Prod.mk.injEq] at h
      obtain ⟨rfl, rfl⟩ := h
      simp only [Bool.or_eq_true, not_or, List.isEmpty_iff, contains_iff_mem] at hbad
      obtain ⟨htext, hfree⟩ := rsplitOnce_eq_some_iff.mp hparts
      exact ⟨htext, hfree, hbad⟩
  · rintro ⟨htext, hfree, hne, hcolon⟩
    simp only [rsplitOnce_eq_some_iff.mpr ⟨htext, hfree⟩]
    refine if_neg ?_
    simp only [Bool.or_eq_true, not_or, List.isEmpty_iff, contains_iff_mem]
    exact ⟨hne, hcolon⟩

theorem parseConnectAuthority_ok_iff :
    parseConnectAuthority text = .ok target ↔
      AuthorityText text ∧
        HostAndPort (fun digits value => parsePort digits = .ok value) text target := by
  have hread : (do
      let (host, port) ← splitAuthority text
      let value ← parsePort port
      Except.ok (⟨host, value⟩ : TcpTarget)) = .ok target ↔
        HostAndPort (fun digits value => parsePort digits = .ok value) text target := by
    simp only [bind_ok_iff, Prod.exists, Except.ok.injEq]
    constructor
    · rintro ⟨host, port, hsplit, value, hport, rfl⟩
      by_cases hbracket : text.head? = some openBracket
      · obtain ⟨rest, rfl⟩ := head?_eq_some_iff.mp hbracket
        obtain ⟨rfl, haddress⟩ := splitAuthority_bracketed_iff.mp hsplit
        exact .bracketed haddress hport
      · obtain ⟨rfl, -, hne, hcolon⟩ := (splitAuthority_named_iff hbracket).mp hsplit
        refine .named hne hcolon ?_ hport
        rwa [head?_append_of_ne_nil _ hne] at hbracket
    · rintro (⟨haddress, hport⟩ | ⟨hne, hcolon, hbracket, hport⟩)
      · exact ⟨_, _, splitAuthority_bracketed_iff.mpr ⟨rfl, haddress⟩, _, hport, rfl⟩
      · rw [← head?_append_of_ne_nil _ hne] at hbracket
        exact ⟨_, _, (splitAuthority_named_iff hbracket).mpr
          ⟨rfl, notMem_colon_of_parsePort hport, hne, hcolon⟩, _, hport, rfl⟩
  unfold parseConnectAuthority
  split_ifs with hbad
  · simp only [false_iff, not_and]
    intro htext h
    have hempty : text ≠ [] := by
      cases h <;> simp
    simp only [Bool.or_eq_true, List.isEmpty_iff, hempty, false_or, List.any_eq_true,
      contains_iff_mem] at hbad
    rcases hbad with (⟨octet, hmem, hbad⟩ | hmem) | hmem
    · have hoctet := htext octet hmem
      simp [hoctet.1, hoctet.2.1] at hbad
    · exact (htext _ hmem).2.2.1 rfl
    · exact (htext _ hmem).2.2.2 rfl
  · rw [hread]
    simp only [Bool.or_eq_true, not_or, List.any_eq_true, contains_iff_mem, not_exists,
      not_and, Bool.not_eq_true] at hbad
    have htext : AuthorityText text := by
      intro octet hmem
      obtain ⟨hcontrol, hwhitespace⟩ := hbad.1.1.2 octet hmem
      exact ⟨hcontrol, hwhitespace, fun h => hbad.1.2 (h ▸ hmem), fun h => hbad.2 (h ▸ hmem)⟩
    exact ⟨fun h => ⟨htext, h⟩, fun h => h.2⟩

/-- The reader takes exactly the grammar's texts with exactly their hosts and ports, at every text
that is not an authority with a plus sign before its port. -/
theorem parseConnectAuthority_grammar_iff (text : Bytes) :
    (∀ target, parseConnectAuthority text = .ok target ↔ IsAuthority text target) ↔
      ¬ (AuthorityText text ∧ ∃ target, HostAndPort SignedPort text target) := by
  simp only [parseConnectAuthority_ok_iff, IsAuthority]
  constructor
  · rintro hgrammar ⟨htext, target, hsigned⟩
    have hread := hsigned.mono fun digits value h => parsePort_ok_iff.mpr (Or.inr h)
    exact hsigned.not_digitPort ((hgrammar target).mp ⟨htext, hread⟩).2
  · intro hunsigned target
    constructor
    · rintro ⟨htext, h⟩
      refine ⟨htext, ?_⟩
      rcases (h.mono fun digits value hport => parsePort_ok_iff.mp hport).or with h | h
      · exact h
      · exact absurd ⟨htext, target, h⟩ hunsigned
    · rintro ⟨htext, h⟩
      exact ⟨htext, h.mono fun digits value hport => parsePort_ok_iff.mpr (Or.inl hport)⟩

/-- `example.com:+443` is taken, though no authority of the grammar. -/
theorem parseConnectAuthority_signed :
    parseConnectAuthority (asBytes "example.com:+443") = .ok ⟨asBytes "example.com", 443⟩ ∧
      ∀ target, ¬ IsAuthority (asBytes "example.com:+443") target := by
  have hdigits : DigitPort (asBytes "443") 443 :=
    ⟨⟨by decide, by decide +kernel, by decide⟩, by decide, by decide⟩
  have hsigned : HostAndPort SignedPort (asBytes "example.com" ++ colon :: asBytes "+443")
      ⟨asBytes "example.com", 443⟩ :=
    .named (by decide) (by decide) (by decide) ⟨_, rfl, hdigits⟩
  exact ⟨by decide +kernel, fun target h => hsigned.not_digitPort h.2⟩

end Authority

end MasqueServer
