import MasqueServer.TemplateExpansion

/-!
# The scope of a CONNECT-IP tunnel

The expansion of an accepted template is a URI whose parts are the expanded components, so that
matching it reads back the values. Together with the matching theorems this bounds what a client
can reach by its choice of URI: it cannot leave a variable open that the template asks for, except
by saying so.
-/
namespace MasqueServer.ConnectIp

open List Option

open Ascii

def scopeValue (target : Bytes) (protocol : ℕ) : Variable → Bytes
  | .target => target
  | .protocol => decimalText protocol

def scopeValues (target : Bytes) (protocol : ℕ) (name : Bytes) : Option Bytes :=
  if name = asBytes "target" then some target
  else if name = asBytes "ipproto" then some (decimalText protocol)
  else none

def Template.scopeOf (template : Template) (target : Bytes) (protocol : ℕ) : IpTarget :=
  ⟨if Component.var .target ∈ template.components then some target else none,
    if Component.var .protocol ∈ template.components then some protocol else none⟩

def ipScope (template path : Bytes) : Option IpScope :=
  match parseIpPath path template with
  | .ok scope => some ⟨scope.target.isSome, scope.ipproto.isSome⟩
  | .error _ => none

section Values

variable {target text : Bytes} {protocol : ℕ} {octet : UInt8}

lemma scopeValues_name (target : Bytes) (protocol : ℕ) (name : Variable) :
    scopeValues target protocol name.name = some (scopeValue target protocol name) := by
  cases name with
  | target => rfl
  | protocol => exact if_neg (by decide)

lemma decode_escape (h : IsAscii text) : decode (escape text) = some text := by
  rw [decode, unescape_escape]
  exact if_pos (isUtf8_of_ascii h)

lemma ascii_of_isRegName (h : isRegName octet = true) : octet < 128 := by
  have hall : ∀ n : Fin 256, isRegName (UInt8.ofFin n) = true → UInt8.ofFin n < 128 := by
    decide +kernel
  exact hall octet.toFin h

lemma ascii_of_isCanonicalPrefix {digits width : ℕ} {address : BitVec width}
    (h : isCanonicalPrefix digits address text = true) : IsAscii text := by
  unfold isCanonicalPrefix at h
  split_ifs at h with hbad
  simp only [Bool.or_eq_true, not_or, Bool.not_eq_true', Bool.not_eq_false, List.all_eq_true,
    decide_eq_true_eq] at hbad
  intro octet hmem
  exact UInt8.lt_of_le_of_lt (hbad.2 octet hmem).2 (by decide)

lemma ascii_of_isTarget (h : isTarget target = true) : IsAscii target := by
  unfold isTarget at h
  cases hsplit : splitOnce slash target with
  | none =>
    simp only [hsplit] at h
    split_ifs at h
    · obtain ⟨address, hparse⟩ := isSome_iff_exists.mp h
      exact fun octet hmem =>
        ascii_of_isAddressOctet (addressOctets_of_parseWith readIpv6Addr_taken hparse octet hmem)
    · exact fun octet hmem => ascii_of_isRegName (List.all_eq_true.mp h octet hmem)
  | some parts =>
    obtain ⟨address, length⟩ := parts
    obtain ⟨rfl, -⟩ := splitOnce_eq_some_iff.mp hsplit
    simp only [hsplit] at h
    split_ifs at h
    have haddress {parsed : IpAddr} (hparse : parseIpAddr address = some parsed) :
        IsAscii address := fun octet hmem =>
      ascii_of_isAddressOctet (addressOctets_of_parseWith readIpAddr_taken hparse octet hmem)
    have hwhole (hfront : IsAscii address) (hback : IsAscii length) :
        IsAscii (address ++ slash :: length) :=
      forall_mem_append.mpr ⟨hfront, isAscii_cons.mpr ⟨by decide, hback⟩⟩
    split at h
    next hparse => exact hwhole (haddress hparse) (ascii_of_isCanonicalPrefix h)
    next hparse => exact hwhole (haddress hparse) (ascii_of_isCanonicalPrefix h)
    next => cases h

lemma parseTarget_escape (htarget : isTarget target = true) (hstar : target ≠ [star]) :
    parseTarget (escape target) = .ok (some target) := by
  have hcolon : colon ∉ escape target := notMem_escape (by decide) (by decide)
  have hslash : slash ∉ escape target := notMem_escape (by decide) (by decide)
  simp only [parseTarget, contains_eq_mem, hcolon, hslash, decide_false,
    decode_escape (ascii_of_isTarget htarget), Bool.or_self, Bool.false_eq_true, if_false, hstar,
    htarget, if_true]

lemma parseProtocol_escape (hprotocol : protocol ≤ 255) :
    parseProtocol (escape (decimalText protocol)) = .ok (some protocol) := by
  have hnumeral := numeral_decimalText protocol
  have hdigits : (decimalText protocol).all (fun octet => IsDigit octet) = true :=
    List.all_eq_true.mpr fun octet hmem => decide_eq_true (hnumeral.digits octet hmem)
  have hstar : decimalText protocol ≠ [star] := by
    intro heq
    have hdigit := hnumeral.digits star (heq ▸ mem_cons_self)
    exact absurd hdigit (by decide)
  have hlength : (decimalText protocol).length ≤ 2 + 1 :=
    length_decimalText (lt_of_le_of_lt hprotocol (by decide))
  have hempty : (decimalText protocol).isEmpty = false := by
    simpa using hnumeral.nonempty
  simp only [parseProtocol, decode_escape hnumeral.ascii, hstar, if_false, hempty, hdigits,
    Nat.not_lt.mpr hlength, decide_false, Bool.not_true, Bool.or_self, Bool.false_eq_true,
    hnumeral.parseUnsigned hprotocol]

end Values

namespace Template

variable {text : Bytes} {template : Template} {required optional : List QueryParameter}
  {given : Variable → Bytes} {component : Component} {value : Bytes}

theorem Spells.expand_eq (h : Spells text template required optional)
    {values : Bytes → Option Bytes}
    (hvalues : ∀ name : Variable, values name.name = some (given name)) :
    expand values text = [slash].intercalate (template.path.map (·.expanded given)) ++
      queryText (template.query.map (·.expanded given)) := by
  have hpath : ∀ component ∈ template.path, ∀ rest,
      expand values (component.text ++ rest) = component.expanded given ++ expand values rest :=
    fun component hmem rest => expand_component hvalues (h.path_plain component hmem).1 rest
  have hrequired : ∀ parameter ∈ required, ∀ rest,
      expand values (requiredText parameter ++ rest) =
        pairText (parameter.expanded given) ++ expand values rest :=
    fun parameter hmem rest => expand_required hvalues (h.required_plain parameter hmem).1 rest
  rw [h.text_eq, expand_joined (by decide) hpath, h.query_eq]
  congr 1
  by_cases hstarted : required = []
  · subst hstarted
    rw [map_nil, queryText_nil, nil_append, expand_optional hvalues h.optional_named,
      nil_append]
    by_cases hoptional : optional = []
    · rw [if_pos hoptional, hoptional, map_nil, queryText_nil]
    · rw [if_neg hoptional, if_pos rfl, queryText_of_ne_nil (by simpa using hoptional),
        List.map_map]
      rfl
  · have hliteral (rest : Bytes) :
        expand values ([question] ++ rest) = [question] ++ expand values rest :=
      expand_append_literal (by decide) rest
    have hwritten :
        (required.map fun parameter => (parameter.name, parameter.value.text)).map pairText =
          required.map requiredText := List.map_map
    rw [queryText_of_ne_nil (by simpa using hstarted), hwritten, ← singleton_append,
      append_assoc, hliteral, expand_joined (by decide) hrequired,
      expand_optional hvalues h.optional_named, queryText_of_ne_nil (by simp [hstarted]),
      singleton_append, if_neg hstarted]
    congr 1
    by_cases hoptional : optional = []
    · rw [if_pos hoptional, hoptional, append_nil, append_nil, List.map_map]
      rfl
    · rw [if_neg hoptional, map_append, map_append, List.map_map, List.map_map]
      exact (intercalate_append (by simpa using hstarted) (by simpa using hoptional)).symm

lemma notMem_expanded {octet : UInt8} (hoctet : isUnreserved octet = false) (hpercent : octet ≠ 37)
    (htext : octet ∉ component.text) : octet ∉ component.expanded given := by
  cases component with
  | literal text => exact htext
  | var name => exact notMem_escape hoctet hpercent

lemma isVisible_escape (text : Bytes) : isVisible (escape text) = true := by
  have hall : ∀ n : Fin 256, isUnreserved (UInt8.ofFin n) = true ∨ UInt8.ofFin n = 37 →
      UInt8.ofFin n ≠ hash ∧ 0x21 ≤ UInt8.ofFin n ∧ UInt8.ofFin n ≤ 0x7E := by decide +kernel
  exact isVisible_iff.mpr fun octet hmem => hall octet.toFin (mem_escape hmem)

lemma isVisible_expanded (h : isVisible component.text = true) :
    isVisible (component.expanded given) = true := by
  cases component with
  | literal text => exact h
  | var name => exact isVisible_escape _

lemma isVisible_pairText {pair : Bytes × Bytes} :
    isVisible (pairText pair) = true ↔ isVisible pair.1 = true ∧ isVisible pair.2 = true := by
  rw [pairText, isVisible_append, isVisible_cons (by decide)]

theorem Spells.uriParts (h : Spells text template required optional) :
    UriParts ([slash].intercalate (template.path.map (·.expanded given)) ++
        queryText (template.query.map (·.expanded given)))
      (template.path.map (·.expanded given)) (template.query.map (·.expanded given)) := by
  refine ⟨rfl, by simpa using h.path_nonempty, ?_, ?_⟩
  · intro segment hmem
    obtain ⟨component, hcomponent, rfl⟩ := List.mem_map.mp hmem
    have hplain := (h.path_plain component hcomponent).2
    exact ⟨notMem_expanded (by decide) (by decide) hplain.1,
      notMem_expanded (by decide) (by decide) hplain.2⟩
  · intro pair hmem
    obtain ⟨parameter, hparameter, rfl⟩ := List.mem_map.mp hmem
    rw [h.query_eq, mem_append] at hparameter
    rcases hparameter with hrequired | hoptional
    · obtain ⟨hplain, hampersand⟩ := h.required_plain parameter hrequired
      rw [requiredText, pairText, mem_append, mem_cons, not_or, not_or] at hampersand
      exact ⟨hplain.name_free.2, hampersand.1,
        notMem_expanded (by decide) (by decide) hampersand.2.2⟩
    · obtain ⟨name, rfl⟩ := h.optional_named parameter hoptional
      exact ⟨name.notMem_name (by decide), name.notMem_name (by decide),
        notMem_escape (by decide) (by decide)⟩

lemma Spells.isVisible_expansion (h : Spells text template required optional) :
    isVisible ([slash].intercalate (template.path.map (·.expanded given)) ++
      queryText (template.query.map (·.expanded given))) = true := by
  have hvisible := h.visible
  rw [h.text_eq, isVisible_append, isVisible_append, isVisible_intercalate (by decide)] at hvisible
  obtain ⟨hpath, hquery, -⟩ := hvisible
  refine (isVisible_iff_parts h.uriParts).mpr ⟨?_, ?_⟩
  · intro segment hmem
    obtain ⟨component, hcomponent, rfl⟩ := List.mem_map.mp hmem
    exact isVisible_expanded (hpath _ (List.mem_map_of_mem hcomponent))
  · intro pair hmem
    obtain ⟨parameter, hparameter, rfl⟩ := List.mem_map.mp hmem
    rw [isVisible_pairText]
    rw [h.query_eq, mem_append] at hparameter
    rcases hparameter with hrequired | hoptional
    · rw [queryText_of_ne_nil (by simpa using ne_nil_of_mem hrequired),
        isVisible_cons (by decide), isVisible_intercalate (by decide), List.map_map] at hquery
      have hpair := isVisible_pairText.mp (hquery _ (List.mem_map_of_mem hrequired))
      exact ⟨hpair.1, isVisible_expanded hpair.2⟩
    · obtain ⟨name, rfl⟩ := h.optional_named parameter hoptional
      have hname : isVisible name.name = true := by cases name <;> decide
      exact ⟨hname, isVisible_escape _⟩

lemma binds_expanded_iff (hwell : template.WellFormed) :
    template.Binds (template.path.map (·.expanded given)) (template.query.map (·.expanded given))
      component value ↔ component ∈ template.components ∧ value = component.expanded given := by
  have hzip : template.path.zip (template.path.map (·.expanded given)) =
      template.path.map fun component => (component, component.expanded given) := by
    rw [← zip_map', List.map_id']
  rw [Binds, hzip, components, mem_append, List.mem_map, List.mem_map]
  constructor
  · rintro (⟨found, hmem, heq⟩ | ⟨parameter, hmem, rfl, hpair⟩)
    · simp only [Prod.mk.injEq] at heq
      obtain ⟨rfl, rfl⟩ := heq
      exact ⟨Or.inl hmem, rfl⟩
    · obtain ⟨found, hfound, heq⟩ := List.mem_map.mp hpair
      simp only [QueryParameter.expanded, Prod.mk.injEq] at heq
      have hsame := inj_on_of_nodup_map hwell.names_nodup hfound hmem heq.1
      exact ⟨Or.inr ⟨parameter, hmem, rfl⟩, by rw [← heq.2, hsame]⟩
  · rintro ⟨hmem | ⟨parameter, hmem, rfl⟩, rfl⟩
    · exact Or.inl ⟨component, hmem, rfl⟩
    · exact Or.inr ⟨parameter, hmem, rfl, List.mem_map.mpr ⟨parameter, hmem, rfl⟩⟩

theorem capture_expansion {target : Bytes} {protocol : ℕ} (hwell : template.WellFormed)
    (h : Spells text template required optional) (htarget : isTarget target = true)
    (hstar : target ≠ [star]) (hprotocol : protocol ≤ 255) :
    template.capture (expand (scopeValues target protocol) text) =
      .ok (template.scopeOf target protocol) := by
  rw [h.expand_eq (scopeValues_name target protocol)]
  refine (capture_ok_iff hwell h.uriParts).mpr ⟨h.isVisible_expansion, ⟨by simp, ?_, ?_, ?_⟩,
    ?_, ?_, ?_⟩
  · intro pair hmem
    obtain ⟨parameter, hparameter, rfl⟩ := List.mem_map.mp hmem
    exact ⟨parameter, hparameter, rfl⟩
  · rw [List.map_map]
    exact hwell.names_nodup
  · intro parameter hmem _
    rw [List.map_map]
    exact List.mem_map_of_mem hmem
  · intro literal value hbinds
    exact ((binds_expanded_iff hwell).mp hbinds).2.symm
  · intro name value hbinds
    obtain ⟨hmem, rfl⟩ := (binds_expanded_iff hwell).mp hbinds
    cases name with
    | target =>
      simp only [Variable.Reads, scopeOf, hmem, if_true]
      exact parseTarget_escape htarget hstar
    | protocol =>
      simp only [Variable.Reads, scopeOf, hmem, if_true]
      exact parseProtocol_escape hprotocol
  · intro name hnone
    have habsent : Component.var name ∉ template.components := fun hmem =>
      hnone _ ((binds_expanded_iff hwell).mpr ⟨hmem, rfl⟩)
    cases name with
    | target => exact if_neg habsent
    | protocol => exact if_neg habsent

end Template

/-- What an accepted template guarantees about the tunnels that are requested under it. -/
structure ScopeKept (text : Bytes) (template : Template) : Prop where
  /-- A variable is left open only if it does not occur, is optional and absent, or is given as
  the wildcard. -/
  open_only_if : ∀ {uri : Bytes} {result : IpTarget}, parseIpPath uri text = .ok result →
    ∃ segments pairs, UriParts uri segments pairs ∧
      (result.target = none → template.LeavesOpen segments pairs .target) ∧
      (result.ipproto = none → template.LeavesOpen segments pairs .protocol)
  /-- Unknown, repeated and missing parameters and other numbers of segments are refused. -/
  mismatch_refused : ∀ {uri : Bytes} {segments : List Bytes}
    {pairs : List (Bytes × Bytes)}, UriParts uri segments pairs →
      ¬ template.Matches segments pairs → ∃ error, parseIpPath uri text = .error error
  order_irrelevant : ∀ {uri uri' : Bytes} {segments : List Bytes}
    {pairs pairs' : List (Bytes × Bytes)} {result : IpTarget},
      UriParts uri segments pairs → UriParts uri' segments pairs' → pairs.Perm pairs' →
        parseIpPath uri text = .ok result → parseIpPath uri' text = .ok result
  expansion_read : ∀ {target : Bytes} {protocol : ℕ}, isTarget target = true →
    target ≠ [star] → protocol ≤ 255 →
      parseIpPath (expand (scopeValues target protocol) text) text =
        .ok (template.scopeOf target protocol)
  /-- A standard request is taken only without any restriction. -/
  standard_unscoped : ∀ {path : Bytes} {validPseudoHeaders : Bool} {config : RequestConfig},
    config.parseIpPath = ipScope text →
      prepareConnectIp path true validPseudoHeaders config = none →
        parseIpPath path text = .ok .unscoped

section Safety

variable {text : Bytes} {template : Template}

lemma parse_of_validate (h : validateIpTemplate text = .ok ()) :
    ∃ template, Template.parse text = .ok template := by
  unfold validateIpTemplate at h
  cases hparse : Template.parse text with
  | ok template => exact ⟨template, rfl⟩
  | error error =>
    rw [hparse] at h
    cases h

lemma parseIpPath_eq (hparse : Template.parse text = .ok template) (uri : Bytes) :
    parseIpPath uri text = template.capture uri := by
  rw [parseIpPath, hparse]
  rfl

lemma unscoped_of_prepare {path : Bytes} {validPseudoHeaders : Bool} {config : RequestConfig}
    (hconfig : config.parseIpPath = ipScope text)
    (h : prepareConnectIp path true validPseudoHeaders config = none) :
    parseIpPath path text = .ok .unscoped := by
  unfold prepareConnectIp at h
  rw [hconfig, ipScope] at h
  cases hparse : parseIpPath path text with
  | error error => simp [hparse] at h
  | ok scope =>
    obtain ⟨target, ipproto⟩ := scope
    simp only [hparse, Bool.not_true, Bool.false_eq_true, if_false] at h
    split_ifs at h with _ hscope
    simp only [Bool.or_eq_true, not_or, Bool.not_eq_true, isSome_eq_false_iff,
      isNone_iff_eq_none] at hscope
    rw [hscope.1, hscope.2, IpTarget.unscoped]

/-- No client widens the scope of its tunnel by the URI it asks for. -/
theorem scope_not_widened (text : Bytes) (h : validateIpTemplate text = .ok ()) :
    ∃ template, Template.parse text = .ok template ∧ ScopeKept text template := by
  obtain ⟨template, hparse⟩ := parse_of_validate h
  obtain ⟨hwell, required, optional, hspells⟩ := Template.parse_ok hparse
  refine ⟨template, hparse, ?_, ?_, ?_, ?_, unscoped_of_prepare⟩
  · intro uri result haccepted
    rw [parseIpPath_eq hparse] at haccepted
    obtain ⟨segments, pairs, hparts⟩ := Template.exists_parts_of_capture haccepted
    obtain ⟨-, hmatches, hcaptured⟩ := (Template.capture_ok_iff hwell hparts).mp haccepted
    exact ⟨segments, pairs, hparts, Template.leavesOpen_of_captured hmatches hcaptured .target,
      Template.leavesOpen_of_captured hmatches hcaptured .protocol⟩
  · intro uri segments pairs hparts hmismatch
    rw [parseIpPath_eq hparse]
    cases hcapture : template.capture uri with
    | error error => exact ⟨error, rfl⟩
    | ok result =>
      exact absurd ((Template.capture_ok_iff hwell hparts).mp hcapture).2.1 hmismatch
  · intro uri uri' segments pairs pairs' result hparts hparts' hperm haccepted
    rw [parseIpPath_eq hparse] at haccepted ⊢
    exact Template.capture_perm hwell hparts hparts' hperm haccepted
  · intro target protocol htarget hstar hprotocol
    rw [parseIpPath_eq hparse]
    exact Template.capture_expansion hwell hspells htarget hstar hprotocol

/-- The default template. -/
theorem scope_not_widened_default :
    ∃ template,
      Template.parse (asBytes "/.well-known/masque/ip/\x7btarget\x7d/\x7bipproto\x7d/") =
        .ok template ∧
      ScopeKept (asBytes "/.well-known/masque/ip/\x7btarget\x7d/\x7bipproto\x7d/") template :=
  scope_not_widened _ (by decide +kernel)

end Safety

end MasqueServer.ConnectIp
