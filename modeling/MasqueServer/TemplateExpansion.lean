import MasqueServer.ConnectRequests
import MasqueServer.TemplateMatching

/-!
# Templates and their expansions

A template that parses spells its components. Expanding its text as RFC 6570 says, literals
unchanged and values escaped, therefore yields a URI of the components' values, and the match gives
these values back.
-/
namespace MasqueServer.ConnectIp

open List Option

open Ascii

variable (values : Bytes → Option Bytes)

def expandNamed (sign : UInt8) (names : Bytes) : Bytes :=
  let pairs := (names.splitOn comma).filterMap fun name =>
    (values name).map fun value => pairText (name, escape value)
  if pairs = [] then [] else sign :: [ampersand].intercalate pairs

/-- Form-style query expansion, its continuation, and simple string expansion. -/
def expandExpression : Bytes → Bytes
  | [] => []
  | sign :: names =>
    if sign = question ∨ sign = ampersand then expandNamed values sign names
    else [comma].intercalate (((sign :: names).splitOn comma).filterMap fun name =>
      (values name).map escape)

def expandFrom (values : Bytes → Option Bytes) :
    Option Bytes → Bytes → Bytes
  | _, [] => []
  | none, octet :: rest =>
    if octet = openBrace then expandFrom values (some []) rest
    else octet :: expandFrom values none rest
  | some expression, octet :: rest =>
    if octet = closeBrace then expandExpression values expression ++ expandFrom values none rest
    else expandFrom values (some (expression ++ [octet])) rest

def expand (template : Bytes) : Bytes :=
  expandFrom values none template

section Expand

variable {values : Bytes → Option Bytes} {literal expression rest : Bytes}

lemma expand_append_literal (hfree : openBrace ∉ literal) (rest : Bytes) :
    expand values (literal ++ rest) = literal ++ expand values rest := by
  unfold expand
  induction literal with
  | nil => rfl
  | cons octet literal ih =>
    simp only [mem_cons, not_or] at hfree
    rw [cons_append, expandFrom, if_neg (Ne.symm hfree.1), ih hfree.2, cons_append]

lemma expandFrom_expression (read : Bytes) (hfree : closeBrace ∉ expression)
    (rest : Bytes) :
    expandFrom values (some read) (expression ++ closeBrace :: rest) =
      expandExpression values (read ++ expression) ++ expand values rest := by
  induction expression generalizing read with
  | nil =>
    rw [nil_append, expandFrom, if_pos rfl, append_nil]
    rfl
  | cons octet expression ih =>
    simp only [mem_cons, not_or] at hfree
    rw [cons_append, expandFrom, if_neg (Ne.symm hfree.1), ih _ hfree.2, append_assoc,
      singleton_append]

lemma expand_append_expression (hfree : closeBrace ∉ expression) (rest : Bytes) :
    expand values (openBrace :: (expression ++ closeBrace :: rest)) =
      expandExpression values expression ++ expand values rest := by
  rw [expand, expandFrom, if_pos rfl, expandFrom_expression [] hfree, nil_append]

end Expand

namespace Variable

lemma parse_ok_iff {text : Bytes} {found : Variable} :
    Variable.parse text = .ok found ↔ text = found.name := by
  unfold Variable.parse
  split_ifs with htarget hprotocol
  · cases found
    · simp [name, htarget]
    · simp only [Except.ok.injEq, reduceCtorEq, false_iff, htarget]
      decide
  · cases found
    · simp only [Except.ok.injEq, reduceCtorEq, false_iff, hprotocol]
      decide
    · simp [name, hprotocol]
  · cases found
    · simpa [name] using htarget
    · simpa [name] using hprotocol

lemma notMem_name {octet : UInt8} (name : Variable) (h : isAlphanumeric octet = false) :
    octet ∉ name.name := by
  have hall : ∀ octet ∈ name.name, isAlphanumeric octet = true := by
    cases name <;> decide +kernel
  intro hmem
  rw [hall octet hmem] at h
  cases h

end Variable

namespace Component

def text : Component → Bytes
  | .literal text => text
  | .var name => openBrace :: (name.name ++ [closeBrace])

def vars : Component → List Variable
  | .literal _ => []
  | .var name => [name]

def Plain : Component → Prop
  | .literal text => openBrace ∉ text ∧ closeBrace ∉ text
  | .var _ => True

lemma eq_of_bracedName {value name : Bytes} (h : bracedName value = some name) :
    value = openBrace :: (name ++ [closeBrace]) := by
  simp only [bracedName, bind_eq_some_iff, dropPrefix?_eq_some_iff,
    dropSuffix?_eq_some_iff, beq_iff_eq] at h
  obtain ⟨rest, ⟨_, rfl, rfl⟩, _, rfl, rfl⟩ := h
  rfl

lemma parse_ok {value : Bytes} {used used' : List Variable} {component : Component}
    (h : parse value used = .ok (component, used')) :
    value = component.text ∧ component.Plain ∧ used' = component.vars ++ used ∧
      (used.Nodup → used'.Nodup) := by
  unfold parse at h
  split at h
  next name hname =>
    simp only [bind_ok_iff] at h
    obtain ⟨found, hfound, h⟩ := h
    split_ifs at h with hused
    simp only [Except.ok.injEq, Prod.mk.injEq] at h
    obtain ⟨rfl, rfl⟩ := h
    refine ⟨?_, trivial, rfl, fun hnodup => nodup_cons.mpr ⟨hused, hnodup⟩⟩
    rw [eq_of_bracedName hname, Variable.parse_ok_iff.mp hfound, text]
  next =>
    split_ifs at h with hbad
    simp only [Except.ok.injEq, Prod.mk.injEq] at h
    obtain ⟨rfl, rfl⟩ := h
    simp only [Bool.or_eq_true, not_or, contains_iff_mem] at hbad
    exact ⟨rfl, hbad.1, rfl, id⟩

lemma count_var (components : List Component) (name : Variable) :
    components.count (.var name) = (components.flatMap vars).count name := by
  induction components with
  | nil => rfl
  | cons component components ih =>
    rw [flatMap_cons, count_append, count_cons, ih, Nat.add_comm]
    congr 1
    cases component with
    | literal text => rfl
    | var name' => simp [vars, count_cons]

end Component

namespace Template

def requiredText (parameter : QueryParameter) : Bytes :=
  pairText (parameter.name, parameter.value.text)

structure Required (parameter : QueryParameter) : Prop where
  required : parameter.optional = false
  name_free : openBrace ∉ parameter.name ∧ equals ∉ parameter.name
  value_plain : parameter.value.Plain

/-- An optional parameter carries a variable under the variable's own name. -/
def Optional (parameter : QueryParameter) : Prop :=
  ∃ name : Variable, parameter = ⟨name.name, .var name, true⟩

section Parsing

variable {used used' : List Variable} {names names' : List Bytes}

lemma parsePath_ok {parts : List Bytes} {components : List Component}
    (h : parsePath parts used = .ok (components, used')) :
    parts = components.map Component.text ∧ (∀ component ∈ components, component.Plain) ∧
      used'.Perm (components.flatMap Component.vars ++ used) ∧ (used.Nodup → used'.Nodup) := by
  induction parts generalizing components used with
  | nil =>
    simp only [parsePath, Except.ok.injEq, Prod.mk.injEq] at h
    obtain ⟨rfl, rfl⟩ := h
    exact ⟨rfl, by simp, .refl _, id⟩
  | cons part parts ih =>
    simp only [parsePath, bind_ok_iff, Prod.exists, Except.ok.injEq, Prod.mk.injEq] at h
    obtain ⟨component, middle, hpart, components, last, hrest, rfl, rfl⟩ := h
    obtain ⟨rfl, hplain, rfl, hnodup⟩ := Component.parse_ok hpart
    obtain ⟨rfl, hplains, hperm, hnodups⟩ := ih hrest
    refine ⟨rfl, forall_mem_cons.mpr ⟨hplain, hplains⟩, hperm.trans ?_, hnodups ∘ hnodup⟩
    rw [flatMap_cons, ← append_assoc]
    exact perm_append_comm.append_right used

lemma parsePair_ok {pair : Bytes} {parameter : QueryParameter}
    (h : parsePair pair used names = .ok (parameter, used', names')) :
    pair = requiredText parameter ∧ Required parameter ∧ parameter.name ∉ names ∧
      names' = parameter.name :: names ∧ used' = parameter.value.vars ++ used ∧
        (used.Nodup → used'.Nodup) := by
  unfold parsePair at h
  split at h
  next => cases h
  next name value hsplit =>
    obtain ⟨rfl, hequals⟩ := splitOnce_eq_some_iff.mp hsplit
    split_ifs at h with hbad
    simp only [bind_ok_iff, Prod.exists, Except.ok.injEq, Prod.mk.injEq] at h
    obtain ⟨component, last, hvalue, rfl, rfl, rfl⟩ := h
    simp only [Bool.or_eq_true, not_or, contains_iff_mem] at hbad
    obtain ⟨rfl, hplain, hused, hnodup⟩ := Component.parse_ok hvalue
    exact ⟨rfl, ⟨rfl, ⟨hbad.1.1.1.2, hequals⟩, hplain⟩, hbad.2, rfl, hused, hnodup⟩

variable {parameters : List QueryParameter} {expansion : Option Bytes}

lemma parseFixed_ok {pairs : List Bytes}
    (h : parseFixed pairs used names = .ok (parameters, used', names')) :
    pairs = parameters.map requiredText ∧ (∀ parameter ∈ parameters, Required parameter) ∧
      used'.Perm (parameters.flatMap (·.value.vars) ++ used) ∧ (used.Nodup → used'.Nodup) ∧
      names'.Perm (parameters.map (·.name) ++ names) ∧ (names.Nodup → names'.Nodup) := by
  induction pairs generalizing parameters used names with
  | nil =>
    simp only [parseFixed, Except.ok.injEq, Prod.mk.injEq] at h
    obtain ⟨rfl, rfl, rfl⟩ := h
    exact ⟨rfl, by simp, .refl _, id, .refl _, id⟩
  | cons pair pairs ih =>
    simp only [parseFixed, bind_ok_iff, Prod.exists, Except.ok.injEq, Prod.mk.injEq] at h
    obtain ⟨parameter, middle, middleNames, hpair, parameters, last, lastNames, hrest, rfl, rfl,
      rfl⟩ := h
    obtain ⟨rfl, hrequired, hnew, rfl, rfl, hnodup⟩ := parsePair_ok hpair
    obtain ⟨rfl, hrequireds, hperm, hnodups, hnames, hnamesNodup⟩ := ih hrest
    refine ⟨rfl, forall_mem_cons.mpr ⟨hrequired, hrequireds⟩, hperm.trans ?_, hnodups ∘ hnodup,
      hnames.trans ?_, fun hnamesOld => hnamesNodup (nodup_cons.mpr ⟨hnew, hnamesOld⟩)⟩
    · rw [flatMap_cons, ← append_assoc]
      exact perm_append_comm.append_right used
    · rw [map_cons, cons_append]
      exact perm_middle

lemma parseExpansion_ok {texts : List Bytes}
    (h : parseExpansion texts used names = .ok parameters) :
    texts = parameters.map (·.name) ∧ (∀ parameter ∈ parameters, Optional parameter) ∧
      (used.Nodup → (parameters.flatMap (·.value.vars) ++ used).Nodup) ∧
      (names.Nodup → (parameters.map (·.name) ++ names).Nodup) := by
  induction texts generalizing parameters used names with
  | nil =>
    simp only [parseExpansion, Except.ok.injEq] at h
    subst h
    exact ⟨rfl, by simp, id, id⟩
  | cons text texts ih =>
    simp only [parseExpansion, bind_ok_iff] at h
    obtain ⟨found, hfound, h⟩ := h
    split_ifs at h with hused
    simp only [bind_ok_iff, Except.ok.injEq] at h
    obtain ⟨parameters, hrest, rfl⟩ := h
    obtain ⟨rfl, hoptional, hnodup, hnamesNodup⟩ := ih hrest
    rw [not_or] at hused
    have htext := Variable.parse_ok_iff.mp hfound
    refine ⟨rfl, forall_mem_cons.mpr ⟨⟨found, by rw [htext]⟩, hoptional⟩, ?_, ?_⟩
    · intro hold
      exact perm_middle.nodup_iff.mp (hnodup (nodup_cons.mpr ⟨hused.1, hold⟩))
    · intro hold
      exact perm_middle.nodup_iff.mp (hnamesNodup (nodup_cons.mpr ⟨hused.2, hold⟩))

lemma splitExpansion_ok {template fixed : Bytes}
    (h : splitExpansion template = .ok (fixed, expansion)) :
    (expansion = none ∧ template = fixed) ∨
      ∃ expression, expansion = some expression ∧ template =
        fixed ++ openBrace :: (if question ∈ fixed then ampersand else question) ::
          (expression ++ [closeBrace]) := by
  have hfound {front after expression : Bytes} {sign : UInt8} (continued : Bool)
      (hsign : sign = if continued then ampersand else question)
      (htemplate : template = front ++ openBrace :: sign :: after)
      (hsuffix : after.dropSuffix? [closeBrace] = some expression)
      (h : (if continued ≠ front.contains question then Except.error UriError.invalidTemplate
        else .ok (front, some expression)) = .ok (fixed, expansion)) :
      ∃ expression, expansion = some expression ∧ template =
        fixed ++ openBrace :: (if question ∈ fixed then ampersand else question) ::
          (expression ++ [closeBrace]) := by
    split_ifs at h with hcontinued
    simp only [Except.ok.injEq, Prod.mk.injEq] at h
    obtain ⟨rfl, rfl⟩ := h
    simp only [dropSuffix?_eq_some_iff, beq_iff_eq] at hsuffix
    obtain ⟨_, rfl, rfl⟩ := hsuffix
    refine ⟨expression, rfl, ?_⟩
    rw [htemplate, hsign, not_not.mp hcontinued]
    simp only [contains_iff_mem]
  unfold splitExpansion at h
  cases hform : splitOncePair openBrace question template with
  | some parts =>
    simp only [hform] at h
    split at h
    next => cases h
    next expression hsuffix =>
      exact Or.inr (hfound false rfl (eq_of_splitOncePair hform) hsuffix h)
  | none =>
    cases hnext : splitOncePair openBrace ampersand template with
    | some parts =>
      simp only [hform, hnext, map_some] at h
      split at h
      next => cases h
      next expression hsuffix =>
        exact Or.inr (hfound true rfl (eq_of_splitOncePair hnext) hsuffix h)
    | none =>
      simp only [hform, hnext, map_none, Except.ok.injEq, Prod.mk.injEq] at h
      exact Or.inl ⟨h.2.symm, h.1⟩

lemma parseFixedQuery_ok {fixed : Bytes}
    (h : parseFixedQuery (splitFixed fixed).2 used = .ok (parameters, used', names)) :
    (fixed = (splitFixed fixed).1 ++
        queryText (parameters.map fun parameter => (parameter.name, parameter.value.text)) ∧
      question ∉ (splitFixed fixed).1 ∧ (question ∈ fixed ↔ parameters ≠ [])) ∧
    (∀ parameter ∈ parameters, Required parameter ∧ ampersand ∉ requiredText parameter) ∧
    used'.Perm (parameters.flatMap (·.value.vars) ++ used) ∧ (used.Nodup → used'.Nodup) ∧
    names.Perm (parameters.map (·.name)) ∧ names.Nodup := by
  unfold splitFixed at h ⊢
  cases hsplit : splitOnce question fixed with
  | none =>
    have hfree := splitOnce_eq_none_iff.mp hsplit
    simp only [hsplit, parseFixedQuery, Except.ok.injEq, Prod.mk.injEq] at h
    obtain ⟨rfl, rfl, rfl⟩ := h
    exact ⟨⟨by simp [queryText], hfree, by simp [hfree]⟩, by simp, .refl _, id, .refl _,
      nodup_nil⟩
  | some parts =>
    obtain ⟨path, query⟩ := parts
    obtain ⟨rfl, hfree⟩ := splitOnce_eq_some_iff.mp hsplit
    simp only [hsplit, parseFixedQuery] at h
    obtain ⟨htexts, hrequired, hperm, hnodup, hnames, hnamesNodup⟩ := parseFixed_ok h
    have hne : parameters ≠ [] := by
      rintro rfl
      exact splitOn_ne_nil _ _ htexts
    have hquery : query = [ampersand].intercalate (parameters.map requiredText) := by
      rw [← htexts, intercalate_splitOn]
    refine ⟨⟨?_, hfree, by simp [hne]⟩, ?_, hperm, hnodup, ?_, hnamesNodup nodup_nil⟩
    · rw [queryText, if_neg (by simpa using hne), List.map_map]
      exact congrArg (path ++ question :: ·) hquery
    · intro parameter hmem
      exact ⟨hrequired parameter hmem,
        notMem_of_mem_splitOn (htexts ▸ List.mem_map_of_mem hmem)⟩
    · rwa [append_nil] at hnames

lemma parseFinalExpansion_ok (h : parseFinalExpansion expansion used names = .ok parameters) :
    (∀ parameter ∈ parameters, Optional parameter) ∧
      (used.Nodup → (parameters.flatMap (·.value.vars) ++ used).Nodup) ∧
      (names.Nodup → (parameters.map (·.name) ++ names).Nodup) ∧
      (expansion = none → parameters = []) ∧
      ∀ expression, expansion = some expression → parameters ≠ [] ∧
        expression = [comma].intercalate (parameters.map (·.name)) := by
  cases expansion with
  | none =>
    simp only [parseFinalExpansion, Except.ok.injEq] at h
    subst h
    exact ⟨by simp, id, id, fun _ => rfl, by simp⟩
  | some expression =>
    simp only [parseFinalExpansion] at h
    obtain ⟨htexts, hoptional, hnodup, hnames⟩ := parseExpansion_ok h
    refine ⟨hoptional, hnodup, hnames, by simp, ?_⟩
    rintro expression' heq
    rw [← some.inj heq, ← htexts, intercalate_splitOn]
    refine ⟨?_, rfl⟩
    rintro rfl
    exact splitOn_ne_nil _ _ htexts

end Parsing

def expansionText (required optional : List QueryParameter) : Bytes :=
  if optional = [] then []
  else openBrace :: (if required = [] then question else ampersand) ::
    ([comma].intercalate (optional.map (·.name)) ++ [closeBrace])

/-- The text spells the template with these required and optional parameters. -/
structure Spells (text : Bytes) (template : Template)
    (required optional : List QueryParameter) :
    Prop where
  text_eq : text = [slash].intercalate (template.path.map Component.text) ++
    (queryText (required.map fun parameter => (parameter.name, parameter.value.text)) ++
      expansionText required optional)
  query_eq : template.query = required ++ optional
  visible : isVisible text = true
  path_nonempty : template.path ≠ []
  path_plain : ∀ component ∈ template.path,
    component.Plain ∧ slash ∉ component.text ∧ question ∉ component.text
  required_plain : ∀ parameter ∈ required, Required parameter ∧ ampersand ∉ requiredText parameter
  optional_named : ∀ parameter ∈ optional, Optional parameter

theorem parse_ok {text : Bytes} {template : Template} (h : parse text = .ok template) :
    template.WellFormed ∧ ∃ required optional, Spells text template required optional := by
  unfold parse at h
  split_ifs at h with hguard
  simp only [bind_ok_iff, Prod.exists, Except.ok.injEq] at h
  obtain ⟨fixed, expansion, hexpansion, components, used, hpath, required, used', names, hrequired,
    optional, hoptional, rfl⟩ := h
  obtain ⟨htexts, hplain, hperm, hnodup⟩ := parsePath_ok hpath
  obtain ⟨⟨hfixed, hquestion, hstarted⟩, hrequireds, hperm', hnodup', hnames, hnamesNodup⟩ :=
    parseFixedQuery_ok hrequired
  obtain ⟨hoptionals, hvars, hallNames, hnone, hsome⟩ := parseFinalExpansion_ok hoptional
  have hpathText : (splitFixed fixed).1 = [slash].intercalate (components.map Component.text) := by
    rw [← htexts, intercalate_splitOn]
  have hsegment {component : Component} (hmem : component ∈ components) :
      component.text ∈ (splitFixed fixed).1.splitOn slash := htexts ▸ List.mem_map_of_mem hmem
  refine ⟨⟨?_, ?_⟩, required, optional, ?_, rfl, ?_, ?_, ?_, hrequireds, hoptionals⟩
  · have hall : (optional.map (·.name) ++ names).Perm
        (required.map (·.name) ++ optional.map (·.name)) :=
      (hnames.append_left _).trans perm_append_comm
    rw [map_append]
    exact hall.nodup_iff.mp (hallNames hnamesNodup)
  · intro name
    have hall : (optional.flatMap (·.value.vars) ++ used').Perm
        (components.flatMap Component.vars ++
          (required.flatMap (·.value.vars) ++ optional.flatMap (·.value.vars))) := by
      refine ((hperm'.trans (hperm.append_left _)).append_left _).trans ?_
      rw [append_nil, ← append_assoc (components.flatMap _)]
      exact perm_append_comm.trans (perm_append_comm.append_right _)
    have hvarsNodup := hall.nodup_iff.mp (hvars (hnodup' (hnodup nodup_nil)))
    rw [Component.count_var, Template.components, flatMap_append, flatMap_map,
      flatMap_append]
    exact nodup_iff_count_le_one.mp hvarsNodup name
  · rw [← hpathText, ← append_assoc, ← hfixed, expansionText]
    rcases splitExpansion_ok hexpansion with ⟨hexp, htext⟩ | ⟨expression, hexp, htext⟩
    · rw [if_pos (hnone hexp), append_nil, htext]
    · obtain ⟨hne, hexpression⟩ := hsome expression hexp
      rw [if_neg hne, htext, ← hexpression]
      by_cases hrequired : required = []
      · rw [if_neg (mt hstarted.mp (not_not.mpr hrequired)), if_pos hrequired]
      · rw [if_pos (hstarted.mpr hrequired), if_neg hrequired]
  · simp only [Bool.or_eq_true, not_or, Bool.not_eq_true', Bool.not_eq_false] at hguard
    exact hguard.2
  · rintro rfl
    exact splitOn_ne_nil _ _ htexts
  · intro component hmem
    refine ⟨hplain component hmem, notMem_of_mem_splitOn (hsegment hmem), fun hin => hquestion ?_⟩
    rw [hpathText]
    exact mem_intercalate_of_mem (List.mem_map_of_mem hmem) hin

end Template

def Component.expanded (given : Variable → Bytes) : Component → Bytes
  | .literal text => text
  | .var name => escape (given name)

def QueryParameter.expanded (given : Variable → Bytes) (parameter : QueryParameter) :
    Bytes × Bytes :=
  (parameter.name, parameter.value.expanded given)

section Expansion

variable {values : Bytes → Option Bytes} {given : Variable → Bytes}

lemma expand_joined {ι : Type} {sep : UInt8} (hsep : sep ≠ openBrace)
    {written shown : ι → Bytes}
    {items : List ι} (hitems : ∀ item ∈ items, ∀ rest,
      expand values (written item ++ rest) = shown item ++ expand values rest) (rest : Bytes) :
    expand values ([sep].intercalate (items.map written) ++ rest) =
      [sep].intercalate (items.map shown) ++ expand values rest := by
  induction items with
  | nil => rfl
  | cons item items ih =>
    obtain ⟨hitem, hrest⟩ := forall_mem_cons.mp hitems
    cases items with
    | nil => simpa using hitem rest
    | cons next items =>
      have hliteral (rest : Bytes) :
          expand values ([sep] ++ rest) = [sep] ++ expand values rest :=
        expand_append_literal (by simpa using hsep.symm) rest
      simp only [map_cons, intercalate_cons_cons, append_assoc, hitem,
        hliteral] at ih ⊢
      rw [ih hrest]

variable (hvalues : ∀ name : Variable, values name.name = some (given name))
include hvalues

lemma expandExpression_name (name : Variable) :
    expandExpression values name.name = escape (given name) := by
  have hsplit : name.name.splitOn comma = [name.name] :=
    splitOn_eq_singleton (name.notMem_name (by decide))
  have hsimple : expandExpression values name.name =
      [comma].intercalate ((name.name.splitOn comma).filterMap fun name =>
        (values name).map escape) := by
    cases name <;> rfl
  rw [hsimple, hsplit]
  simp [hvalues]

lemma expand_component {component : Component} (hplain : component.Plain) (rest : Bytes) :
    expand values (component.text ++ rest) = component.expanded given ++ expand values rest := by
  cases component with
  | literal text => exact expand_append_literal hplain.1 rest
  | var name =>
    have htext : (Component.var name).text ++ rest =
        openBrace :: (name.name ++ closeBrace :: rest) := by
      simp [Component.text]
    rw [htext, expand_append_expression (name.notMem_name (by decide)),
      expandExpression_name hvalues]
    rfl

lemma expand_required {parameter : QueryParameter} (hrequired : Template.Required parameter)
    (rest : Bytes) : expand values (Template.requiredText parameter ++ rest) =
      pairText (parameter.expanded given) ++ expand values rest := by
  have hfront : openBrace ∉ parameter.name ++ [equals] := by
    rw [mem_append, mem_singleton, not_or]
    exact ⟨hrequired.name_free.1, by decide⟩
  have htext : Template.requiredText parameter ++ rest =
      (parameter.name ++ [equals]) ++ (parameter.value.text ++ rest) := by
    simp [Template.requiredText, pairText]
  rw [htext, expand_append_literal hfront, expand_component hvalues hrequired.value_plain]
  simp [pairText, QueryParameter.expanded]

lemma expand_optional {required optional : List QueryParameter}
    (hoptional : ∀ parameter ∈ optional, Template.Optional parameter) :
    expand values (Template.expansionText required optional) =
      if optional = [] then []
      else (if required = [] then question else ampersand) ::
        [ampersand].intercalate
          (optional.map fun parameter => pairText (parameter.expanded given)) := by
  by_cases hne : optional = []
  · simp [Template.expansionText, hne, expand, expandFrom]
  · have hname {parameter : QueryParameter} (hmem : parameter ∈ optional) :
        ∃ name : Variable, parameter.name = name.name ∧
          values parameter.name = some (given name) ∧ parameter.value = .var name := by
      obtain ⟨name, rfl⟩ := hoptional parameter hmem
      exact ⟨name, rfl, hvalues name, rfl⟩
    have hsplit : ([comma].intercalate (optional.map (·.name))).splitOn comma =
        optional.map (·.name) := by
      refine splitOn_intercalate _ ?_ (by simpa using hne)
      intro text hmem
      obtain ⟨parameter, hparameter, rfl⟩ := List.mem_map.mp hmem
      obtain ⟨name, hname, -⟩ := hname hparameter
      exact hname ▸ name.notMem_name (by decide)
    have hpairs : (optional.map (·.name)).filterMap (fun name =>
        (values name).map fun value => pairText (name, escape value)) =
          optional.map fun parameter => pairText (parameter.expanded given) := by
      rw [filterMap_map, ← filterMap_eq_map]
      refine filterMap_congr fun parameter hmem => ?_
      obtain ⟨name, -, hvalue, hvar⟩ := hname hmem
      simp [hvalue, QueryParameter.expanded, hvar, Component.expanded]
    have hclose : closeBrace ∉ (if required = [] then question else ampersand) ::
        [comma].intercalate (optional.map (·.name)) := by
      rw [mem_cons, not_or]
      refine ⟨by split_ifs <;> decide, fun hmem => ?_⟩
      rcases eq_or_mem_of_mem_intercalate hmem with heq | ⟨text, htext, hmem⟩
      · exact absurd heq (by decide)
      · obtain ⟨parameter, hparameter, rfl⟩ := List.mem_map.mp htext
        obtain ⟨name, hname, -⟩ := hname hparameter
        exact name.notMem_name (by decide) (hname ▸ hmem)
    have hexpression : expand values
        (openBrace :: (if required = [] then question else ampersand) ::
          ([comma].intercalate (optional.map (·.name)) ++ [closeBrace])) =
          expandExpression values ((if required = [] then question else ampersand) ::
            [comma].intercalate (optional.map (·.name))) ++ expand values [] :=
      expand_append_expression hclose []
    rw [Template.expansionText, if_neg hne, if_neg hne, hexpression, expandExpression,
      if_pos (by split_ifs <;> simp), expandNamed, hsplit, hpairs, if_neg (by simpa using hne)]
    simp [expand, expandFrom]

end Expansion

end MasqueServer.ConnectIp
