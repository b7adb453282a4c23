import MasqueServer.ScopeTemplates

/-!
# Matching a request URI

A URI is a list of path segments and a list of named query values. It matches a template if its
segments stand one to one for the template's, and its names are known, not repeated, and include the
required ones.
-/
namespace MasqueServer.ConnectIp

open List

open Ascii

def pairText (pair : Bytes × Bytes) : Bytes := pair.1 ++ equals :: pair.2

def queryText (pairs : List (Bytes × Bytes)) : Bytes :=
  if pairs = [] then [] else question :: [ampersand].intercalate (pairs.map pairText)

@[simp] lemma queryText_nil : queryText [] = [] := rfl

lemma queryText_of_ne_nil {pairs : List (Bytes × Bytes)} (h : pairs ≠ []) :
    queryText pairs = question :: [ampersand].intercalate (pairs.map pairText) := if_neg h

/-- The segments of a URI's path and the names and values of its query. -/
structure UriParts (uri : Bytes) (segments : List Bytes)
    (pairs : List (Bytes × Bytes)) : Prop where
  uri_eq : uri = [slash].intercalate segments ++ queryText pairs
  segments_nonempty : segments ≠ []
  segment_free : ∀ segment ∈ segments, slash ∉ segment ∧ question ∉ segment
  pair_free : ∀ pair ∈ pairs, equals ∉ pair.1 ∧ ampersand ∉ pair.1 ∧ ampersand ∉ pair.2

namespace Variable

/-- The value restricts this variable as the scope says, or not at all as the wildcard. -/
def Reads (name : Variable) (value : Bytes) (scope : IpTarget) : Prop :=
  match name with
  | .target => parseTarget value = .ok scope.target
  | .protocol => parseProtocol value = .ok scope.ipproto

/-- Two scopes agree on this variable. -/
def SameAt (name : Variable) (scope scope' : IpTarget) : Prop :=
  match name with
  | .target => scope.target = scope'.target
  | .protocol => scope.ipproto = scope'.ipproto

def update (name : Variable) (scope scope' : IpTarget) : IpTarget :=
  match name with
  | .target => { scope with target := scope'.target }
  | .protocol => { scope with ipproto := scope'.ipproto }

variable {name other : Variable} {value : Bytes} {a b c : IpTarget}

lemma SameAt.trans (h : name.SameAt a b) (h' : name.SameAt b c) : name.SameAt a c := by
  cases name <;> exact Eq.trans h h'

lemma SameAt.symm (h : name.SameAt a b) : name.SameAt b a := by
  cases name <;> exact Eq.symm h

lemma Reads.congr (h : name.Reads value a) (hsame : name.SameAt b a) : name.Reads value b := by
  cases name
  · exact Eq.trans h (congrArg Except.ok hsame.symm)
  · exact Eq.trans h (congrArg Except.ok hsame.symm)

lemma sameAt_update (name : Variable) (a b : IpTarget) : name.SameAt (name.update a b) b := by
  cases name <;> rfl

lemma sameAt_update_of_ne (hne : other ≠ name) (a b : IpTarget) :
    other.SameAt (name.update a b) a := by
  cases name <;> cases other
  · exact absurd rfl hne
  · rfl
  · rfl
  · exact absurd rfl hne

lemma eq_of_sameAt (h : ∀ name : Variable, name.SameAt a b) : a = b := by
  cases a
  cases b
  exact congrArg₂ IpTarget.mk (h .target) (h .protocol)

lemma Reads.wildcard (h : name.Reads value a) (hopen : name.SameAt a .unscoped) :
    decode value = some [star] := by
  cases name with
  | target =>
    have hread : parseTarget value = .ok none := Eq.trans h (congrArg Except.ok hopen)
    unfold parseTarget at hread
    split_ifs at hread
    split at hread
    next => cases hread
    next decoded hdecoded =>
      split_ifs at hread with hstar
      · rw [hdecoded, hstar]
      · cases hread
  | protocol =>
    have hread : parseProtocol value = .ok none := Eq.trans h (congrArg Except.ok hopen)
    unfold parseProtocol at hread
    split at hread
    next => cases hread
    next decoded hdecoded =>
      split_ifs at hread with hstar
      · rw [hdecoded, hstar]
      · split at hread <;> cases hread

end Variable

namespace Component

lemma capture_literal_ok_iff {text value : Bytes} {a b : IpTarget} :
    (literal text).capture value a = .ok b ↔ text = value ∧ b = a := by
  simp only [capture]
  split_ifs with h
  · simp [h, eq_comm]
  · simp [h]

lemma capture_var_ok_iff {name : Variable} {value : Bytes} {a b : IpTarget} :
    (var name).capture value a = .ok b ↔
      name.Reads value b ∧ ∀ other ≠ name, other.SameAt b a := by
  cases name with
  | target =>
    simp only [capture, bind_ok_iff, Except.ok.injEq]
    constructor
    · rintro ⟨scope, hread, rfl⟩
      refine ⟨hread, fun other hne => ?_⟩
      cases other
      · exact absurd rfl hne
      · rfl
    · rintro ⟨hread, hsame⟩
      refine ⟨b.target, hread, ?_⟩
      have hprotocol : b.ipproto = a.ipproto := hsame .protocol (by decide)
      rw [← hprotocol]
  | protocol =>
    simp only [capture, bind_ok_iff, Except.ok.injEq]
    constructor
    · rintro ⟨scope, hread, rfl⟩
      refine ⟨hread, fun other hne => ?_⟩
      cases other
      · rfl
      · exact absurd rfl hne
    · rintro ⟨hread, hsame⟩
      refine ⟨b.ipproto, hread, ?_⟩
      have htarget : b.target = a.target := hsame .target (by decide)
      rw [← htarget]

end Component

/-- The scope after all bound values have been captured, starting from another. -/
structure Captured (Bound : Component → Bytes → Prop) (scope result : IpTarget) : Prop where
  literals : ∀ {text value}, Bound (.literal text) value → text = value
  reads : ∀ {name value}, Bound (.var name) value → name.Reads value result
  kept : ∀ {name}, (∀ value, ¬ Bound (.var name) value) → name.SameAt result scope

def captureAll : List (Component × Bytes) → IpTarget → Except UriError IpTarget
  | [], scope => .ok scope
  | (component, value) :: rest, scope => do
    let scope ← component.capture value scope
    captureAll rest scope

section CaptureAll

variable {bound front rest : List (Component × Bytes)} {scope result : IpTarget}

lemma captureAll_append_ok_iff :
    captureAll (front ++ rest) scope = .ok result ↔
      ∃ middle, captureAll front scope = .ok middle ∧ captureAll rest middle = .ok result := by
  induction front generalizing scope with
  | nil => simp [captureAll]
  | cons head front ih =>
    simp only [cons_append, captureAll, bind_ok_iff, ih]
    constructor
    · rintro ⟨next, hhead, middle, hfront, hrest⟩
      exact ⟨middle, ⟨next, hhead, hfront⟩, hrest⟩
    · rintro ⟨middle, ⟨next, hhead, hfront⟩, hrest⟩
      exact ⟨next, hhead, middle, hfront, hrest⟩

lemma captured_nil_iff :
    Captured (fun component value => (component, value) ∈ ([] : List (Component × Bytes)))
      scope result ↔ scope = result := by
  constructor
  · intro h
    exact (Variable.eq_of_sameAt fun name => h.kept fun _ => not_mem_nil).symm
  · rintro rfl
    exact ⟨fun h => absurd h not_mem_nil, fun h => absurd h not_mem_nil,
      fun {name} _ => by cases name <;> rfl⟩

lemma captured_cons_literal_iff {text value : Bytes} :
    Captured (fun c v => (c, v) ∈ (Component.literal text, value) :: rest) scope result ↔
      text = value ∧ Captured (fun c v => (c, v) ∈ rest) scope result := by
  constructor
  · intro h
    refine ⟨h.literals mem_cons_self, ?_, ?_, ?_⟩
    · exact fun hmem => h.literals (mem_cons_of_mem _ hmem)
    · exact fun hmem => h.reads (mem_cons_of_mem _ hmem)
    · intro name hnone
      refine h.kept fun value' hmem => ?_
      exact hnone value' ((mem_cons.mp hmem).resolve_left (by simp))
  · rintro ⟨rfl, h⟩
    constructor
    · intro text' value' hmem
      rcases mem_cons.mp hmem with heq | hmem
      · simp only [Prod.mk.injEq, Component.literal.injEq] at heq
        rw [heq.1, heq.2]
      · exact h.literals hmem
    · intro name value' hmem
      exact h.reads ((mem_cons.mp hmem).resolve_left (by simp))
    · intro name hnone
      exact h.kept fun value' hmem => hnone value' (mem_cons_of_mem _ hmem)

lemma captured_cons_var_iff {name : Variable} {value : Bytes}
    (hfresh : ∀ value', (Component.var name, value') ∉ rest) :
    Captured (fun c v => (c, v) ∈ (Component.var name, value) :: rest) scope result ↔
      ∃ next, (name.Reads value next ∧ ∀ other ≠ name, other.SameAt next scope) ∧
        Captured (fun c v => (c, v) ∈ rest) next result := by
  constructor
  · intro h
    have hreads := h.reads mem_cons_self
    refine ⟨name.update scope result, ⟨hreads.congr (Variable.sameAt_update _ _ _),
      fun other hne => Variable.sameAt_update_of_ne hne _ _⟩, ?_, ?_, ?_⟩
    · exact fun hmem => h.literals (mem_cons_of_mem _ hmem)
    · exact fun hmem => h.reads (mem_cons_of_mem _ hmem)
    · intro name' hnone
      by_cases hname : name' = name
      · subst hname
        exact (Variable.sameAt_update _ _ _).symm
      · have hkept : name'.SameAt result scope := h.kept fun value' hmem => by
          rcases mem_cons.mp hmem with heq | hmem
          · simp only [Prod.mk.injEq, Component.var.injEq] at heq
            exact hname heq.1
          · exact hnone value' hmem
        exact hkept.trans (Variable.sameAt_update_of_ne hname _ _).symm
  · rintro ⟨next, ⟨hreads, hsame⟩, h⟩
    constructor
    · intro text value' hmem
      exact h.literals ((mem_cons.mp hmem).resolve_left (by simp))
    · intro name' value' hmem
      rcases mem_cons.mp hmem with heq | hmem
      · simp only [Prod.mk.injEq, Component.var.injEq] at heq
        obtain ⟨rfl, rfl⟩ := heq
        exact hreads.congr (h.kept hfresh)
      · exact h.reads hmem
    · intro name' hnone
      have hne : name' ≠ name := by
        rintro rfl
        exact hnone value mem_cons_self
      have hkept := h.kept fun value' hmem => hnone value' (mem_cons_of_mem _ hmem)
      exact hkept.trans (hsame name' hne)

theorem captureAll_ok_iff (honce : ∀ name, (bound.map Prod.fst).count (.var name) ≤ 1) :
    captureAll bound scope = .ok result ↔
      Captured (fun component value => (component, value) ∈ bound) scope result := by
  induction bound generalizing scope with
  | nil => rw [captured_nil_iff, captureAll, Except.ok.injEq]
  | cons head rest ih =>
    obtain ⟨component, value⟩ := head
    have hrest (name : Variable) : (rest.map Prod.fst).count (.var name) ≤ 1 :=
      le_trans (count_le_count_cons ..) (honce name)
    simp only [captureAll, bind_ok_iff, ih hrest]
    cases component with
    | literal text =>
      simp only [Component.capture_literal_ok_iff, captured_cons_literal_iff]
      exact ⟨fun ⟨_, ⟨htext, hsame⟩, h⟩ => ⟨htext, hsame ▸ h⟩,
        fun ⟨htext, h⟩ => ⟨scope, ⟨htext, rfl⟩, h⟩⟩
    | var name =>
      have hfresh (value' : Bytes) : (Component.var name, value') ∉ rest := by
        intro hmem
        have hpos : 0 < (rest.map Prod.fst).count (.var name) :=
          count_pos_iff.mpr (List.mem_map_of_mem hmem)
        have hle := honce name
        rw [map_cons, count_cons_self] at hle
        omega
      simp only [Component.capture_var_ok_iff, captured_cons_var_iff hfresh]

end CaptureAll

namespace Template

def components (template : Template) : List Component :=
  template.path ++ template.query.map (·.value)

/-- No variable stands twice in a template, and no query name. -/
structure WellFormed (template : Template) : Prop where
  names_nodup : (template.query.map (·.name)).Nodup
  variables_once : ∀ name, template.components.count (.var name) ≤ 1

/-- In a URI of these parts the value stands in the place of the component. -/
def Binds (template : Template) (segments : List Bytes)
    (pairs : List (Bytes × Bytes)) (component : Component) (value : Bytes) : Prop :=
  (component, value) ∈ template.path.zip segments ∨
    ∃ parameter ∈ template.query, parameter.value = component ∧ (parameter.name, value) ∈ pairs

/-- Segments one to one, and known, distinct and all required query names. -/
structure Matches (template : Template) (segments : List Bytes)
    (pairs : List (Bytes × Bytes)) : Prop where
  length_eq : template.path.length = segments.length
  names_known : ∀ pair ∈ pairs, ∃ parameter ∈ template.query, parameter.name = pair.1
  names_nodup : (pairs.map Prod.fst).Nodup
  required : ∀ parameter ∈ template.query, parameter.optional = false →
    parameter.name ∈ pairs.map Prod.fst

section Loops

variable {query : List QueryParameter} {pairs : List (Bytes × Bytes)}
  {scope result : IpTarget} {seen seen' : List Bytes}

lemma capturePath_ok_iff {path : List Component} {segments : List Bytes} :
    capturePath path segments scope = .ok result ↔
      path.length = segments.length ∧ captureAll (path.zip segments) scope = .ok result := by
  induction path generalizing segments scope with
  | nil => cases segments <;> simp [capturePath, captureAll]
  | cons component path ih =>
    cases segments with
    | nil => simp [capturePath]
    | cons segment segments =>
      simp only [capturePath, bind_ok_iff, ih, zip_cons_cons, captureAll, length_cons,
        Nat.add_right_cancel_iff]
      constructor
      · rintro ⟨next, hhead, hlength, hrest⟩
        exact ⟨hlength, next, hhead, hrest⟩
      · rintro ⟨hlength, next, hhead, hrest⟩
        exact ⟨next, hhead, hlength, hrest⟩

lemma capturePair_ok_iff {pair : Bytes × Bytes} (hfree : equals ∉ pair.1) :
    capturePair query (pairText pair) scope seen = .ok (result, seen') ↔
      ∃ parameter, query.find? (fun parameter => parameter.name = pair.1) = some parameter ∧
        pair.1 ∉ seen ∧ parameter.value.capture pair.2 scope = .ok result ∧
          seen' = pair.1 :: seen := by
  have hsplit : splitOnce equals (pairText pair) = some pair :=
    splitOnce_eq_some_iff.mpr ⟨rfl, hfree⟩
  simp only [capturePair, hsplit]
  cases query.find? (fun parameter => parameter.name = pair.1) with
  | none => simp
  | some parameter =>
    by_cases hseen : pair.1 ∈ seen
    · simp [hseen]
    · have hcontains : seen.contains pair.1 = false := by simpa using hseen
      simp only [hcontains, Bool.false_eq_true, if_false, bind_ok_iff, Except.ok.injEq,
        Prod.mk.injEq, Option.some.injEq]
      constructor
      · rintro ⟨next, hcapture, rfl, rfl⟩
        exact ⟨parameter, rfl, hseen, hcapture, rfl⟩
      · rintro ⟨_, rfl, -, hcapture, rfl⟩
        exact ⟨result, hcapture, rfl, rfl⟩

lemma captureQuery_ok_iff (hfree : ∀ pair ∈ pairs, equals ∉ pair.1) :
    captureQuery query (pairs.map pairText) scope seen = .ok (result, seen') ↔
      ∃ found : List (QueryParameter × Bytes),
        found.map (fun f => (f.1.name, f.2)) = pairs ∧
        (∀ f ∈ found, query.find? (fun parameter => parameter.name = f.1.name) = some f.1) ∧
        (pairs.map Prod.fst).Nodup ∧ (∀ name ∈ pairs.map Prod.fst, name ∉ seen) ∧
        captureAll (found.map fun f => (f.1.value, f.2)) scope = .ok result ∧
        seen' = (pairs.map Prod.fst).reverse ++ seen := by
  induction pairs generalizing scope seen with
  | nil =>
    simp only [map_nil, captureQuery, Except.ok.injEq, Prod.mk.injEq]
    constructor
    · rintro ⟨rfl, rfl⟩
      exact ⟨[], rfl, by simp, nodup_nil, by simp, rfl, rfl⟩
    · rintro ⟨found, hfound, -, -, -, hcaptured, rfl⟩
      rw [map_eq_nil_iff] at hfound
      subst hfound
      simp only [map_nil, captureAll, Except.ok.injEq] at hcaptured
      exact ⟨hcaptured, rfl⟩
  | cons pair pairs ih =>
    obtain ⟨hhead, hrest⟩ := forall_mem_cons.mp hfree
    simp only [map_cons, captureQuery, bind_ok_iff, Prod.exists, capturePair_ok_iff hhead,
      ih hrest]
    constructor
    · rintro ⟨next, _, ⟨parameter, hfind, hnew, hcapture, rfl⟩, found, rfl, hfound, hnodup, hunseen,
        hcaptured, rfl⟩
      have hname : parameter.name = pair.1 := by simpa using find?_some hfind
      refine ⟨(parameter, pair.2) :: found, by simp [hname], ?_, ?_, ?_, ?_, by simp⟩
      · exact forall_mem_cons.mpr ⟨by rw [hname]; exact hfind, hfound⟩
      · refine nodup_cons.mpr ⟨fun hmem => ?_, hnodup⟩
        exact hunseen _ hmem mem_cons_self
      · refine forall_mem_cons.mpr ⟨hnew, fun name hmem hseen => ?_⟩
        exact hunseen name hmem (mem_cons_of_mem _ hseen)
      · simp only [map_cons, captureAll, bind_ok_iff]
        exact ⟨next, hcapture, hcaptured⟩
    · rintro ⟨found, hpairs, hfound, hnodup, hunseen, hcaptured, rfl⟩
      cases found with
      | nil => simp at hpairs
      | cons f found =>
        simp only [map_cons, List.cons.injEq] at hpairs
        obtain ⟨rfl, rfl⟩ := hpairs
        simp only [map_cons, captureAll, bind_ok_iff] at hcaptured
        obtain ⟨next, hcapture, hcaptured⟩ := hcaptured
        obtain ⟨hfind, hfound⟩ := forall_mem_cons.mp hfound
        obtain ⟨hnew, hunseen⟩ := forall_mem_cons.mp hunseen
        obtain ⟨hfresh, hnodup⟩ := nodup_cons.mp hnodup
        refine ⟨next, _, ⟨f.1, hfind, hnew, hcapture, rfl⟩, found, rfl, hfound, hnodup, ?_,
          hcaptured, by simp⟩
        intro name hmem hseen
        rcases mem_cons.mp hseen with rfl | hseen
        · exact hfresh hmem
        · exact hunseen name hmem hseen

end Loops

section Capture

variable {template : Template} {uri : Bytes} {segments : List Bytes}
  {pairs : List (Bytes × Bytes)} {result : IpTarget}

lemma splitFixed_of_parts (h : UriParts uri segments pairs) :
    splitFixed uri = ([slash].intercalate segments,
      if pairs = [] then none else some ([ampersand].intercalate (pairs.map pairText))) := by
  have hpath : question ∉ [slash].intercalate segments := by
    intro hmem
    rcases eq_or_mem_of_mem_intercalate hmem with heq | ⟨segment, hsegment, hmem⟩
    · exact absurd heq (by decide)
    · exact (h.segment_free segment hsegment).2 hmem
  rw [splitFixed, h.uri_eq, queryText]
  split_ifs with hpairs
  · rw [append_nil, splitOnce_eq_none_iff.mpr hpath]
  · rw [splitOnce_eq_some_iff.mpr ⟨rfl, hpath⟩]

lemma capture_of_parts (h : UriParts uri segments pairs) (hvisible : isVisible uri = true) :
    template.capture uri = (do
      let target ← capturePath template.path segments .unscoped
      let (target, seen) ← captureQuery template.query (pairs.map pairText) target []
      if template.query.any fun parameter => !parameter.optional && !seen.contains parameter.name
      then .error .pathMismatch
      else .ok target) := by
  have hsegments : ([slash].intercalate segments).splitOn slash = segments :=
    splitOn_intercalate _ (fun segment hmem => (h.segment_free segment hmem).1)
      h.segments_nonempty
  rw [capture, hvisible, splitFixed_of_parts h]
  simp only [Bool.not_true, Bool.false_eq_true, if_false, hsegments]
  by_cases hpairs : pairs = []
  · simp only [hpairs, if_true, map_nil, captureQuery]
  · have hquery : ([ampersand].intercalate (pairs.map pairText)).splitOn ampersand =
        pairs.map pairText := by
      refine splitOn_intercalate _ ?_ (by simpa using hpairs)
      intro text hmem
      obtain ⟨pair, hpair, rfl⟩ := List.mem_map.mp hmem
      have hfree := h.pair_free pair hpair
      rw [pairText, mem_append, mem_cons, not_or, not_or]
      exact ⟨hfree.2.1, by decide, hfree.2.2⟩
    simp only [hpairs, if_false, hquery]

lemma WellFormed.find_eq_some_iff (hwell : template.WellFormed) {name : Bytes}
    {parameter : QueryParameter} :
    template.query.find? (fun parameter => parameter.name = name) = some parameter ↔
      parameter ∈ template.query ∧ parameter.name = name := by
  constructor
  · intro h
    exact ⟨mem_of_find?_eq_some h, by simpa using find?_some h⟩
  · rintro ⟨hmem, hname⟩
    cases hfind : template.query.find? (fun parameter => parameter.name = name) with
    | none =>
      have hnone := find?_eq_none.mp hfind parameter hmem
      simp [hname] at hnone
    | some found =>
      have hfound : found.name = name := by simpa using find?_some hfind
      have hsame := inj_on_of_nodup_map hwell.names_nodup
        (mem_of_find?_eq_some hfind) hmem (hfound.trans hname.symm)
      rw [hsame]

lemma WellFormed.once (hwell : template.WellFormed)
    (hlength : template.path.length = segments.length)
    {found : List (QueryParameter × Bytes)} (hfound : ∀ f ∈ found, f.1 ∈ template.query)
    (hnodup : (found.map fun f => f.1.name).Nodup) (name : Variable) :
    ((template.path.zip segments ++ found.map fun f => (f.1.value, f.2)).map Prod.fst).count
      (.var name) ≤ 1 := by
  have hparameters : (found.map Prod.fst).Subperm template.query := by
    refine subperm_of_subset (List.Nodup.of_map QueryParameter.name ?_) ?_
    · simpa [List.map_map, Function.comp_def] using hnodup
    · intro parameter hmem
      obtain ⟨f, hf, rfl⟩ := List.mem_map.mp hmem
      exact hfound f hf
  obtain ⟨parameters, hperm, hsub⟩ := hparameters
  have hcount := (hsub.map (·.value)).count_le (Component.var name)
  rw [(hperm.map (·.value)).count_eq] at hcount
  have honce := hwell.variables_once name
  rw [components, count_append] at honce
  rw [map_append, map_fst_zip hlength.le, count_append]
  simp only [List.map_map, Function.comp_def] at hcount ⊢
  omega

/-- The executable match, for a URI of these parts: it succeeds exactly if the parts match the
template and every value is what its component requires, with the scope these values give. -/
theorem capture_ok_iff (hwell : template.WellFormed) (h : UriParts uri segments pairs) :
    template.capture uri = .ok result ↔ isVisible uri = true ∧ template.Matches segments pairs ∧
      Captured (template.Binds segments pairs) .unscoped result := by
  by_cases hvisible : isVisible uri = true
  · have hfree : ∀ pair ∈ pairs, equals ∉ pair.1 := fun pair hmem => (h.pair_free pair hmem).1
    have hbound {found : List (QueryParameter × Bytes)}
        (hpairs : found.map (fun f => (f.1.name, f.2)) = pairs)
        (hfound : ∀ f ∈ found, f.1 ∈ template.query) :
        (fun component value =>
          (component, value) ∈ template.path.zip segments ++ found.map fun f => (f.1.value, f.2)) =
            template.Binds segments pairs := by
      funext component value
      rw [eq_iff_iff, mem_append, Binds, List.mem_map]
      refine or_congr_right ⟨?_, ?_⟩
      · rintro ⟨f, hf, heq⟩
        simp only [Prod.mk.injEq] at heq
        obtain ⟨rfl, rfl⟩ := heq
        exact ⟨f.1, hfound f hf, rfl, hpairs ▸ List.mem_map_of_mem hf⟩
      · rintro ⟨parameter, hparameter, rfl, hmem⟩
        rw [← hpairs, List.mem_map] at hmem
        obtain ⟨f, hf, heq⟩ := hmem
        simp only [Prod.mk.injEq] at heq
        have hsame := inj_on_of_nodup_map hwell.names_nodup (hfound f hf) hparameter heq.1
        exact ⟨f, hf, by rw [hsame, heq.2]⟩
    rw [capture_of_parts h hvisible]
    simp only [bind_ok_iff, Prod.exists, capturePath_ok_iff, captureQuery_ok_iff hfree, hvisible,
      true_and]
    constructor
    · rintro ⟨middle, ⟨hlength, hpath⟩, last, _,
        ⟨found, hpairs, hfound, hnodup, -, hquery, rfl⟩, hend⟩
      split_ifs at hend with hrequired
      simp only [Except.ok.injEq] at hend
      subst hend
      have hparameters : ∀ f ∈ found, f.1 ∈ template.query := fun f hf =>
        mem_of_find?_eq_some (hfound f hf)
      have hnames : (found.map fun f => f.1.name).Nodup := by
        simpa [← hpairs, List.map_map, Function.comp_def] using hnodup
      refine ⟨⟨hlength, ?_, hnodup, ?_⟩, ?_⟩
      · intro pair hmem
        rw [← hpairs, List.mem_map] at hmem
        obtain ⟨f, hf, rfl⟩ := hmem
        exact ⟨f.1, hparameters f hf, rfl⟩
      · intro parameter hmem hoptional
        by_contra hmissing
        refine hrequired (List.any_eq_true.mpr ⟨parameter, hmem, ?_⟩)
        simpa [hoptional] using hmissing
      · rw [← hbound hpairs hparameters]
        exact (captureAll_ok_iff (hwell.once hlength hparameters hnames)).mp
          (captureAll_append_ok_iff.mpr ⟨middle, hpath, hquery⟩)
    · rintro ⟨hmatches, hcaptured⟩
      have hexists : ∃ found : List (QueryParameter × Bytes),
          found.map (fun f => (f.1.name, f.2)) = pairs ∧ ∀ f ∈ found, f.1 ∈ template.query := by
        have hknown := hmatches.names_known
        clear * - hknown
        induction pairs with
        | nil => exact ⟨[], rfl, by simp⟩
        | cons pair pairs ih =>
          obtain ⟨⟨parameter, hmem, hname⟩, hrest⟩ := forall_mem_cons.mp hknown
          obtain ⟨found, rfl, hfound⟩ := ih hrest
          exact ⟨(parameter, pair.2) :: found, by simp [hname],
            forall_mem_cons.mpr ⟨hmem, hfound⟩⟩
      obtain ⟨found, hpairs, hfound⟩ := hexists
      have hnames : (found.map fun f => f.1.name).Nodup := by
        simpa [← hpairs, List.map_map, Function.comp_def] using hmatches.names_nodup
      rw [← hbound hpairs hfound] at hcaptured
      obtain ⟨middle, hpath, hquery⟩ := captureAll_append_ok_iff.mp
        ((captureAll_ok_iff (hwell.once hmatches.length_eq hfound hnames)).mpr hcaptured)
      refine ⟨middle, ⟨hmatches.length_eq, hpath⟩, result, _,
        ⟨found, hpairs, fun f hf => hwell.find_eq_some_iff.mpr ⟨hfound f hf, rfl⟩,
          hmatches.names_nodup, by simp, hquery, rfl⟩, if_neg ?_⟩
      rw [List.any_eq_true]
      rintro ⟨parameter, hmem, hmissing⟩
      simp only [Bool.and_eq_true, Bool.not_eq_true', append_nil,
        contains_reverse] at hmissing
      have hname := contains_iff_mem.mpr (hmatches.required parameter hmem hmissing.1)
      rw [hmissing.2] at hname
      cases hname
  · rw [capture, if_pos (by simpa using hvisible)]
    simp [hvisible]

lemma exists_pairs_of_captureQuery {query : List QueryParameter} {texts : List Bytes}
    {scope : IpTarget} {seen : List Bytes} {last : IpTarget × List Bytes}
    (h : captureQuery query texts scope seen = .ok last) :
    ∃ pairs : List (Bytes × Bytes), texts = pairs.map pairText ∧
      ∀ pair ∈ pairs, equals ∉ pair.1 := by
  induction texts generalizing scope seen with
  | nil => exact ⟨[], rfl, by simp⟩
  | cons text texts ih =>
    simp only [captureQuery, bind_ok_iff, Prod.exists] at h
    obtain ⟨next, seen', hpair, hrest⟩ := h
    obtain ⟨pairs, rfl, hfree⟩ := ih hrest
    cases hsplit : splitOnce equals text with
    | none => simp [capturePair, hsplit] at hpair
    | some pair =>
      obtain ⟨htext, hname⟩ := splitOnce_eq_some_iff.mp hsplit
      exact ⟨pair :: pairs, by rw [map_cons, pairText, ← htext],
        forall_mem_cons.mpr ⟨hname, hfree⟩⟩

theorem exists_parts_of_capture (h : template.capture uri = .ok result) :
    ∃ segments pairs, UriParts uri segments pairs := by
  unfold capture at h
  split_ifs at h
  simp only [bind_ok_iff] at h
  obtain ⟨middle, -, hquery⟩ := h
  have hfree {path : Bytes} (hquestion : question ∉ path) :
      ∀ segment ∈ path.splitOn slash, slash ∉ segment ∧ question ∉ segment := by
    intro segment hmem
    have hjoin : [slash].intercalate (path.splitOn slash) = path := intercalate_splitOn slash
    exact ⟨notMem_of_mem_splitOn hmem,
      fun hin => hquestion (hjoin ▸ mem_intercalate_of_mem hmem hin)⟩
  unfold splitFixed at hquery
  cases hsplit : splitOnce question uri with
  | none =>
    have hquestion := splitOnce_eq_none_iff.mp hsplit
    refine ⟨uri.splitOn slash, [], ?_, splitOn_ne_nil _ _, hfree hquestion, by simp⟩
    rw [intercalate_splitOn, queryText, if_pos rfl, append_nil]
  | some parts =>
    obtain ⟨path, query⟩ := parts
    obtain ⟨rfl, hquestion⟩ := splitOnce_eq_some_iff.mp hsplit
    simp only [hsplit, bind_ok_iff] at hquery
    obtain ⟨last, hlast, -⟩ := hquery
    obtain ⟨pairs, htexts, hnames⟩ := exists_pairs_of_captureQuery hlast
    have hpairs : pairs ≠ [] := by
      rintro rfl
      exact splitOn_ne_nil _ _ htexts
    refine ⟨path.splitOn slash, pairs, ?_, splitOn_ne_nil _ _, hfree hquestion, ?_⟩
    · rw [queryText, if_neg hpairs, ← htexts, intercalate_splitOn, intercalate_splitOn]
    · intro pair hmem
      have hampersand : ampersand ∉ pairText pair :=
        notMem_of_mem_splitOn (htexts ▸ List.mem_map_of_mem hmem)
      rw [pairText, mem_append, mem_cons, not_or, not_or] at hampersand
      exact ⟨hnames pair hmem, hampersand.1, hampersand.2.2⟩

/-- The ways in which a variable is left open: the template does not have it, it is optional and
absent, or its value is the wildcard. -/
def LeavesOpen (template : Template) (segments : List Bytes)
    (pairs : List (Bytes × Bytes)) (name : Variable) : Prop :=
  Component.var name ∉ template.components ∨
    (∃ parameter ∈ template.query, parameter.value = .var name ∧ parameter.optional = true ∧
      parameter.name ∉ pairs.map Prod.fst) ∨
    ∃ value, template.Binds segments pairs (.var name) value ∧ decode value = some [star]

theorem leavesOpen_of_captured (hmatches : template.Matches segments pairs)
    (hcaptured : Captured (template.Binds segments pairs) .unscoped result) (name : Variable)
    (hopen : name.SameAt result .unscoped) : template.LeavesOpen segments pairs name := by
  by_cases hbound : ∃ value, template.Binds segments pairs (.var name) value
  · obtain ⟨value, hvalue⟩ := hbound
    exact Or.inr (Or.inr ⟨value, hvalue, (hcaptured.reads hvalue).wildcard hopen⟩)
  by_cases hoccurs : Component.var name ∈ template.components
  · refine Or.inr (Or.inl ?_)
    rw [components, mem_append, List.mem_map] at hoccurs
    rcases hoccurs with hpath | ⟨parameter, hmem, hvalue⟩
    · rw [← map_fst_zip hmatches.length_eq.le, List.mem_map] at hpath
      obtain ⟨⟨component, value⟩, hmem, rfl⟩ := hpath
      exact absurd ⟨value, Or.inl hmem⟩ hbound
    · have habsent : parameter.name ∉ pairs.map Prod.fst := by
        intro hname
        obtain ⟨pair, hpair, hpname⟩ := List.mem_map.mp hname
        exact hbound ⟨pair.2, Or.inr ⟨parameter, hmem, hvalue, hpname ▸ hpair⟩⟩
      refine ⟨parameter, hmem, hvalue, ?_, habsent⟩
      by_contra hoptional
      exact habsent (hmatches.required parameter hmem (by simpa using hoptional))
  · exact Or.inl hoccurs

lemma isVisible_iff {text : Bytes} :
    isVisible text = true ↔ ∀ octet ∈ text, octet ≠ hash ∧ 0x21 ≤ octet ∧ octet ≤ 0x7E := by
  simp only [isVisible, Bool.and_eq_true, Bool.not_eq_true', List.all_eq_true, decide_eq_true_eq]
  constructor
  · rintro ⟨hhash, hrange⟩ octet hmem
    refine ⟨?_, hrange octet hmem⟩
    rintro rfl
    rw [contains_iff_mem.mpr hmem] at hhash
    cases hhash
  · intro h
    refine ⟨?_, fun octet hmem => (h octet hmem).2⟩
    by_contra hhash
    have hmem := contains_iff_mem.mp (Bool.not_eq_false _ |>.mp hhash)
    exact (h hash hmem).1 rfl

lemma isVisible_append {text rest : Bytes} :
    isVisible (text ++ rest) = true ↔ isVisible text = true ∧ isVisible rest = true := by
  simp only [isVisible_iff, forall_mem_append]

lemma isVisible_cons {octet : UInt8} {text : Bytes} (hoctet : isVisible [octet] = true) :
    isVisible (octet :: text) = true ↔ isVisible text = true := by
  rw [← singleton_append, isVisible_append]
  simp only [hoctet, true_and]

lemma isVisible_intercalate {sep : UInt8} {parts : List Bytes}
    (hsep : isVisible [sep] = true) :
    isVisible ([sep].intercalate parts) = true ↔ ∀ part ∈ parts, isVisible part = true := by
  simp only [isVisible_iff] at hsep ⊢
  constructor
  · intro h part hpart octet hmem
    exact h octet (mem_intercalate_of_mem hpart hmem)
  · intro h octet hmem
    rcases eq_or_mem_of_mem_intercalate hmem with rfl | ⟨part, hpart, hmem⟩
    · exact hsep _ mem_cons_self
    · exact h part hpart octet hmem

lemma isVisible_iff_parts (h : UriParts uri segments pairs) :
    isVisible uri = true ↔ (∀ segment ∈ segments, isVisible segment = true) ∧
      ∀ pair ∈ pairs, isVisible (pairText pair) = true := by
  rw [h.uri_eq, isVisible_append, isVisible_intercalate (by decide), queryText]
  split_ifs with hpairs
  · simp [hpairs, isVisible]
  · rw [isVisible_cons (by decide), isVisible_intercalate (by decide), List.forall_mem_map]

theorem capture_perm (hwell : template.WellFormed) {uri' : Bytes}
    {pairs' : List (Bytes × Bytes)} (h : UriParts uri segments pairs)
    (h' : UriParts uri' segments pairs') (hperm : pairs.Perm pairs')
    (hcapture : template.capture uri = .ok result) : template.capture uri' = .ok result := by
  obtain ⟨hvisible, hmatches, hcaptured⟩ := (capture_ok_iff hwell h).mp hcapture
  have hnames := hperm.map Prod.fst
  have hbinds : template.Binds segments pairs' = template.Binds segments pairs := by
    funext component value
    simp only [Binds, hperm.mem_iff]
  refine (capture_ok_iff hwell h').mpr ⟨?_, ⟨hmatches.length_eq, ?_, ?_, ?_⟩, hbinds ▸ hcaptured⟩
  · rw [isVisible_iff_parts h] at hvisible
    rw [isVisible_iff_parts h']
    exact ⟨hvisible.1, fun pair hmem => hvisible.2 pair (hperm.mem_iff.mpr hmem)⟩
  · exact fun pair hmem => hmatches.names_known pair (hperm.mem_iff.mpr hmem)
  · exact hnames.nodup_iff.mp hmatches.names_nodup
  · intro parameter hmem hoptional
    exact hnames.mem_iff.mp (hmatches.required parameter hmem hoptional)

end Capture

end Template

end MasqueServer.ConnectIp
