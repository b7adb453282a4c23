import MasqueServer.StringLiterals
import MasqueServer.TextSplitting
import Mathlib.Data.List.DropRight
import Mathlib.Data.Nat.Digits.Defs

/-!
# TOML documents

A document is a tree of tables. The reader takes a text line by line: blank lines and comments,
headers of tables and of elements of arrays of tables, and pairs of a bare key with a basic string,
a decimal integer or a boolean.
-/
namespace MasqueServer

open Bool Function List Option

/-- An item of a table. `tables` is an array of tables; `other` is any value that is neither a
string nor an integer nor a boolean. -/
inductive TomlItem
  | string (value : String)
  | integer (value : ℕ)
  | boolean (value : Bool)
  | other (source : String)
  | table (entries : List (String × TomlItem))
  | tables (elements : List (List (String × TomlItem)))

abbrev TomlTable := List (String × TomlItem)

namespace TomlTable

def get (table : TomlTable) (key : String) : Option TomlItem := List.lookup key table

def set (table : TomlTable) (key : String) (item : TomlItem) : TomlTable :=
  match table with
  | [] => [(key, item)]
  | entry :: rest => if entry.1 = key then (key, item) :: rest else entry :: set rest key item

def remove (table : TomlTable) (key : String) : TomlTable := table.filter (·.1 ≠ key)

section Entries

variable (table : TomlTable) (key other : String) (item item' : TomlItem)

@[simp] lemma get_nil : get [] key = none := rfl

lemma get_cons (entry : String × TomlItem) :
    get (entry :: table) key = if key = entry.1 then some entry.2 else get table key := by
  rw [get, lookup_cons]
  by_cases h : key = entry.1
  · rw [if_pos h, beq_iff_eq.mpr h]
  · rw [if_neg h, beq_eq_false_iff_ne.mpr h]
    rfl

lemma get_set :
    get (set table key item) other = if other = key then some item else get table other := by
  induction table with
  | nil => rw [set, get_cons]
  | cons entry table ih =>
    rw [set]
    by_cases h : entry.1 = key
    · rw [if_pos h, get_cons, get_cons, h]
      split_ifs <;> rfl
    · rw [if_neg h, get_cons, get_cons, ih]
      by_cases hother : other = entry.1
      · rw [if_pos hother, if_neg (hother ▸ h), if_pos hother]
      · rw [if_neg hother, if_neg hother]

@[simp] lemma get_set_self : get (set table key item) key = some item := by
  rw [get_set, if_pos rfl]

@[simp] lemma set_set : set (set table key item) key item' = set table key item' := by
  induction table with
  | nil => simp [set]
  | cons entry table ih =>
    rw [set, set]
    by_cases h : entry.1 = key
    · rw [if_pos h, if_pos h, set, if_pos rfl]
    · rw [if_neg h, if_neg h, set, if_neg h, ih]

lemma get_remove :
    get (remove table key) other = if other = key then none else get table other := by
  induction table with
  | nil => simp [remove]
  | cons entry table ih =>
    rw [remove] at ih ⊢
    by_cases h : entry.1 = key
    · rw [filter_cons_of_neg (by simpa using h), ih, get_cons, h]
      split_ifs <;> rfl
    · rw [filter_cons_of_pos (by simpa using h), get_cons, ih, get_cons]
      by_cases hother : other = entry.1
      · rw [if_pos hother, if_pos hother, if_neg (hother ▸ h)]
      · rw [if_neg hother, if_neg hother]

@[simp] lemma remove_set : remove (set table key item) key = remove table key := by
  induction table with
  | nil => simp [set, remove]
  | cons entry table ih =>
    rw [remove, remove] at ih ⊢
    rw [set]
    by_cases h : entry.1 = key
    · rw [if_pos h, filter_cons_of_neg (by simp), filter_cons_of_neg (by simpa using h)]
    · rw [if_neg h, filter_cons_of_pos (by simpa using h), ih,
        filter_cons_of_pos (by simpa using h)]

lemma set_remove (h : other ≠ key) :
    set (remove table other) key item = remove (set table key item) other := by
  induction table with
  | nil => simp [set, remove, h.symm]
  | cons entry table ih =>
    rw [remove] at ih
    by_cases hkey : entry.1 = key
    · rw [remove, filter_cons_of_pos (by simpa [hkey] using h.symm), set, if_pos hkey, set,
        if_pos hkey, remove, filter_cons_of_pos (by simpa using h.symm)]
    · rw [set, if_neg hkey, remove, remove]
      by_cases hother : entry.1 = other
      · rw [filter_cons_of_neg (by simpa using hother),
          filter_cons_of_neg (by simpa using hother), ih, remove]
      · rw [filter_cons_of_pos (by simpa using hother),
          filter_cons_of_pos (by simpa using hother), set, if_neg hkey, ih, remove]

variable {table key} in
lemma remove_eq_self (h : get table key = none) : remove table key = table := by
  refine filter_eq_self.mpr fun entry hentry => decide_eq_true fun heq => ?_
  exact bne_iff_ne.mp (lookup_eq_none_iff.mp h entry hentry) heq.symm

end Entries

/-- Change the table at the end of a path. An array of tables stands for its last element, and a
missing table is made. -/
def update (change : TomlTable → Option TomlTable) : List String → TomlTable → Option TomlTable
  | [], table => change table
  | key :: path, table =>
    match get table key with
    | none => (update change path []).map fun inner => set table key (.table inner)
    | some (.table inner) => (update change path inner).map fun inner =>
      set table key (.table inner)
    | some (.tables elements) =>
      elements.getLast?.bind fun last => (update change path last).map fun last =>
        set table key (.tables (elements.dropLast ++ [last]))
    | some _ => none

def insertNew (key : String) (item : TomlItem) (table : TomlTable) : Option TomlTable :=
  match get table key with
  | none => some (set table key item)
  | some _ => none

def pushElement (key : String) (table : TomlTable) : Option TomlTable :=
  match get table key with
  | none => some (set table key (.tables [[]]))
  | some (.tables elements) => some (set table key (.tables (elements ++ [[]])))
  | some _ => none

end TomlTable

/-! ### Lines -/

inductive TomlLine
  | blank
  | header (path : List String)
  | arrayHeader (path : List String)
  | pair (key : String) (item : TomlItem)

def isTomlBlank (c : Char) : Bool := c = ' ' || c = '\t'

def isCommentChar (c : Char) : Bool := c = '\t' || (0x20 ≤ c.toNat && c.toNat ≠ 0x7f)

def isBareKeyChar (c : Char) : Bool := c.isAlphanum || c = '_' || c = '-'

variable (text : List Char)

def endsLine : Bool :=
  match text.dropWhile isTomlBlank with
  | [] => true
  | c :: comment => c = '#' && comment.all isCommentChar

def readBareKey : Option String :=
  let key := (text.dropWhile isTomlBlank).rdropWhile isTomlBlank
  if key ≠ [] ∧ key.all isBareKeyChar then some (String.ofList key) else none

def readKeyPath : Option (List String) := (text.splitOn '.').mapM readBareKey

def readToken (token : List Char) : Option TomlItem :=
  if token = "true".toList then some (.boolean true)
  else if token = "false".toList then some (.boolean false)
  else if token ≠ [] ∧ token.all Char.isDigit ∧ (token.head? = some '0' → token = ['0']) then
    some (.integer (Nat.ofDigitChars 10 token 0))
  else none

def endsToken (c : Char) : Bool := isTomlBlank c || c = '#'

def readTomlValue : Option (TomlItem × List Char) :=
  match tomlLiterals.read text with
  | some (value, rest) => some (.string (String.ofList value), rest)
  | none => (readToken (text.takeWhile fun c => !endsToken c)).map fun item =>
      (item, text.dropWhile fun c => !endsToken c)

def readPair : Option TomlLine := do
  let (key, rest) ← splitOnce '=' text
  let key ← readBareKey key
  let (item, rest) ← readTomlValue (rest.dropWhile isTomlBlank)
  if endsLine rest then some (.pair key item) else none

def readElementHeader : Option TomlLine := do
  let (path, rest) ← splitOncePair ']' ']' text
  let path ← readKeyPath path
  if endsLine rest then some (.arrayHeader path) else none

def readTableHeader : Option TomlLine := do
  let (path, rest) ← splitOnce ']' text
  let path ← readKeyPath path
  if endsLine rest then some (.header path) else none

def readTomlLine (line : List Char) : Option TomlLine :=
  if endsLine line then some .blank
  else match line.dropWhile isTomlBlank with
    | '[' :: '[' :: text => readElementHeader text
    | '[' :: text => readTableHeader text
    | text => readPair text

/-! ### Documents -/

/-- The tree so far, and the path of the table that pairs go into. -/
structure TomlState where
  root : TomlTable
  path : List String

variable (state : TomlState)

/-- Change the table that holds the last key of a header, and go on below that key. -/
def TomlState.enter (change : String → TomlTable → Option TomlTable) (path : List String) :
    Option TomlState :=
  path.getLast?.bind fun key =>
    (TomlTable.update (change key) path.dropLast state.root).map (⟨·, path⟩)

def TomlState.apply : TomlLine → Option TomlState
  | .blank => some state
  | .header path => state.enter (fun key => TomlTable.insertNew key (.table [])) path
  | .arrayHeader path => state.enter TomlTable.pushElement path
  | .pair key item =>
    (TomlTable.update (TomlTable.insertNew key item) state.path state.root).map (⟨·, state.path⟩)

def TomlState.readLine (line : List Char) : Option TomlState :=
  (readTomlLine line).bind state.apply

/-- Lines end with a line feed, before which a carriage return may stand. -/
def tomlLines : List (List Char) :=
  (text.splitOn '\n').map fun line => if line.getLast? = some '\r' then line.dropLast else line

def TomlState.readText (text : List Char) : Option TomlState :=
  (tomlLines text).foldlM TomlState.readLine state

def readTomlDocument : Option TomlTable :=
  (TomlState.readText ⟨[], []⟩ text).map (·.root)

/-! ### Written lines -/

/-- A line of text with this meaning. -/
structure Writes (line : List Char) (meaning : TomlLine) : Prop where
  feed : '\n' ∉ line
  carriage : '\r' ∉ line
  reads : readTomlLine line = some meaning

def writeLines (lines : List (List Char)) : List Char := lines.flatMap (· ++ ['\n'])

lemma writeLines_eq_intercalate (lines : List (List Char)) :
    writeLines lines = ['\n'].intercalate (lines ++ [[]]) := by
  induction lines with
  | nil => rfl
  | cons line lines ih =>
    have hcons : writeLines (line :: lines) = line ++ ['\n'] ++ writeLines lines := rfl
    obtain ⟨next, rest, hrest⟩ := exists_cons_of_ne_nil (append_ne_nil_of_right_ne_nil lines
      (cons_ne_nil ([] : List Char) []))
    rw [hcons, ih, cons_append, hrest, intercalate_cons_cons]

lemma ends_of_writes {lines : List (List Char)} {meanings : List TomlLine}
    (h : List.Forall₂ Writes lines meanings) : ∀ line ∈ lines ++ [[]], '\n' ∉ line ∧
      '\r' ∉ line := by
  induction h with
  | nil => simp
  | cons hline _ ih =>
    rw [cons_append, forall_mem_cons]
    exact ⟨⟨hline.feed, hline.carriage⟩, ih⟩

theorem readText_writeLines {lines : List (List Char)} {meanings : List TomlLine}
    (h : List.Forall₂ Writes lines meanings) :
    state.readText (writeLines lines) = meanings.foldlM TomlState.apply state := by
  have hends := ends_of_writes h
  have hlines : tomlLines (writeLines lines) = lines ++ [[]] := by
    rw [tomlLines, writeLines_eq_intercalate,
      splitOn_intercalate '\n' (fun line hline => (hends line hline).1) (by simp)]
    refine (map_congr_left fun line hline => if_neg fun hlast => ?_).trans (List.map_id _)
    exact (hends line hline).2 (mem_of_getLast? hlast)
  rw [TomlState.readText, hlines]
  clear hends hlines
  induction h generalizing state with
  | nil => rfl
  | cons hline _ ih =>
    rw [cons_append, foldlM_cons, foldlM_cons, TomlState.readLine, hline.reads,
      bind_some]
    exact congrArg _ (funext ih)

section Pairs

variable {c : Char} {key : String} {text : List Char} {item : TomlItem}

lemma isBareKeyChar_ne (h : isBareKeyChar c = true) :
    isTomlBlank c = false ∧ c ≠ '#' ∧ c ≠ '[' ∧ c ≠ '=' := by
  refine ⟨?_, ?_, ?_, ?_⟩
  · by_contra hblank
    rw [not_eq_false, isTomlBlank, or_eq_true, decide_eq_true_iff, decide_eq_true_iff] at hblank
    obtain rfl | rfl := hblank <;> cases h
  all_goals
    rintro rfl
    cases h

lemma readBareKey_blank (hkey : key.toList ≠ []) (hbare : key.toList.all isBareKeyChar = true) :
    readBareKey (key.toList ++ [' ']) = some key := by
  have hfree : ∀ c ∈ key.toList, isTomlBlank c = false := fun c hc =>
    (isBareKeyChar_ne (List.all_eq_true.mp hbare c hc)).1
  have hleft : (key.toList ++ [' ']).dropWhile isTomlBlank = key.toList ++ [' '] := by
    obtain ⟨c, rest, hlist⟩ := exists_cons_of_ne_nil hkey
    rw [hlist]
    exact dropWhile_cons_of_neg (by simp [hfree c (hlist ▸ mem_cons_self)])
  have hright : (key.toList ++ [' ']).rdropWhile isTomlBlank = key.toList := by
    rw [rdropWhile_concat_pos _ _ _ (by decide), rdropWhile_eq_self_iff]
    intro hne
    rw [hfree _ (getLast_mem hne)]
    exact Bool.false_ne_true
  rw [readBareKey, hleft, hright, if_pos ⟨hkey, hbare⟩, String.ofList_toList]

theorem readTomlLine_pair (hkey : key.toList ≠ []) (hbare : key.toList.all isBareKeyChar = true)
    (hblank : text.dropWhile isTomlBlank = text) (hvalue : readTomlValue text = some (item, [])) :
    readTomlLine (key.toList ++ ' ' :: '=' :: ' ' :: text) = some (.pair key item) := by
  have hreads : readPair (key.toList ++ ' ' :: '=' :: ' ' :: text) = some (.pair key item) := by
    have hfree : '=' ∉ key.toList ++ [' '] := by
      intro h
      obtain h | h := mem_append.mp h
      · exact (isBareKeyChar_ne (List.all_eq_true.mp hbare _ h)).2.2.2 rfl
      · cases mem_singleton.mp h
    have hsplit : splitOnce '=' (key.toList ++ ' ' :: '=' :: ' ' :: text) =
        some (key.toList ++ [' '], ' ' :: text) :=
      splitOnce_eq_some_iff.mpr ⟨by simp, hfree⟩
    have hskip : (' ' :: text).dropWhile isTomlBlank = text := by
      rw [dropWhile_cons_of_pos (by decide), hblank]
    simp only [readPair, hsplit, bind_eq_bind, bind_some, readBareKey_blank hkey hbare,
      hskip, hvalue]
    rfl
  obtain ⟨c, rest, hlist⟩ := exists_cons_of_ne_nil hkey
  have hc : isBareKeyChar c = true := by
    rw [hlist, all_cons, and_eq_true] at hbare
    exact hbare.1
  obtain ⟨hcblank, hcomment, hbracket, -⟩ := isBareKeyChar_ne hc
  rw [hlist, cons_append] at hreads ⊢
  have hstay : (c :: (rest ++ ' ' :: '=' :: ' ' :: text)).dropWhile isTomlBlank =
      c :: (rest ++ ' ' :: '=' :: ' ' :: text) :=
    dropWhile_cons_of_neg (by simp [hcblank])
  have hends : endsLine (c :: (rest ++ ' ' :: '=' :: ' ' :: text)) = false := by
    simp [endsLine, hstay, hcomment]
  rw [readTomlLine, hends, if_neg Bool.false_ne_true, hstay]
  split
  · rename_i h
    exact absurd (List.cons.inj h).1 hbracket
  · rename_i h
    exact absurd (List.cons.inj h).1 hbracket
  · exact hreads

lemma readTomlValue_literal {value : List Char} (h : tomlLiterals.IsLiteral text value) :
    readTomlValue text = some (.string (String.ofList value), []) := by
  rw [readTomlValue, h]

lemma digitChar_eq_zero_iff {n : ℕ} (h : n < 10) : n.digitChar = '0' ↔ n = 0 := by
  interval_cases n <;> decide

lemma eq_zero_of_head_toDigits {n : ℕ} (h : (Nat.toDigits 10 n).head? = some '0') : n = 0 := by
  induction n using Nat.strong_induction_on with
  | h n ih =>
    rw [Nat.toDigits_eq_if (by decide)] at h
    split_ifs at h with hlt
    · exact (digitChar_eq_zero_iff hlt).mp (some.inj h)
    · rw [head?_append_of_ne_nil _ Nat.toDigits_ne_nil] at h
      have hzero := ih (n / 10) (by omega) h
      omega

lemma readTomlValue_numeral (n : ℕ) :
    readTomlValue (Nat.toDigits 10 n) = some (.integer n, []) := by
  have hdigit : ∀ c ∈ Nat.toDigits 10 n, c.isDigit = true := fun c hc =>
    Nat.isDigit_of_mem_toDigits (by decide) (by decide) hc
  obtain ⟨first, rest, hfirst⟩ := exists_cons_of_ne_nil (@Nat.toDigits_ne_nil n 10)
  have hhead : first.isDigit = true := hdigit first (hfirst ▸ mem_cons_self)
  have hliteral : tomlLiterals.read (Nat.toDigits 10 n) = none := by
    rw [hfirst]
    unfold LiteralGrammar.read
    split
    · rename_i h
      cases (List.cons.inj h).1
      cases hhead
    · rfl
  have hends : ∀ c ∈ Nat.toDigits 10 n, (!endsToken c) = true := by
    intro c hc
    rw [not_eq_true']
    by_contra h
    simp only [endsToken, isTomlBlank, not_eq_false, or_eq_true, decide_eq_true_eq] at h
    have hc := hdigit c hc
    obtain (rfl | rfl) | rfl := h <;> cases hc
  have htoken : readToken (Nat.toDigits 10 n) = some (.integer n) := by
    rw [readToken, if_neg, if_neg, if_pos, Nat.ofDigitChars_ten_toDigits]
    · refine ⟨Nat.toDigits_ne_nil, List.all_eq_true.mpr hdigit, fun h => ?_⟩
      rw [eq_zero_of_head_toDigits h]
      rfl
    all_goals
      rw [hfirst]
      intro h
      cases (List.cons.inj h).1
      cases hhead
  rw [readTomlValue, hliteral, takeWhile_eq_self_iff.mpr hends,
    dropWhile_eq_nil_iff.mpr hends, htoken]
  rfl

end Pairs

/-! ### Elements of arrays of tables -/

def TomlTable.elements (table : TomlTable) (key : String) : Option (List TomlTable) :=
  match get table key with
  | none => some []
  | some (.tables elements) => some elements
  | some _ => none

def TomlLine.within (key : String) : TomlLine → TomlLine
  | .header path => .header (key :: path)
  | .arrayHeader path => .arrayHeader (key :: path)
  | line => line

def TomlLine.Named : TomlLine → Prop
  | .header path => path ≠ []
  | .arrayHeader path => path ≠ []
  | _ => True

/-- The document whose last element under `key` is the state's tree. -/
def TomlState.inside (state : TomlState) (root : TomlTable) (key : String)
    (elements : List TomlTable) : TomlState :=
  ⟨TomlTable.set root key (.tables (elements ++ [state.root])), key :: state.path⟩

section Elements

variable {root : TomlTable} {key : String} {elements : List TomlTable} {state : TomlState}

lemma update_last (change : TomlTable → Option TomlTable) (path : List String) (table : TomlTable) :
    TomlTable.update change (key :: path) (TomlTable.set root key (.tables (elements ++ [table]))) =
      (TomlTable.update change path table).map fun table =>
        TomlTable.set root key (.tables (elements ++ [table])) := by
  rw [TomlTable.update, TomlTable.get_set_self]
  simp only [getLast?_concat, bind_some, dropLast_concat, TomlTable.set_set]

lemma enter_within {path : List String} (hpath : path ≠ [])
    (change : String → TomlTable → Option TomlTable) :
    (state.inside root key elements).enter change (key :: path) =
      (state.enter change path).map fun state => state.inside root key elements := by
  obtain ⟨front, last, rfl⟩ := (eq_nil_or_concat' path).resolve_left hpath
  rw [TomlState.enter, TomlState.enter, ← cons_append, getLast?_concat,
    dropLast_concat, getLast?_concat, dropLast_concat]
  simp only [bind_some, TomlState.inside, update_last, Option.map_map, comp_def,
    cons_append]

lemma apply_within {line : TomlLine} (hline : line.Named) :
    (state.inside root key elements).apply (line.within key) =
      (state.apply line).map fun state => state.inside root key elements := by
  cases line with
  | blank => rfl
  | header path => exact enter_within hline _
  | arrayHeader path => exact enter_within hline _
  | pair pairKey item =>
    simp only [TomlLine.within, TomlState.apply, TomlState.inside, update_last, Option.map_map,
      comp_def]

lemma foldlM_within {lines : List TomlLine} (hlines : ∀ line ∈ lines, line.Named) :
    (lines.map (TomlLine.within key)).foldlM TomlState.apply (state.inside root key elements) =
      (lines.foldlM TomlState.apply state).map fun state => state.inside root key elements := by
  induction lines generalizing state with
  | nil => rfl
  | cons line lines ih =>
    rw [forall_mem_cons] at hlines
    rw [map_cons, foldlM_cons, apply_within hlines.1, foldlM_cons]
    cases state.apply line with
    | none => rfl
    | some next => exact ih hlines.2

theorem foldlM_element {lines : List TomlLine} {table : TomlTable} {path : List String}
    (helements : root.elements key = some elements) (hlines : ∀ line ∈ lines, line.Named)
    (hread : lines.foldlM TomlState.apply ⟨[], []⟩ = some ⟨table, path⟩) (before : List String) :
    (.arrayHeader [key] :: lines.map (TomlLine.within key)).foldlM TomlState.apply ⟨root, before⟩ =
      some (TomlState.inside ⟨table, path⟩ root key elements) := by
  have hpush : TomlState.apply ⟨root, before⟩ (.arrayHeader [key]) =
      some (TomlState.inside ⟨[], []⟩ root key elements) := by
    unfold TomlTable.elements at helements
    simp only [TomlState.apply, TomlState.enter, getLast?_singleton, bind_some,
      dropLast_singleton, TomlTable.update, TomlTable.pushElement]
    split at helements
    · cases helements
      rfl
    · cases helements
      rfl
    · cases helements
  rw [foldlM_cons, hpush]
  exact (foldlM_within hlines).trans (by rw [hread]; rfl)

end Elements

/-! ### What a document can hold -/

mutual

/-- What a document can hold: integers of 64 bits, values the library knows, tables whose keys are
distinct and arrays that have an element. -/
def TomlItem.wellFormed (isValue : String → Bool) : TomlItem → Bool
  | .integer value => value < 2 ^ 63
  | .other source => isValue source
  | .table entries => wellFormedEntries isValue entries
  | .tables elements => !elements.isEmpty && wellFormedElements isValue elements
  | .string _ => true
  | .boolean _ => true

def wellFormedEntries (isValue : String → Bool) : List (String × TomlItem) → Bool
  | [] => true
  | (key, item) :: rest =>
    (rest.all fun entry => entry.1 ≠ key) && item.wellFormed isValue && wellFormedEntries
      isValue rest

def wellFormedElements (isValue : String → Bool) : List (List (String × TomlItem)) → Bool
  | [] => true
  | element :: rest => wellFormedEntries isValue element && wellFormedElements isValue rest

end

section WellFormed

variable {isValue : String → Bool} {table : TomlTable} {key : String} {item : TomlItem}
  {elements : List TomlTable}

lemma wellFormedElements_iff :
    wellFormedElements isValue elements = true ↔
      ∀ element ∈ elements, wellFormedEntries isValue element = true := by
  induction elements with
  | nil => simp [wellFormedElements]
  | cons element elements ih => simp [wellFormedElements, ih]

lemma wellFormedEntries_iff : wellFormedEntries isValue table = true ↔
    (table.map Prod.fst).Nodup ∧ ∀ entry ∈ table, entry.2.wellFormed isValue = true := by
  induction table with
  | nil => simp [wellFormedEntries]
  | cons entry table ih =>
    obtain ⟨key, item⟩ := entry
    have hnew : (table.all fun entry => entry.1 ≠ key) = true ↔ key ∉ table.map Prod.fst := by
      rw [List.all_eq_true, List.mem_map]
      exact ⟨fun h ⟨entry, hentry, heq⟩ => of_decide_eq_true (h entry hentry) heq,
        fun h entry hentry => decide_eq_true fun heq => h ⟨entry, hentry, heq⟩⟩
    rw [wellFormedEntries, and_eq_true, and_eq_true, hnew, ih, map_cons,
      nodup_cons, forall_mem_cons]
    exact ⟨fun ⟨⟨hkey, hitem⟩, hkeys, hrest⟩ => ⟨⟨hkey, hkeys⟩, hitem, hrest⟩,
      fun ⟨⟨hkey, hkeys⟩, hitem, hrest⟩ => ⟨⟨hkey, hitem⟩, hkeys, hrest⟩⟩

lemma mem_of_get (h : TomlTable.get table key = some item) : (key, item) ∈ table := by
  induction table with
  | nil => cases h
  | cons entry table ih =>
    rw [TomlTable.get_cons] at h
    by_cases heq : key = entry.1
    · rw [if_pos heq, some.injEq] at h
      exact mem_cons.mpr (.inl (Prod.ext heq h.symm))
    · rw [if_neg heq] at h
      exact mem_cons_of_mem entry (ih h)

lemma wellFormed_get (htable : wellFormedEntries isValue table = true)
    (h : TomlTable.get table key = some item) : item.wellFormed isValue = true :=
  (wellFormedEntries_iff.mp htable).2 _ (mem_of_get h)

lemma mem_set {entry : String × TomlItem} (h : entry ∈ TomlTable.set table key item) :
    entry = (key, item) ∨ entry ∈ table := by
  induction table with
  | nil => exact .inl (mem_singleton.mp h)
  | cons first table ih =>
    rw [TomlTable.set] at h
    by_cases heq : first.1 = key
    · rw [if_pos heq] at h
      exact (mem_cons.mp h).imp_right (mem_cons_of_mem first)
    · rw [if_neg heq] at h
      obtain rfl | h := mem_cons.mp h
      · exact .inr mem_cons_self
      · exact (ih h).imp_right (mem_cons_of_mem first)

lemma nodup_keys_set (h : (table.map Prod.fst).Nodup) :
    ((TomlTable.set table key item).map Prod.fst).Nodup := by
  induction table with
  | nil => exact nodup_singleton key
  | cons first table ih =>
    obtain ⟨hnew, hnodup⟩ := nodup_cons.mp h
    rw [TomlTable.set]
    by_cases heq : first.1 = key
    · rw [if_pos heq]
      exact nodup_cons.mpr ⟨heq ▸ hnew, hnodup⟩
    · rw [if_neg heq]
      refine nodup_cons.mpr ⟨fun hmem => ?_, ih hnodup⟩
      obtain ⟨entry, hentry, hkey⟩ := List.mem_map.mp hmem
      obtain rfl | hentry := mem_set hentry
      · exact heq hkey.symm
      · exact hnew (List.mem_map.mpr ⟨entry, hentry, hkey⟩)

theorem wellFormed_set (htable : wellFormedEntries isValue table = true)
    (hitem : item.wellFormed isValue = true) :
    wellFormedEntries isValue (TomlTable.set table key item) = true := by
  obtain ⟨hkeys, hitems⟩ := wellFormedEntries_iff.mp htable
  refine wellFormedEntries_iff.mpr ⟨nodup_keys_set hkeys, fun entry hentry => ?_⟩
  obtain rfl | hentry := mem_set hentry
  · exact hitem
  · exact hitems entry hentry

theorem wellFormed_remove (htable : wellFormedEntries isValue table = true) (key : String) :
    wellFormedEntries isValue (TomlTable.remove table key) = true := by
  obtain ⟨hkeys, hitems⟩ := wellFormedEntries_iff.mp htable
  exact wellFormedEntries_iff.mpr ⟨hkeys.sublist (filter_sublist.map _),
    fun entry hentry => hitems entry (mem_of_mem_filter hentry)⟩

end WellFormed

end MasqueServer
